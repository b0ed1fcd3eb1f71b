import Stencil.Fault
import Stencil.Text.Blank
import Stencil.Text.Casing
import Stencil.Text.Markup
import Stencil.Value.Display

/-!
# Filters

A filter makes a value of a value. Filters on text keep safe text safe; of any other
value they take the text that it is displayed as.
-/

namespace Stencil

/-- The filters there are. No others can be added. -/
inductive Filter where
  | safe | escape | upper | lower | trim | length | default
deriving DecidableEq, Repr

namespace Filter

/-- The filter with a name. Escaping has a short name too, and any other name is unknown. -/
def ofName? : String → Option Filter
  | "safe" => some .safe
  | "escape" | "e" => some .escape
  | "upper" => some .upper
  | "lower" => some .lower
  | "trim" => some .trim
  | "length" => some .length
  | "default" => some .default
  | _ => none

/-- The number of arguments that a filter takes. It is exact: neither fewer nor more are
admitted. -/
def arity : Filter → Nat
  | .default => 1
  | _ => 0

/-- A function on texts applied to a value. Safe text stays safe, although the function may have
changed its markup. -/
def mapText (f : List Char → List Char) : Value → Value
  | .safe s => .safe (String.ofList (f s.toList))
  | value => .text (String.ofList (f value.display.toList))

/-- The number of items, entries or characters. Other values have none, and it is a failure to ask
for it. -/
def lengthOf : Value → Except Mistyped Value
  | .seq items => .ok (.ofNat items.length)
  | .map entries => .ok (.ofNat entries.length)
  | .text s | .safe s => .ok (.ofNat s.length)
  | value => .error (.noLength value.kind)

/-- What a filter makes of a value. The number of arguments has been checked before, so a default
without an argument does not occur. Text that is safe is not marked or escaped again. -/
def apply (filter : Filter) (value : Value) (arguments : List Value) : Except Mistyped Value :=
  match filter with
  | .safe =>
    match value with
    | .safe s => .ok (.safe s)
    | value => .ok (.safe value.display)
  | .escape =>
    match value with
    | .safe s => .ok (.safe s)
    | value => .ok (.safe (Text.Markup.escape value.display))
  | .upper => .ok (mapText Text.upper value)
  | .lower => .ok (mapText Text.lower value)
  | .trim => .ok (mapText Text.trim value)
  | .length => lengthOf value
  | .default =>
    match value with
    | .undefined => .ok (arguments.headD .undefined)
    | value => .ok value

/-- A filter by name. That the name is unknown comes before a wrong number of arguments. -/
def applyNamed (name : String) (value : Value) (arguments : List Value) :
    Except Mistyped Value :=
  match ofName? name with
  | none => .error (.unknownFilter name)
  | some filter =>
    if arguments.length = filter.arity then filter.apply value arguments
    else .error (.argumentCount name filter.arity arguments.length)

end Filter

end Stencil
