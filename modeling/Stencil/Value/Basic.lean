import Stencil.Dict
import Stencil.Number.Whole

/-!
# Values

What an expression can stand for. A text may be marked safe: it is markup already and
is not escaped again. An unbound name stands for the undefined value, which is a value
like any other until something is asked of it.
-/

namespace Stencil

/-- A value that a template can handle. Values are data without identity: two that look alike cannot
be told apart. -/
inductive Value where
  /-- A name or a part that nothing is bound to. -/
  | undefined
  | none
  | bool (b : Bool)
  | int (n : Int64)
  | float (x : Float)
  | text (s : String)
  /-- Markup, put out as it is. -/
  | safe (s : String)
  | seq (items : List Value)
  /-- Named entries in order, that is, a `Dict`. -/
  | map (entries : List (String × Value))
deriving Inhabited

namespace Value

/-- The kinds that messages tell apart; safe and other text are one kind, since being safe is no
property of what the text says. -/
inductive Kind where
  | undefined | none | bool | integer | float | string | sequence | mapping
deriving DecidableEq, Repr

/-- The word for a kind, as it stands in messages. -/
def Kind.word : Kind → String
  | .undefined => "undefined"
  | .none => "none"
  | .bool => "bool"
  | .integer => "integer"
  | .float => "float"
  | .string => "string"
  | .sequence => "sequence"
  | .mapping => "mapping"

/-- The kind of a value. Whether a text is safe makes no difference. -/
def kind : Value → Kind
  | .undefined => .undefined
  | .none => .none
  | .bool _ => .bool
  | .int _ => .integer
  | .float _ => .float
  | .text _ | .safe _ => .string
  | .seq _ => .sequence
  | .map _ => .mapping

/-- The content of a text, safe or not. No other value has any, also if it can be shown as a
text. -/
def text? : Value → Option String
  | .text s | .safe s => some s
  | _ => Option.none

/-- Whether a condition holds: zero, nothing and whatever is empty do not count, but a
mapping always does. A float that is not a number differs from zero. -/
def isTruthy : Value → Bool
  | .undefined | .none => false
  | .bool b => b
  | .int n => n != 0
  | .float x => !(x == 0)
  | .text s | .safe s => !s.isEmpty
  | .seq items => !items.isEmpty
  | .map _ => true

/-- A count as a value. Counts beyond 64-bit whole numbers become floats, since counting must not
fail. -/
def ofNat (n : Nat) : Value :=
  match Number.whole? n with
  | some fits => .int fits
  | Option.none => .float (Float.ofNat n)

end Value

end Stencil
