import Stencil.Filter
import Stencil.Scope
import Stencil.Value.Equality

/-!
# Evaluating expressions

The value of an expression in a scope. Operands are evaluated from left to right and the
first failure decides; the connectives leave their right operand alone when the left one
settles the result.
-/

namespace Stencil

namespace Value

/-- The part of a value that has a name. A sequence has its items under their positions
in decimal; what is absent is undefined. -/
def member (of : Expr) (name : String) : Value → Except Mistyped Value
  | .map entries => .ok ((Dict.get? entries name).getD .undefined)
  | .seq items =>
    .ok (((Number.natural? name.toList).bind fun position => items[position]?).getD .undefined)
  | value => .error (.noAttributes name value.kind of)

/-- The item at a position; negative positions count from the end. A position outside of the
sequence is undefined and no failure. -/
def itemAt (items : List Value) (position : Int) : Value :=
  let fromStart := if position < 0 then items.length + position else position
  if fromStart < 0 then .undefined else (items[fromStart.toNat]?).getD .undefined

/-- The part of a value under a key: texts and whole numbers for a mapping, positions for
a sequence. -/
def part (of : Expr) (value key : Value) : Except Mistyped Value :=
  match value, key with
  | .map entries, .text name => .ok ((Dict.get? entries name).getD .undefined)
  | .map entries, .safe name => .ok ((Dict.get? entries name).getD .undefined)
  | .map entries, .int n => .ok ((Dict.get? entries (Number.wholeText n)).getD .undefined)
  | .map _, key => .error (.mappingKey of key.kind)
  | .seq items, .int n => .ok (itemAt items n.toInt)
  | .seq _, key => .error (.sequenceKey of key.kind)
  | value, _ => .error (.noParts value.kind of)

/-- Text as it joins safe text: escaped, where escaping is on, and as it is where it is off. Text
that is safe joins as it is. -/
def joining (escaping : Bool) (s : String) : String :=
  if escaping then Text.Markup.escape s else s

/-- The sum of numbers, which is exact for whole ones, or texts put together. Plain text
that joins safe text is escaped first, so the result is safe. -/
def add (escaping : Bool) : Value → Value → Except Mistyped Value
  | .int a, .int b =>
    match Number.whole? (a.toInt + b.toInt) with
    | some sum => .ok (.int sum)
    | Option.none => .error .overflow
  | .int a, .float b => .ok (.float (toFloat a + b))
  | .float a, .int b => .ok (.float (a + toFloat b))
  | .float a, .float b => .ok (.float (a + b))
  | .text a, .text b => .ok (.text (a ++ b))
  | .safe a, .safe b => .ok (.safe (a ++ b))
  | .safe a, .text b => .ok (.safe (a ++ joining escaping b))
  | .text a, .safe b => .ok (.safe (joining escaping a ++ b))
  | a, b => .error (.notAddable a.kind b.kind)

/-- What the output of a value is: safe text as it is, any other text escaped where escaping is on.
Sequences and mappings have none, and the failure names the expression. -/
def emit (escaping : Bool) (of : Expr) : Value → Except Mistyped String
  | .safe s => .ok s
  | .seq _ => .error (.notText .sequence of)
  | .map _ => .error (.notText .mapping of)
  | value => .ok (joining escaping value.display)

end Value

namespace Expr

mutual

/-- The value of an expression. Operands are evaluated from left to right, and one that is not
needed for a connective is not evaluated. Whether escaping is on matters for sums alone, which
escape a text that is added to safe text. -/
def eval (escaping : Bool) (scope : Scope) : Expr → Except Mistyped Value
  | .text s => .ok (.text s)
  | .int n => .ok (.int n)
  | .float x => .ok (.float x)
  | .bool b => .ok (.bool b)
  | .none => .ok .none
  | .list items => (evalAll escaping scope items).map .seq
  | .variable name => .ok (scope.lookup name)
  | .attribute of name => do (← eval escaping scope of).member of name
  | .index of key => do
    let value ← eval escaping scope of
    value.part of (← eval escaping scope key)
  | .not of => do return .bool !(← eval escaping scope of).isTruthy
  | .binary .and left right => do
    if (← eval escaping scope left).isTruthy then
      return .bool (← eval escaping scope right).isTruthy
    else return .bool false
  | .binary .or left right => do
    if (← eval escaping scope left).isTruthy then return .bool true
    else return .bool (← eval escaping scope right).isTruthy
  | .binary .equal left right => do
    let value ← eval escaping scope left
    return .bool (value.looseEq (← eval escaping scope right))
  | .binary .unequal left right => do
    let value ← eval escaping scope left
    return .bool !(value.looseEq (← eval escaping scope right))
  | .binary .plus left right => do
    let value ← eval escaping scope left
    value.add escaping (← eval escaping scope right)
  | .filter of name arguments => do
    let value ← eval escaping scope of
    Filter.applyNamed name value (← evalAll escaping scope arguments)

/-- The values of expressions in order. The first failure is the failure of all. -/
def evalAll (escaping : Bool) (scope : Scope) : List Expr → Except Mistyped (List Value)
  | [] => .ok []
  | e :: rest => do
    let value ← eval escaping scope e
    return value :: (← evalAll escaping scope rest)

end

end Expr

end Stencil
