import Stencil.Value.Basic

/-!
# Equality of values

Two relations. Templates compare loosely: a whole number equals the float it rounds to,
safe and other text compare by content, and sequences and mappings entry by entry. The
strict relation keeps all kinds apart. Neither relates a float that is not a number to
anything, itself included, and both take the two zeros for one.
-/

namespace Stencil.Value

/-- The float nearest to a whole number. Different whole numbers may have the same one. -/
def toFloat (n : Int64) : Float := Float.ofInt n.toInt

mutual

/-- Equality with all kinds kept apart. Floats are compared as floats, so it is not the identity of
values. -/
def strictEq : Value → Value → Bool
  | .undefined, .undefined => true
  | .none, .none => true
  | .bool a, .bool b => a == b
  | .int a, .int b => a == b
  | .float a, .float b => a == b
  | .text a, .text b => a == b
  | .safe a, .safe b => a == b
  | .seq a, .seq b => strictEqItems a b
  | .map a, .map b => strictEqEntries a b
  | _, _ => false

/-- Strict equality of sequences: as many items, and equal ones at each place. -/
def strictEqItems : List Value → List Value → Bool
  | [], [] => true
  | a :: as, b :: bs => strictEq a b && strictEqItems as bs
  | _, _ => false

/-- Strict equality of mappings: the same names in the same order, with equal entries. Mappings are
ordered by name, so the order adds nothing. -/
def strictEqEntries : List (String × Value) → List (String × Value) → Bool
  | [], [] => true
  | (name, a) :: as, (other, b) :: bs => name == other && strictEq a b && strictEqEntries as bs
  | _, _ => false

end

mutual

/-- Equality as templates see it. A whole number meets a float by its nearest float, and a text
meets safe text by its content; everything else is as strict as before. -/
def looseEq : Value → Value → Bool
  | .int a, .float b => toFloat a == b
  | .float a, .int b => toFloat b == a
  | .text a, .text b => a == b
  | .text a, .safe b => a == b
  | .safe a, .text b => a == b
  | .safe a, .safe b => a == b
  | .seq a, .seq b => looseEqItems a b
  | .map a, .map b => looseEqEntries a b
  | .undefined, .undefined => true
  | .none, .none => true
  | .bool a, .bool b => a == b
  | .int a, .int b => a == b
  | .float a, .float b => a == b
  | _, _ => false

/-- Loose equality of sequences: as many items, and loosely equal ones at each place. -/
def looseEqItems : List Value → List Value → Bool
  | [], [] => true
  | a :: as, b :: bs => looseEq a b && looseEqItems as bs
  | _, _ => false

/-- Loose equality of mappings: the same names with equal entries. Names are compared strictly,
since they are no values. -/
def looseEqEntries : List (String × Value) → List (String × Value) → Bool
  | [], [] => true
  | (name, a) :: as, (other, b) :: bs => name == other && looseEq a b && looseEqEntries as bs
  | _, _ => false

end

end Stencil.Value
