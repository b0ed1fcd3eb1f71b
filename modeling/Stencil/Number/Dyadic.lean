/-!
# The exact value of a float

A finite float is a whole number of units, the unit being a power of two. Everything
that is written about a float is decided on this exact value.
-/

namespace Stencil.Number

/-- The non-negative number `significand · 2 ^ exponent`. Every finite float is one, but for its
sign. -/
structure Dyadic where
  significand : Nat
  exponent : Int

namespace Dyadic

/-- The leading bit of a normal significand, two to the power of 52. It is implied and not
written. -/
def leadingBit : Nat := 0x10000000000000

/-- The magnitude of a finite float. Below the least normal number the leading bit is
not implied and the unit stays the smallest one. -/
def ofFloat (x : Float) : Dyadic :=
  let bits : Nat := x.toBits.toNat
  let fraction : Nat := bits % leadingBit
  let field : Nat := bits / leadingBit % 0x800
  if field = 0 then ⟨fraction, -1074⟩ else ⟨leadingBit + fraction, (field : Int) - 1075⟩

/-- The value as a whole number, if it has no fraction. It may be of any size. -/
def whole? (v : Dyadic) : Option Nat :=
  if 0 ≤ v.exponent then some (v.significand * Nat.pow 2 v.exponent.toNat)
  else
    let unit := Nat.pow 2 (-v.exponent).toNat
    if v.significand % unit = 0 then some (v.significand / unit) else none

end Dyadic

/-- The sign bit of a float; negative zero has it too. -/
def isNegative (x : Float) : Bool := x.toBits.toNat / 0x8000000000000000 == 1

end Stencil.Number
