/-!
# Floats from scaled digits

Data formats read a decimal with many digits or an exponent in two steps: the leading
digits that fit into 64 bits make a number, rounded to a float, and that is multiplied or
divided by a power of ten. Each step rounds, so the result may differ from the nearest
float in its last bit.
-/

namespace Stencil.Number

/-- The number that digits go on to make as long as it fits into 64 bits, and the
digits that are left over. -/
def leading (n : Nat) : List Char → Nat × List Char
  | [] => (n, [])
  | digit :: rest =>
    let next := n * 10 + (digit.toNat - '0'.toNat)
    if next < UInt64.size then leading next rest else (n, digit :: rest)

/-- The float nearest to a power of ten. It is rounded where the power has too many bits. -/
def powerOfTen (exponent : Nat) : Float := Float.ofScientific 1 false exponent

/-- A float times a power of ten. Large steps down are taken in parts; a result beyond the
range of floats is none at all. -/
def scale? (x : Float) (exponent : Int) : Option Float :=
  if exponent.natAbs ≤ 308 then
    if 0 ≤ exponent then
      let scaled := x * powerOfTen exponent.natAbs
      if scaled.isInf then none else some scaled
    else some (x / powerOfTen exponent.natAbs)
  else if x == 0 then some x
  else if 0 ≤ exponent then none
  else scale? (x / powerOfTen 308) (exponent + 308)
termination_by exponent.natAbs
decreasing_by omega

/-- The float that digits before and behind a point and an exponent of ten stand for. Digits that
are left over count by their number only. -/
def ofDigits? (whole places : List Char) (exponent : Int) : Option Float :=
  let (n, dropped) := leading 0 whole
  let (n, unused) := leading n places
  scale? (Float.ofNat n) (dropped.length - (places.length - unused.length : Nat) + exponent)

end Stencil.Number
