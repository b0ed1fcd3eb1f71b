import Stencil.Number.Dyadic

/-!
# The shortest decimal that reads back

Between a float and its neighbours lies an interval of numbers that all round to it.
Of the decimals `digits · 10 ^ exponent` in that interval the one on the coarsest grid
has the fewest digits. The search goes through the grids from coarse to fine, and on
each it tries the two points next to the exact value of the float. It ends at the latest on
the grid on which the exact value itself lies.
-/

namespace Stencil.Number

/-- The decimal `digits · 10 ^ exponent`. Zeros at the end of the digits could be in the exponent as
well, so a number may be written in several ways. -/
structure Decimal where
  digits : Nat
  exponent : Int

namespace Shortest

/-- A quotient of a power of two and a power of ten, over a common denominator. With
it a number of quarter units is compared with a point of a decimal grid. -/
structure Scale where
  quarter : Nat
  point : Nat

/-- The scale on which `q · 2 ^ (exponent - 2)` and `d · 10 ^ grid` are `q * quarter`
and `d * point`. -/
def scale (exponent grid : Int) : Scale :=
  ⟨Nat.pow 2 (exponent - 2).toNat * Nat.pow 10 (-grid).toNat,
    Nat.pow 2 (2 - exponent).toNat * Nat.pow 10 grid.toNat⟩

/-- The numbers that round to a float, in quarter units. The lower half gap is half as
wide at a power of two, and the ends belong to the interval if the significand is even. -/
structure Interval where
  low : Nat
  value : Nat
  high : Nat
  closed : Bool

/-- The interval of a float. The least normal number has the same unit on both sides. -/
def interval (v : Dyadic) : Interval :=
  let narrow := v.significand = Dyadic.leadingBit ∧ v.exponent ≠ -1074
  ⟨4 * v.significand - (if narrow then 1 else 2), 4 * v.significand, 4 * v.significand + 2,
    v.significand % 2 == 0⟩

/-- Whether the grid point `d` lies in the interval. Its ends belong to it only if the interval is
closed. -/
def Interval.holds (i : Interval) (s : Scale) (d : Nat) : Bool :=
  let point := d * s.point
  (i.low * s.quarter < point && point < i.high * s.quarter) ||
    (i.closed && (i.low * s.quarter == point || point == i.high * s.quarter))

/-- The point of the grid that is taken for the value, if the interval holds one: the
nearer of two, and the upper one if both are equally near. -/
def onGrid (i : Interval) (s : Scale) : Option Nat :=
  let below := i.value * s.quarter / s.point
  let above := below + 1
  match i.holds s below, i.holds s above with
  | true, true =>
    if i.value * s.quarter - below * s.point < above * s.point - i.value * s.quarter then
      some below
    else some above
  | true, false => some below
  | false, true => some above
  | false, false => none

/-- Search from the grid of `10 ^ grid` through the next finer ones. The last of them has the value
itself on it. -/
def search (i : Interval) (exponent : Int) : Nat → Int → Decimal
  | 0, grid =>
    let s := scale exponent grid
    ⟨i.value * s.quarter / s.point, grid⟩
  | finer + 1, grid =>
    match onGrid i (scale exponent grid) with
    | some d => ⟨d, grid⟩
    | none => search i exponent finer (grid - 1)

/-- An exponent of ten whose power exceeds the value: ten lies between the third and
the fourth power of two, so a third of the bits is enough for a large value and a
quarter for a small one. -/
def coarsest (v : Dyadic) : Int :=
  let bits := v.significand.log2 + 1 + v.exponent
  max (bits / 3) (bits / 4) + 1

end Shortest

/-- The shortest decimal that rounds to the value, and of those the nearest. Grids are tried from
the coarsest one on, so the first that has a point in the interval gives the fewest digits. -/
def Decimal.shortest (v : Dyadic) : Decimal :=
  if v.significand = 0 then ⟨0, 0⟩
  else
    let first := Shortest.coarsest v
    let last := min v.exponent 0
    Shortest.search (Shortest.interval v) v.exponent (first - last).toNat first

/-- The decimal written out without an exponent. A number below one has a zero in front of its
point. -/
def Decimal.text (d : Decimal) : List Char :=
  let digits := Nat.toDigits 10 d.digits
  if 0 ≤ d.exponent then digits ++ List.replicate d.exponent.toNat '0'
  else
    let places := (-d.exponent).toNat
    if places < digits.length then
      digits.take (digits.length - places) ++ '.' :: digits.drop (digits.length - places)
    else ['0', '.'] ++ List.replicate (places - digits.length) '0' ++ digits

end Stencil.Number
