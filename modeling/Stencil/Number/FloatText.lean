import Stencil.Number.Shortest

/-!
# The text of a float

Two ways to write a float. The plain way gives the shortest decimal that reads back
and never an exponent. The value way writes a number without a fraction exactly, with
one zero behind the point, so that it cannot be mistaken for a whole number.
-/

namespace Stencil.Number

/-- The sign and the magnitude of a float that is not a NaN. Negative zero has a sign as well. -/
def signed (x : Float) (magnitude : List Char) : String :=
  String.ofList (if isNegative x then '-' :: magnitude else magnitude)

/-- The shortest decimal that reads back, without an exponent and, for a number
without a fraction, without a point. -/
def plainText (x : Float) : String :=
  if x.isNaN then "NaN"
  else if x.isInf then signed x ['i', 'n', 'f']
  else signed x (Decimal.shortest (Dyadic.ofFloat x)).text

/-- As `plainText`, but every digit of a number without a fraction, and `.0` after it, so that a
float can be told from a whole number. -/
def valueText (x : Float) : String :=
  if x.isFinite then
    match (Dyadic.ofFloat x).whole? with
    | some n => signed x (Nat.toDigits 10 n ++ ['.', '0'])
    | none => plainText x
  else plainText x

end Stencil.Number
