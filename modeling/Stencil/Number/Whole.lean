/-!
# Whole numbers

Whole numbers in templates have 64 bits. Anything computed or read is first an exact
integer and becomes a 64-bit number only if it fits; nothing wraps. Their text is
decimal, with a sign only for negative numbers, and digits read back as the number
they were written from.
-/

namespace Stencil.Number

/-- The exact integer as a 64-bit number, if it is one. This is the only way from an exact result to
a stored number. -/
def whole? (n : Int) : Option Int64 :=
  if Int64.minValue.toInt ≤ n ∧ n ≤ Int64.maxValue.toInt then some (Int64.ofInt n) else none

/-- An integer in decimal digits, with a sign if it is negative and without leading zeros. -/
def integerText (n : Int) : String :=
  if n < 0 then String.ofList ('-' :: Nat.toDigits 10 n.natAbs)
  else String.ofList (Nat.toDigits 10 n.natAbs)

/-- A 64-bit number in decimal digits, with a sign if it is negative. -/
def wholeText (n : Int64) : String := integerText n.toInt

/-- The number that a text of decimal digits stands for; leading zeros are allowed,
and at least one digit is required. -/
def natural? (text : List Char) : Option Nat :=
  if text ≠ [] ∧ text.all Char.isDigit then some (Nat.ofDigitChars 10 text 0) else none

/-- A number that fits is stored unchanged, so nothing wraps on the way in. Storing checks both
bounds first, and between them the conversion is exact. -/
theorem toInt_of_whole? {n : Int} {stored : Int64} (fits : whole? n = some stored) :
    stored.toInt = n := by
  unfold whole? at fits
  split at fits
  · next bounds =>
    cases fits
    exact Int64.toInt_ofInt_of_le bounds.1 (Int.lt_of_le_of_lt bounds.2 (by decide))
  · cases fits

/-- Every stored number fits. So a number that is stored and taken out again is the same. -/
theorem whole?_toInt (n : Int64) : whole? n.toInt = some n := by
  have bounds : Int64.minValue.toInt ≤ n.toInt ∧ n.toInt ≤ Int64.maxValue.toInt :=
    ⟨n.le_toInt, Int.le_of_lt_add_one n.toInt_lt⟩
  rw [whole?, if_pos bounds, Int64.ofInt_toInt]

/-- Digits written for a number read back as that number. So a position that is written in decimal
can be looked up by its text. -/
theorem natural?_toDigits (n : Nat) : natural? (Nat.toDigits 10 n) = some n := by
  have digits : (Nat.toDigits 10 n).all Char.isDigit := by
    simpa using fun c member => Nat.isDigit_of_mem_toDigits (by decide) (by decide) member
  simp [natural?, Nat.toDigits_ne_nil, digits]

end Stencil.Number
