import Stencil.Document.Basic
import Stencil.Number.Whole

/-!
# Scalars of documents

The truth values and numbers that are written without quotation marks. Digits may be
grouped by single low lines between them.
-/

namespace Stencil.Document

/-- Digits without the low lines between them; every low line must be between two digits. There must
be a digit. -/
def ungrouped? (isDigit : Char → Bool) : List Char → Option (List Char)
  | [] => none
  | [c] => if isDigit c then some [c] else none
  | c :: '_' :: rest =>
    if isDigit c then (ungrouped? isDigit rest).map (c :: ·) else none
  | c :: rest => if isDigit c then (ungrouped? isDigit rest).map (c :: ·) else none

/-- The number that a hexadecimal digit stands for. Upper and lower case letters stand for the
same. -/
def digitValue (c : Char) : Nat :=
  if c.isDigit then c.toNat - '0'.toNat
  else if c.isLower then c.toNat - 'a'.toNat + 10
  else c.toNat - 'A'.toNat + 10

/-- Whether a character is a digit to a base. Bases below ten have only the first of the digits. -/
def isDigitOf (base : Nat) (c : Char) : Bool :=
  (c.isDigit || ('a' ≤ c && c ≤ 'f') || ('A' ≤ c && c ≤ 'F')) && digitValue c < base

/-- The number that grouped digits stand for. It may be of any size here, and is checked where it is
used. -/
def digits? (base : Nat) (text : List Char) : Option Nat :=
  (ungrouped? (isDigitOf base) text).map fun digits =>
    digits.foldl (fun n c => n * base + digitValue c) 0

/-- A sign and what follows it. Without a sign it is as with a plus sign. -/
def signed : List Char → Bool × List Char
  | '-' :: rest => (true, rest)
  | '+' :: rest => (false, rest)
  | text => (false, text)

/-- Decimal digits of a whole part: no zero stands before another digit. A zero alone is a whole
part. -/
def wholePart? (text : List Char) : Option (List Char) :=
  match ungrouped? Char.isDigit text with
  | some ('0' :: _ :: _) => none
  | digits => digits

/-- A whole number, in decimal with a sign or to another base without one. It has to fit into 64
bits. -/
def integer? (text : List Char) : Option Int64 :=
  match text with
  | '0' :: 'x' :: digits => (digits? 16 digits).bind fun n => Number.whole? n
  | '0' :: 'o' :: digits => (digits? 8 digits).bind fun n => Number.whole? n
  | '0' :: 'b' :: digits => (digits? 2 digits).bind fun n => Number.whole? n
  | text =>
    let (negative, text) := signed text
    (wholePart? text).bind fun digits =>
      let n : Int := Nat.ofDigitChars 10 digits 0
      Number.whole? (if negative then -n else n)

/-- An exponent behind its letter. It may have a sign, and zeros in front. -/
def exponent? (text : List Char) : Option Int :=
  let (negative, text) := signed text
  (ungrouped? Char.isDigit text).map fun digits =>
    let n : Int := Nat.ofDigitChars 10 digits 0
    if negative then -n else n

/-- Digits times a power of ten, rounded once to the nearest float. -/
def scaled (digits : List Char) (exponent : Int) : Float :=
  Float.ofScientific (Nat.ofDigitChars 10 digits 0) (exponent < 0) exponent.natAbs

/-- A float: a whole part, and behind it a fraction or an exponent or both. Digits beyond the range
of floats are allowed only for negative infinity. The digits are put together as one whole number
with an exponent, so that there is a single rounding. -/
def float? (text : List Char) : Option Float := do
  let (negative, text) := signed text
  let magnitude ←
    if text = ['i', 'n', 'f'] then some (1 / 0)
    else if text = ['n', 'a', 'n'] then some (0 / 0)
    else do
      let isMark (c : Char) := c == 'e' || c == 'E'
      let mantissa := text.takeWhile (!isMark ·)
      let exponent ←
        match text.dropWhile (!isMark ·) with
        | [] => some 0
        | _ :: power => exponent? power
      let whole ← wholePart? (mantissa.takeWhile (· ≠ '.'))
      let places ←
        match mantissa.dropWhile (· ≠ '.') with
        | [] => some []
        | _ :: places => ungrouped? Char.isDigit places
      guard (mantissa.length < text.length || places ≠ [])
      let magnitude := scaled (whole ++ places) (exponent - places.length)
      guard (negative || !magnitude.isInf)
      some magnitude
  return if negative then -magnitude else magnitude

/-- What text without quotation marks stands for. Truth values come first, then whole numbers, and
what is neither may be a float. -/
def scalar? (text : List Char) : Option Item :=
  if text = ['t', 'r', 'u', 'e'] then some (.bool true)
  else if text = ['f', 'a', 'l', 's', 'e'] then some (.bool false)
  else
    match integer? text with
    | some n => some (.integer n)
    | none => (float? text).map .float

end Stencil.Document
