import Stencil.Number.Scaled
import Stencil.Value.Basic

/-!
# Tokens of JSON text

JSON text falls into brackets, commas, colons and scalars, with blanks between them. A
number that is written as an integer and fits into 64 bits is a whole number, every other
number is a float; so is minus zero.
-/

namespace Stencil.JsonText

/-- A token of JSON text. Blanks are between tokens and are none themselves. -/
inductive Token where
  | leftBracket | rightBracket | leftBrace | rightBrace | comma | colon
  /-- A value without parts. -/
  | scalar (value : Value)

/-- The blanks of JSON. There are four of them, and no others may stand between tokens. -/
def isSpace (c : Char) : Bool := c == ' ' || c == '\t' || c == '\n' || c == '\r'

/-- The value of a hexadecimal digit, in lower or in upper case. -/
def hexDigit? (c : Char) : Option Nat :=
  if c.isDigit then some (c.toNat - '0'.toNat)
  else if 'a' ≤ c ∧ c ≤ 'f' then some (c.toNat - 'a'.toNat + 10)
  else if 'A' ≤ c ∧ c ≤ 'F' then some (c.toNat - 'A'.toNat + 10)
  else none

/-- The number that four hexadecimal digits stand for. It is a character, or one half of one. -/
def hex4? (a b c d : Char) : Option Nat := do
  return (((← hexDigit? a) * 16 + (← hexDigit? b)) * 16 + (← hexDigit? c)) * 16 + (← hexDigit? d)

/-- What a letter behind a backslash stands for. Characters that are given by their numbers are read
apart from these. -/
def escape? : Char → Option Char
  | '"' => some '"'
  | '\\' => some '\\'
  | '/' => some '/'
  | 'b' => some '\x08'
  | 'f' => some '\x0c'
  | 'n' => some '\n'
  | 'r' => some '\r'
  | 't' => some '\t'
  | _ => none

/-- The text up to the closing quotation mark, and the number of characters through it. A
character beyond the first plane may be written as two surrogates, which must stand
together. -/
def quoted : List Char → Option (List Char × Nat)
  | [] => none
  | '"' :: _ => some ([], 1)
  | '\\' :: 'u' :: a :: b :: c :: d :: rest =>
    match hex4? a b c d with
    | none => none
    | some code =>
      if 0xD800 ≤ code ∧ code < 0xDC00 then
        match rest with
        | '\\' :: 'u' :: e :: f :: g :: h :: behind =>
          match hex4? e f g h with
          | none => none
          | some low =>
            if 0xDC00 ≤ low ∧ low < 0xE000 then
              (quoted behind).map fun (text, more) =>
                (Char.ofNat (0x10000 + (code - 0xD800) * 0x400 + (low - 0xDC00)) :: text, more + 12)
            else none
        | _ => none
      else if 0xDC00 ≤ code ∧ code < 0xE000 then none
      else (quoted rest).map fun (text, more) => (Char.ofNat code :: text, more + 6)
  | '\\' :: c :: rest =>
    match escape? c with
    | none => none
    | some character => (quoted rest).map fun (text, more) => (character :: text, more + 2)
  | c :: rest =>
    if c.toNat < 0x20 ∨ c = '\\' then none
    else (quoted rest).map fun (text, more) => (c :: text, more + 1)

/-- The digits behind a point, of which there must be one, and the number of characters. -/
def places? : List Char → Option (List Char × Nat)
  | '.' :: rest =>
    let digits := rest.takeWhile Char.isDigit
    if digits.isEmpty then none else some (digits, digits.length + 1)
  | _ => some ([], 0)

/-- An exponent with its sign and the number of characters. Without the letter there is none, which
is the exponent zero of no characters; with the letter there have to be digits. -/
def exponent? : List Char → Option (Int × Nat)
  | c :: rest =>
    if c = 'e' ∨ c = 'E' then
      let (negative, signed, behind) :=
        match rest with
        | '+' :: behind => (false, 1, behind)
        | '-' :: behind => (true, 1, behind)
        | behind => (false, 0, behind)
      let digits := behind.takeWhile Char.isDigit
      if digits.isEmpty then none
      else
        let n : Int := Nat.ofDigitChars 10 digits 0
        some (if negative then -n else n, 1 + signed + digits.length)
    else some (0, 0)
  | [] => some (0, 0)

/-- A number that is written without a point and without an exponent. One that does not fit into 64
bits is a float, and so is a zero with a minus sign. -/
def integer? (negative : Bool) (digits : List Char) : Option Value :=
  let n := Nat.ofDigitChars 10 digits 0
  let signed : Int := if negative then -n else n
  match if negative && n == 0 then none else Number.whole? signed with
  | some fits => some (.int fits)
  | none =>
    (Number.ofDigits? digits [] 0).map fun x => .float (if negative then -x else x)

/-- The number at the front of text without its sign, and the number of characters. No
zero stands before another digit. -/
def unsigned? (negative : Bool) (text : List Char) : Option (Value × Nat) := do
  let digits := text.takeWhile Char.isDigit
  guard (!digits.isEmpty && (digits.head? != some '0' || digits.length == 1))
  let (places, pointed) ← places? (text.drop digits.length)
  let (exponent, powered) ← exponent? (text.drop (digits.length + pointed))
  let width := digits.length + pointed + powered
  if pointed = 0 ∧ powered = 0 then return (← integer? negative digits, width)
  else
    let x ← Number.ofDigits? digits places exponent
    return (.float (if negative then -x else x), width)

/-- The value of a word. There are three words, and letters in upper case make others. -/
def word? : List Char → Option Value
  | ['t', 'r', 'u', 'e'] => some (.bool true)
  | ['f', 'a', 'l', 's', 'e'] => some (.bool false)
  | ['n', 'u', 'l', 'l'] => some .none
  | _ => none

/-- The token that starts with a character that is not a blank, and the number of its further
characters. A number may have a minus sign in front and no plus sign. -/
def token? (c : Char) (rest : List Char) : Option (Token × Nat) :=
  match c with
  | '[' => some (.leftBracket, 0)
  | ']' => some (.rightBracket, 0)
  | '{' => some (.leftBrace, 0)
  | '}' => some (.rightBrace, 0)
  | ',' => some (.comma, 0)
  | ':' => some (.colon, 0)
  | '"' => (quoted rest).map fun (text, more) => (.scalar (.text (String.ofList text)), more)
  | '-' => (unsigned? true rest).map fun (number, more) => (.scalar number, more)
  | c =>
    if c.isDigit then
      (unsigned? false (c :: rest)).map fun (number, width) => (.scalar number, width - 1)
    else
      let tail := rest.takeWhile Char.isAlpha
      (word? (c :: tail)).map fun value => (.scalar value, tail.length)

/-- The tokens of JSON text. A character that no token starts with makes all of it unreadable. -/
def tokens? : List Char → Option (List Token)
  | [] => some []
  | c :: rest =>
    if isSpace c then tokens? rest
    else
      match token? c rest with
      | none => none
      | some (token, more) => (tokens? (rest.drop more)).map (token :: ·)
termination_by text => text.length
decreasing_by all_goals simp only [List.length_drop, List.length_cons]; omega

end Stencil.JsonText
