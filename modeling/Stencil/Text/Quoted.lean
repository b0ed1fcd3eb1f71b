import Stencil.Text.Printable

/-!
# Quoted text

A text as messages show it: between quotation marks, on one line, with nothing in it
that a reader could not see. A quotation mark and a backslash get a backslash before
them, the common controls have a letter, and any other character that is not plain is
written by its number in hexadecimal digits between braces.
-/

namespace Stencil.Text.Quoted

/-- The number of a character in lower-case hexadecimal digits, without zeros in front. -/
def hexadecimal (c : Char) : List Char := Nat.toDigits 16 c.toNat

/-- How one character stands between quotation marks. The cases with a letter come before the
general one, so that the common controls are not written by number. -/
def encodeChar (c : Char) : List Char :=
  match c with
  | '"' => ['\\', '"']
  | '\\' => ['\\', '\\']
  | '\n' => ['\\', 'n']
  | '\r' => ['\\', 'r']
  | '\t' => ['\\', 't']
  | '\x00' => ['\\', '0']
  | c => if isPlain c then [c] else ['\\', 'u', '{'] ++ hexadecimal c ++ ['}']

/-- The whole text between quotation marks. What cannot be shown is written by its number. -/
def encode (text : String) : String :=
  String.ofList ('"' :: text.toList.flatMap encodeChar ++ ['"'])

end Stencil.Text.Quoted
