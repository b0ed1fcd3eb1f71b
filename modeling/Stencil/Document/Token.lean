/-!
# Tokens of documents

A document falls into line ends, blanks, comments, signs, quoted texts and bare text. A
quoted text may run over several lines between three quotation marks.
-/

namespace Stencil.Document

/-- A token of a document. A comment is one token without its line end, and so is a run of bare
text. -/
inductive Token where
  | lineEnd | space | comment
  | equals | dot | comma | leftBracket | rightBracket | leftBrace | rightBrace
  /-- A quoted text, and whether it may run over several lines. -/
  | text (s : String) (multiline : Bool)
  /-- A run of the characters that keys and scalars are made of. -/
  | bare (s : List Char)
deriving DecidableEq

/-- The characters of bare text. They are those of keys, and the plus sign of numbers; dots are
tokens of their own. -/
def isBare (c : Char) : Bool := c.isAlphanum || c == '_' || c == '-' || c == '+'

/-- The characters that may stand as they are in comments and quoted texts on one line. The control
characters of ASCII may not, but for the tab. -/
def isPlain (c : Char) : Bool := c == '\t' || (0x20 ≤ c.toNat && c.toNat ≠ 0x7F)

/-- The character with the number that hexadecimal digits give. A number that no character has gives
none. -/
def numbered? (digits : List Char) : Option Char := do
  guard (digits.all fun c => c.isDigit || ('a' ≤ c && c ≤ 'f') || ('A' ≤ c && c ≤ 'F'))
  let code := digits.foldl (fun n c =>
    n * 16 + (if c.isDigit then c.toNat - '0'.toNat else c.toLower.toNat - 'a'.toNat + 10)) 0
  guard code.isValidChar
  return Char.ofNat code

/-- What a backslash and the characters behind it stand for, and how many those are. A character may
be given by four or eight digits. -/
def escape? : List Char → Option (Char × Nat)
  | 'b' :: _ => some ('\x08', 1)
  | 't' :: _ => some ('\t', 1)
  | 'n' :: _ => some ('\n', 1)
  | 'f' :: _ => some ('\x0c', 1)
  | 'r' :: _ => some ('\r', 1)
  | '"' :: _ => some ('"', 1)
  | '\\' :: _ => some ('\\', 1)
  | 'u' :: rest =>
    if rest.length < 4 then none else (numbered? (rest.take 4)).map fun c => (c, 5)
  | 'U' :: rest =>
    if rest.length < 8 then none else (numbered? (rest.take 8)).map fun c => (c, 9)
  | _ => none

/-- A line end at the front, by its length. A carriage return alone is none. -/
def lineEnd? : List Char → Option Nat
  | '\n' :: _ => some 1
  | '\r' :: '\n' :: _ => some 2
  | _ => none

/-- The number of characters in blanks and line ends at the front. They are passed over behind a
backslash at the end of a line. -/
def spacing : List Char → Nat
  | '\r' :: '\n' :: rest => spacing rest + 2
  | c :: rest => if c == ' ' || c == '\t' || c == '\n' then spacing rest + 1 else 0
  | [] => 0

/-- The number of blanks and line ends behind a backslash, if the backslash is the last of
its line. -/
def continuation? (text : List Char) : Option Nat :=
  let blanks := text.takeWhile fun c => c == ' ' || c == '\t'
  (lineEnd? (text.drop blanks.length)).map fun _ => spacing text

/-- How a quoted text is written: between which marks, and whether three of them stand on each
side. -/
structure Quotation where
  mark : Char
  multiline : Bool

/-- Whether backslashes stand for something else. Between single marks they are characters like all
others. -/
def Quotation.escapes (q : Quotation) : Bool := q.mark == '"'

/-- Whether the end of the quotation is at the front. Of four or five marks the last three
are the end, and the others belong to the text. -/
def Quotation.ends (q : Quotation) (text : List Char) : Bool :=
  let marks := (text.takeWhile (· == q.mark)).length
  if q.multiline then marks == 3 || 6 ≤ marks else 1 ≤ marks

/-- The characters of a quoted text up to its end, and the number of characters through the end. An
escape gives one character for several, and in a text over several lines a line end is one
character, however it is written. -/
def quoted (q : Quotation) (text : List Char) : Option (List Char × Nat) :=
  match text with
  | [] => none
  | c :: rest =>
    if q.ends (c :: rest) then some ([], if q.multiline then 3 else 1)
    else if q.escapes && c == '\\' then
      match if q.multiline then continuation? rest else none with
      | some skipped =>
        (quoted q (rest.drop skipped)).map fun (text, more) => (text, more + skipped + 1)
      | none =>
        match escape? rest with
        | none => none
        | some (character, width) =>
          (quoted q (rest.drop width)).map fun (text, more) => (character :: text, more + width + 1)
    else
      match if q.multiline then lineEnd? (c :: rest) else none with
      | some width =>
        (quoted q (rest.drop (width - 1))).map fun (text, more) => ('\n' :: text, more + width)
      | none =>
        if isPlain c then (quoted q rest).map fun (text, more) => (c :: text, more + 1) else none
termination_by text.length
decreasing_by all_goals simp only [List.length_drop, List.length_cons]; omega

/-- The quoted text that starts with a mark, and the number of its further characters. A
line end right behind three marks does not belong to the text. -/
def quotedToken? (mark : Char) (rest : List Char) : Option (Token × Nat) :=
  if rest.take 2 = [mark, mark] then
    let skipped := (lineEnd? (rest.drop 2)).getD 0
    (quoted ⟨mark, true⟩ (rest.drop (2 + skipped))).map fun (text, more) =>
      (.text (String.ofList text) true, 2 + skipped + more)
  else
    (quoted ⟨mark, false⟩ rest).map fun (text, more) => (.text (String.ofList text) false, more)

/-- The token that starts with a character, and the number of its further characters. Line ends,
blanks and comments are tokens here, because lines count in a document. What is no sign and no
quotation is bare text, if it may stand in a document. -/
def token? (c : Char) (rest : List Char) : Option (Token × Nat) :=
  match c, rest with
  | '\n', _ => some (.lineEnd, 0)
  | '\r', '\n' :: _ => some (.lineEnd, 1)
  | ' ', _ | '\t', _ => some (.space, 0)
  | '#', rest => some (.comment, (rest.takeWhile isPlain).length)
  | '=', _ => some (.equals, 0)
  | '.', _ => some (.dot, 0)
  | ',', _ => some (.comma, 0)
  | '[', _ => some (.leftBracket, 0)
  | ']', _ => some (.rightBracket, 0)
  | '{', _ => some (.leftBrace, 0)
  | '}', _ => some (.rightBrace, 0)
  | '"', rest => quotedToken? '"' rest
  | '\'', rest => quotedToken? '\'' rest
  | c, rest =>
    if isBare c then
      let tail := rest.takeWhile isBare
      some (.bare (c :: tail), tail.length)
    else none

/-- The tokens of a document. A character that no token starts with makes all of it unreadable. -/
def tokens? : List Char → Option (List Token)
  | [] => some []
  | c :: rest =>
    match token? c rest with
    | none => none
    | some (token, more) => (tokens? (rest.drop more)).map (token :: ·)
termination_by text => text.length
decreasing_by simp only [List.length_drop, List.length_cons]; omega

end Stencil.Document
