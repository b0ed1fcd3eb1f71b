import Stencil.Number.FloatText
import Stencil.Number.Whole
import Stencil.Place
import Stencil.Text.Quoted

/-!
# Tokens

The kinds of token that a template source is made of, and their names in messages. A
source that cannot be read to its end has one token more, a fault, which stands for all
that is left and says what is wrong with it.
-/

namespace Stencil

/-- The two kinds of tag. Each has marks of its own, and neither is ended by those of the other. -/
inductive Tag where
  /-- Puts the value of an expression out. -/
  | output
  | statement
deriving DecidableEq, Repr

/-- How a tag begins. Its two characters are together one token. -/
def Tag.opener : Tag → String
  | .output => "\x7b\x7b"
  | .statement => "\x7b%"

/-- How a tag ends. Its two characters are together one token. -/
def Tag.closer : Tag → String
  | .output => "\x7d\x7d"
  | .statement => "%\x7d"

/-- The reserved words. None of them can be the name of a variable, of a part or of a filter. -/
inductive Keyword where
  | if | elif | else | endif | for | in | endfor | block | endblock | extends | include
  | and | or | not | true | false | none
deriving DecidableEq, Repr

namespace Keyword

/-- The word itself. Words are compared letter by letter, and none has a letter in upper case. -/
def word : Keyword → String
  | .if => "if"
  | .elif => "elif"
  | .else => "else"
  | .endif => "endif"
  | .for => "for"
  | .in => "in"
  | .endfor => "endfor"
  | .block => "block"
  | .endblock => "endblock"
  | .extends => "extends"
  | .include => "include"
  | .and => "and"
  | .or => "or"
  | .not => "not"
  | .true => "true"
  | .false => "false"
  | .none => "none"

/-- The keyword that a word is. The three constants may also be capitalised, and every other word is
a name. -/
def ofWord? : String → Option Keyword
  | "if" => some .if
  | "elif" => some .elif
  | "else" => some .else
  | "endif" => some .endif
  | "for" => some .for
  | "in" => some .in
  | "endfor" => some .endfor
  | "block" => some .block
  | "endblock" => some .endblock
  | "extends" => some .extends
  | "include" => some .include
  | "and" => some .and
  | "or" => some .or
  | "not" => some .not
  | "true" | "True" => some .true
  | "false" | "False" => some .false
  | "none" | "None" => some .none
  | _ => Option.none

/-- Every keyword is read from its word. So no two keywords are written in the same way. -/
theorem ofWord?_word (k : Keyword) : ofWord? k.word = some k := by cases k <;> rfl

end Keyword

/-- The signs that stand between words in a tag. Of the comparisons there are only the two of
equality. -/
inductive Sign where
  | equal | unequal | plus | minus | dot | comma | pipe
  | leftBracket | rightBracket | leftParen | rightParen
deriving DecidableEq, Repr

/-- How a sign is written. The two comparisons have two characters, and all others have one. -/
def Sign.spelling : Sign → String
  | .equal => "=="
  | .unequal => "!="
  | .plus => "+"
  | .minus => "-"
  | .dot => "."
  | .comma => ","
  | .pipe => "|"
  | .leftBracket => "["
  | .rightBracket => "]"
  | .leftParen => "("
  | .rightParen => ")"

namespace Token

/-- Why a source cannot be read to its end. A fault is a token, the last one, so it is refused in
its turn. -/
inductive Fault where
  /-- A comment has no end. -/
  | openComment
  /-- A tag has no end. -/
  | openTag (tag : Tag)
  /-- A text in quotation marks has no end. -/
  | openString
  /-- Digits for a whole number of more than 64 bits. -/
  | tooLarge (digits : String)
  /-- A character that no token in a tag starts with. -/
  | stray (c : Char)
deriving DecidableEq

/-- The wording of a fault. The digits of a number and a stray character are told as they are
written. -/
def Fault.message : Fault → String
  | .openComment => "unterminated comment"
  | .openTag tag => "unexpected end of template, expected '" ++ tag.closer ++ "'"
  | .openString => "unterminated string literal"
  | .tooLarge digits => "integer literal '" ++ digits ++ "' out of range"
  | .stray c => "unexpected character '" ++ String.singleton c ++ "' inside tag"

/-- What a token is. A fault is a token like any other, so that reading refuses it at its place with
all the others. -/
inductive Kind where
  /-- Text outside tags. -/
  | text (s : String)
  | opening (tag : Tag)
  | closing (tag : Tag)
  | keyword (k : Keyword)
  | sign (s : Sign)
  | name (s : String)
  /-- A text in quotation marks, without them and with its escapes read. -/
  | string (s : String)
  | integer (n : Int64)
  | decimal (x : Float)
  | fault (f : Fault)
deriving DecidableEq

namespace Kind

/-- Whether a token is a reserved word. Such a word cannot be a name, not even behind a dot. -/
def isKeyword : Kind → Bool
  | .keyword _ => true
  | _ => false

/-- How messages name a token. Of texts outside tags the content is left out, and numbers are shown
by their value. -/
def describe : Kind → String
  | .text _ => "text"
  | .opening tag => "'" ++ tag.opener ++ "'"
  | .closing tag => "'" ++ tag.closer ++ "'"
  | .keyword k => "'" ++ k.word ++ "'"
  | .sign s => "'" ++ s.spelling ++ "'"
  | .name s => "identifier '" ++ s ++ "'"
  | .string s => "string " ++ Text.Quoted.encode s
  | .integer n => "number " ++ Number.wholeText n
  | .decimal x => "number " ++ Number.plainText x
  | .fault f => f.message

end Kind

end Token

/-- A token, the place where it starts and the offset at which it stops. The line and column of its
end are not kept, since no message needs them. -/
structure Token where
  kind : Token.Kind
  start : Place
  stop : Nat

/-- The part of the source that a token covers, cut out by its two offsets. -/
def Token.raw (token : Token) (source : String) : String :=
  String.ofList (Place.between token.start.offset token.stop 0 source.toList)

end Stencil
