import Stencil.Place
import Stencil.Token.Wanted

/-!
# Malformed sources

A source that is not a template is refused at one place and for one reason.
-/

namespace Stencil

namespace Malformed

/-- The constructs that have an end of their own. A source that ends inside of one is refused, with
the place where it was opened. -/
inductive Construct where
  | loop | choice | block
deriving DecidableEq, Repr

/-- How messages name a construct. It is mostly the word that opens it. -/
def Construct.describe : Construct → String
  | .loop => "for loop"
  | .choice => "if"
  | .block => "block"

/-- Why a source is refused. Each reason keeps what its message tells besides the place. -/
inductive Reason where
  /-- The source cannot be read to its end. -/
  | fault (f : Token.Fault)
  /-- A token stands where another one is wanted. -/
  | expected (wanted : Token.Wanted) (found : Token.Kind)
  /-- A tag ends or continues a construct, but none is open. -/
  | stray (found : Token.Kind)
  /-- A construct, opened at the given line and column, has no end. -/
  | unterminated (construct : Construct) (line column : Nat)
  /-- The tokens end inside a tag. -/
  | unfinishedTag
  | duplicateBlock (name : String)
  /-- The end of a block gives another name than its beginning. -/
  | mismatchedEnd (closing name : String)
  /-- A reference leads above the root. -/
  | escapesRoot (target : String)
  | secondParent
  /-- The parent is named elsewhere than at the beginning. -/
  | lateParent
deriving DecidableEq

/-- The wording of a reason. Tokens are told by their kinds, and names are put in quotation
marks. -/
def Reason.message : Reason → String
  | .fault f => f.message
  | .expected wanted found => "expected " ++ wanted.describe ++ ", found " ++ found.describe
  | .stray found => "unexpected " ++ found.describe
  | .unterminated construct line column =>
    "unterminated " ++ construct.describe ++ " opened at " ++ line.repr ++ ":" ++ column.repr
  | .unfinishedTag => "unexpected end of template inside tag"
  | .duplicateBlock name => "block '" ++ name ++ "' defined twice"
  | .mismatchedEnd closing name =>
    "endblock '" ++ closing ++ "' does not match block '" ++ name ++ "'"
  | .escapesRoot target => "template path '" ++ target ++ "' escapes the template root"
  | .secondParent => "template may only extend one parent"
  | .lateParent => "'extends' must be the first statement of the template"

/-- The reason to refuse a token that does not fit. A fault speaks for itself, and every other token
is named together with what was wanted. -/
def Reason.unfit (wanted : Token.Wanted) : Token.Kind → Reason
  | .fault f => .fault f
  | found => .expected wanted found

end Malformed

/-- A refusal, with the place in the source that it is about. A source is refused for one reason,
the first one that is come to. -/
structure Malformed where
  reason : Malformed.Reason
  line : Nat
  column : Nat
deriving DecidableEq

namespace Malformed

/-- A refusal at a token, which is about the line and the column where the token starts. -/
def atToken (token : Token) (reason : Reason) : Malformed :=
  ⟨reason, token.start.line, token.start.column⟩

/-- The wording of a refusal. The place is told by line and column, both counted from one. -/
def message (m : Malformed) : String :=
  "syntax error at " ++ m.line.repr ++ ":" ++ m.column.repr ++ ": " ++ m.reason.message

end Malformed

end Stencil
