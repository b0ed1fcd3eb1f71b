import Stencil.Expr.Basic
import Stencil.Template.Malformed
import Stencil.Value.Basic

/-!
# Faults

What can go wrong once templates are put to use, as causes; the wording of each is given
here and nowhere else.
-/

namespace Stencil

/-- A value of a kind that does not do where it stands. The expression is kept where a message shows
it, and else the kinds of the values alone, so that no message has a value in it. -/
inductive Mistyped where
  /-- A sequence or a mapping as text. -/
  | notText (kind : Value.Kind) (e : Expr)
  /-- A loop over something else than a sequence. -/
  | notSequence (kind : Value.Kind) (e : Expr)
  /-- A part by name of a value without named parts. -/
  | noAttributes (name : String) (kind : Value.Kind) (of : Expr)
  | sequenceKey (of : Expr) (key : Value.Kind)
  | mappingKey (of : Expr) (key : Value.Kind)
  /-- A part by key of a value without parts. -/
  | noParts (kind : Value.Kind) (of : Expr)
  /-- A sum of whole numbers that has more than 64 bits. -/
  | overflow
  | notAddable (left right : Value.Kind)
  | unknownFilter (name : String)
  | argumentCount (filter : String) (expected found : Nat)
  | noLength (kind : Value.Kind)
  /-- Variables for a rendering that are not named. -/
  | notVariables (kind : Value.Kind)

/-- The wording. Kinds are named by their words and expressions as they would be written, in single
quotation marks. -/
def Mistyped.message : Mistyped → String
  | .notText kind e => "cannot render " ++ kind.word ++ " '" ++ e.describe ++ "' as text"
  | .notSequence kind e => "cannot iterate over " ++ kind.word ++ " '" ++ e.describe ++ "'"
  | .noAttributes name kind of =>
    "cannot read attribute '" ++ name ++ "' of " ++ kind.word ++ " '" ++ of.describe ++ "'"
  | .sequenceKey of key => "sequence '" ++ of.describe ++ "' cannot be indexed by " ++ key.word
  | .mappingKey of key => "mapping '" ++ of.describe ++ "' cannot be indexed by " ++ key.word
  | .noParts kind of => "cannot index " ++ kind.word ++ " '" ++ of.describe ++ "'"
  | .overflow => "integer overflow in '+'"
  | .notAddable left right => "cannot add " ++ left.word ++ " and " ++ right.word
  | .unknownFilter name => "unknown filter '" ++ name ++ "'"
  | .argumentCount filter expected found =>
    "filter '" ++ filter ++ "' takes " ++ expected.repr ++ " argument(s), got " ++ found.repr
  | .noLength kind => kind.word ++ " has no length"
  | .notVariables kind => "render variables must serialize to a mapping, got " ++ kind.word

/-- Why a request was not answered. Every cause keeps what its message needs and nothing more. A
rendering that fails gives no text at all. -/
inductive Fault where
  | malformed (refusal : Malformed)
  | notFound (name : String)
  /-- A chain of templates that comes back to itself or is longer than allowed. -/
  | cycle (chain : List String)
  | mistyped (cause : Mistyped)
  /-- A provider of variables failed. -/
  | provider (name cause : String)
  /-- Data with a mapping whose keys are not text. -/
  | keyNotText

/-- The wording. A chain is told from its first template to its last one. -/
def Fault.message : Fault → String
  | .malformed refusal => refusal.message
  | .notFound name => "template not found: " ++ name
  | .cycle chain => "template chain too deep or cyclic: " ++ String.intercalate " -> " chain
  | .mistyped cause => "type error: " ++ cause.message
  | .provider name cause => "context provider '" ++ name ++ "' failed: " ++ cause
  | .keyNotText => "serialization error: key must be a string"

end Stencil
