import Stencil.Token.Basic

/-!
# What a token was wanted for

When a token does not fit, the complaint names what would have fitted instead.
-/

namespace Stencil.Token

/-- What would have fitted. Where several tokens would have, it is the class of them that a reader
would name. -/
inductive Wanted where
  /-- One certain token. -/
  | token (kind : Kind)
  /-- A comma or the sign that ends the list. -/
  | separator (closing : Sign)
  | content
  | statement
  | loopVariable
  | blockName
  | templateName
  | expression
  | number
  | attribute
  | filter
deriving DecidableEq

/-- How messages name it, as the part of a sentence behind the word `expected`. What is wanted is
told by its role, unless it is one token alone. -/
def Wanted.describe : Wanted → String
  | .token kind => kind.describe
  | .separator closing => "',' or '" ++ closing.spelling ++ "'"
  | .content => "text or tag"
  | .statement => "statement keyword"
  | .loopVariable => "loop variable name"
  | .blockName => "block name"
  | .templateName => "quoted template name"
  | .expression => "expression"
  | .number => "number after '-'"
  | .attribute => "attribute name after '.'"
  | .filter => "filter name"

end Stencil.Token
