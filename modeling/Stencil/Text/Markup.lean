/-!
# Markup

Text that is put into markup has its five special characters replaced by entities,
each character on its own, so that a reader of the markup gets the text back.
-/

namespace Stencil.Text.Markup

/-- What stands in markup for one character of text: an entity for the five special ones, and every
other character for itself. -/
def escapeChar (c : Char) : List Char :=
  match c with
  | '&' => ['&', 'a', 'm', 'p', ';']
  | '<' => ['&', 'l', 't', ';']
  | '>' => ['&', 'g', 't', ';']
  | '"' => ['&', 'q', 'u', 'o', 't', ';']
  | '\'' => ['&', '#', '3', '9', ';']
  | c => [c]

/-- The text as markup that shows it, character by character, so that the markup of texts put
together is their markup put together. -/
def escape (text : String) : String := String.ofList (text.toList.flatMap escapeChar)

end Stencil.Text.Markup
