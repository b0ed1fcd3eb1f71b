import Stencil.Text.Ranges

/-!
# Blanks

The code points with the Unicode property White_Space, and a text without the
blanks at its two ends.
-/

namespace Stencil.Text

/-- Code points with the property White_Space. It is those that may stand between tokens in a tag,
and those that trimming takes off. -/
def blank : Ranges :=
  [(0x9, 0xD), (0x20, 0x20), (0x85, 0x85), (0xA0, 0xA0), (0x1680, 0x1680), (0x2000, 0x200A),
    (0x2028, 0x2029), (0x202F, 0x202F), (0x205F, 0x205F), (0x3000, 0x3000)]

/-- A character that separates tokens inside a tag and means nothing by itself. Line ends are among
them. -/
def isBlank (c : Char) : Bool := blank.covers c.toNat

/-- The text from its first to its last character that is not blank. A text of blanks has none, and
nothing is left of it. -/
def trim (text : List Char) : List Char :=
  ((text.dropWhile isBlank).reverse.dropWhile isBlank).reverse

end Stencil.Text
