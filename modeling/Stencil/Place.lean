/-!
# Places in a source

A place is between two characters of a source. It is known by the number of UTF-8 bytes
before it and, for readers, by line and column. Lines are ended by the line feed alone,
and columns count characters; both start at one.
-/

namespace Stencil

/-- A place in a source. Line and column can be computed from the text in front, and are kept along
so that no message has to go through the source again. -/
structure Place where
  /-- UTF-8 bytes before the place. -/
  offset : Nat
  line : Nat
  column : Nat
deriving DecidableEq, Repr

namespace Place

/-- The beginning of every source. Bytes are counted from zero, lines and columns from one. -/
def first : Place := ⟨0, 1, 1⟩

/-- The place behind one character. A line feed begins a line, and every other character is one
column, whatever its bytes. -/
def after (place : Place) (c : Char) : Place :=
  if c = '\n' then ⟨place.offset + c.utf8Size, place.line + 1, 1⟩
  else ⟨place.offset + c.utf8Size, place.line, place.column + 1⟩

/-- The place behind a text. It goes on character by character, so it does not depend on how the
text is cut. -/
def past (place : Place) (text : List Char) : Place := text.foldl after place

/-- The characters of a text whose bytes lie from `start` up to `stop`, where `offset`
bytes precede the text. -/
def between (start stop : Nat) : Nat → List Char → List Char
  | _, [] => []
  | offset, c :: rest =>
    if stop ≤ offset then []
    else if offset < start then between start stop (offset + c.utf8Size) rest
    else c :: between start stop (offset + c.utf8Size) rest

/-- Nothing leads nowhere else. -/
@[simp] theorem past_nil (place : Place) : place.past [] = place := rfl

/-- Going past two texts is going past the one and then past the other. -/
theorem past_append (place : Place) (before behind : List Char) :
    place.past (before ++ behind) = (place.past before).past behind :=
  List.foldl_append

end Place

end Stencil
