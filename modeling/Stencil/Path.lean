/-!
# Paths

A path is a text whose segments stand between slashes. Splitting and joining are exact:
a text has as many segments as slashes and one more, and joined again they are the text.
-/

namespace Stencil.Path

/-- The text between two slashes. It may be empty, where a slash comes first or last or next to
another one. -/
abbrev Segment := List Char

/-- The segments of a text, empty ones included, so that there is one more of them than there are
slashes. -/
def split : List Char → List Segment
  | [] => [[]]
  | c :: rest =>
    if c = '/' then [] :: split rest
    else
      match split rest with
      | [] => [[c]]
      | segment :: others => (c :: segment) :: others

/-- The text with the segments between slashes. Splitting undoes it, if there is a segment and none
has a slash in it. -/
def join : List Segment → List Char
  | [] => []
  | [segment] => segment
  | segment :: rest => segment ++ '/' :: join rest

/-- There is at least one segment, if an empty one: a text without a slash is a segment itself. So
the first segment can be taken off without a case for none. -/
theorem split_ne_nil (text : List Char) : split text ≠ [] := by
  cases text with
  | nil => simp [split]
  | cons c rest =>
    unfold split
    split
    · simp
    · split <;> simp

/-- Segments joined again give the text that was split, so nothing but slashes is taken out. The
induction is on the text; there is always a first segment, if only an empty one, which a character
is put in front of. -/
theorem join_split (text : List Char) : join (split text) = text := by
  induction text with
  | nil => rfl
  | cons c rest inductionHypothesis =>
    unfold split
    split
    · next slash =>
      cases parts : split rest with
      | nil => exact absurd parts (split_ne_nil rest)
      | cons segment others =>
        rw [parts] at inductionHypothesis
        simp [join, inductionHypothesis, slash]
    · cases parts : split rest with
      | nil => exact absurd parts (split_ne_nil rest)
      | cons segment others =>
        rw [parts] at inductionHypothesis
        cases others with
        | nil => simpa [join] using inductionHypothesis
        | cons => simpa [join] using inductionHypothesis

end Stencil.Path
