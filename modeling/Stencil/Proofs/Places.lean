import Mathlib.Data.List.Induction
import Stencil.Token.Basic

/-!
# Laws of places

The place behind a text is told by the text alone, without going through it character by character:
the offset is the number of its bytes, the line is one more than its line feeds, and the column is
one more than the characters behind the last of them. Two places in one source differ in line or
column, and the part of a source between two offsets is the text that lies between them.
-/

namespace Stencil

namespace Place

/-- The UTF-8 bytes of a text. Offsets are counted in these, and columns in characters, so the two
part at the first character that takes more than one byte. -/
def bytes (text : List Char) : Nat := (String.ofList text).utf8ByteSize

/-- The place behind a text that a source begins with, told by the text as a whole: its bytes, its
line ends, and what it has behind the last of them. -/
def behind (text : List Char) : Place :=
  ⟨bytes text, 1 + text.count '\n', 1 + (text.reverse.takeWhile (· != '\n')).length⟩

/-- No text has no bytes. -/
@[simp] theorem bytes_nil : bytes [] = 0 := rfl

/-- Each character has its own number of bytes. -/
@[simp] theorem bytes_cons (c : Char) (rest : List Char) :
    bytes (c :: rest) = c.utf8Size + bytes rest := by
  rw [bytes, String.ofList_cons, String.utf8ByteSize_append, String.utf8ByteSize_singleton]
  rfl

/-- The bytes of two texts are added up. -/
@[simp] theorem bytes_append (first second : List Char) :
    bytes (first ++ second) = bytes first + bytes second := by
  rw [bytes, String.ofList_append, String.utf8ByteSize_append]
  rfl

/-- The characters of a source have the bytes of the source. -/
theorem bytes_toList (source : String) : bytes source.toList = source.utf8ByteSize := by
  rw [bytes, String.ofList_toList]

/-- Going through a text from the beginning of a source leads to the place behind it. The induction
adds the last character, since it is the last one that decides about the column. -/
theorem past_first (text : List Char) : first.past text = behind text := by
  induction text using List.reverseRecOn with
  | nil => rfl
  | append_singleton text c inductionHypothesis =>
    rw [past_append, inductionHypothesis]
    show (behind text).after c = _
    by_cases feed : c = '\n'
    · simp [after, behind, feed, Nat.add_assoc]
    · simp [after, behind, feed, List.count_append, Nat.add_comm]

/-- The bytes of a text are those between the places in front of it and behind it. Lines and columns
are left out here, which is what an induction on the text needs. -/
theorem offset_past (place : Place) (text : List Char) :
    (place.past text).offset = place.offset + bytes text := by
  induction text generalizing place with
  | nil => rfl
  | cons c rest inductionHypothesis =>
    have here : (place.after c).offset = place.offset + c.utf8Size := by
      unfold after
      split <;> rfl
    have behind : place.past (c :: rest) = (place.after c).past rest := rfl
    rw [behind, inductionHypothesis, here, bytes_cons, Nat.add_assoc]

/-- A place comes before another one for a reader: on a line above, or on the same line and in a
column further left. -/
def Before (place later : Place) : Prop :=
  place.line < later.line ∨ place.line = later.line ∧ place.column < later.column

/-- More text leads to a later place: it has a line feed in it, or else the column grows. Columns
are counted from the last line feed, so a text without one adds all its characters. -/
theorem behind_before (before : List Char) {text : List Char} (nonempty : text ≠ []) :
    (behind before).Before (behind (before ++ text)) := by
  simp only [Before, behind, List.count_append, List.reverse_append]
  by_cases feed : '\n' ∈ text
  · have counted : 0 < text.count '\n' := List.count_pos_iff.mpr feed
    exact Or.inl (by omega)
  · have none : text.count '\n' = 0 := List.count_eq_zero.mpr feed
    have straight : ∀ c ∈ text.reverse, (c != '\n') = true := by
      intro c member
      rw [bne_iff_ne]
      rintro rfl
      exact feed (List.mem_reverse.mp member)
    have longer : 0 < text.length := List.length_pos_iff.mpr nonempty
    refine Or.inr ⟨by omega, ?_⟩
    rw [List.takeWhile_append_of_pos straight, List.length_append, List.length_reverse]
    omega

/-- What lies before the first offset is passed over. The induction is on it, and the two offsets
stay where they are. -/
theorem between_behind (before source : List Char) {offset stop : Nat}
    (inside : offset + bytes before ≤ stop) :
    between (offset + bytes before) stop offset (before ++ source) =
      between (offset + bytes before) stop (offset + bytes before) source := by
  induction before generalizing offset with
  | nil => rfl
  | cons c rest inductionHypothesis =>
    have positive : 0 < c.utf8Size := c.utf8Size_pos
    rw [bytes_cons, ← Nat.add_assoc] at inside ⊢
    rw [List.cons_append, between, if_neg (by omega), if_pos (by omega)]
    exact inductionHypothesis inside

/-- What lies before the second offset is taken, and nothing behind it, since there the offset is
reached. -/
theorem between_text (text source : List Char) {start offset : Nat} (reached : start ≤ offset) :
    between start (offset + bytes text) offset (text ++ source) = text := by
  induction text generalizing offset with
  | nil => cases source <;> simp [between]
  | cons c rest inductionHypothesis =>
    have positive : 0 < c.utf8Size := c.utf8Size_pos
    rw [bytes_cons, ← Nat.add_assoc, List.cons_append, between, if_neg (by omega),
      if_neg (by omega), inductionHypothesis (by omega)]

/-- The part of a source between the offsets in front of and behind a text is the text. So a token
can be cut out of its source by its offsets alone. -/
theorem between_eq (before text source : List Char) :
    between (bytes before) (bytes (before ++ text)) 0 (before ++ text ++ source) = text := by
  have inside : 0 + bytes before ≤ bytes before + bytes text := by omega
  have skipped := between_behind before (text ++ source) inside
  rw [Nat.zero_add] at skipped
  rw [bytes_append, List.append_assoc, skipped]
  exact between_text text source (Nat.le_refl _)

end Place

/-- A token covers a text of a source if it starts and stops where the text does. The text is given
with what stands before it, from which its place follows. -/
structure Token.Covers (token : Token) (before text : List Char) : Prop where
  start : token.start = Place.behind before
  stop : token.stop = Place.bytes (before ++ text)

/-- What a token covers is its part of the source, whatever stands in front and behind. -/
theorem Token.Covers.raw {token : Token} {before text rest : List Char} {source : String}
    (covers : token.Covers before text) (parts : source.toList = before ++ text ++ rest) :
    token.raw source = String.ofList text := by
  rw [Token.raw, covers.start, covers.stop, parts]
  exact congrArg String.ofList (Place.between_eq before text rest)

end Stencil
