import Stencil.Proofs.Lookahead
import Stencil.Proofs.Places

/-!
# Boundaries of characters

A source is bytes, and where it is cut there has to be a boundary between two characters. Some scans
go over bytes and know nothing of characters: digits are counted, and markers are searched for. They
look for ASCII characters only. In UTF-8 these are single bytes, and no other character has such a
byte in it, so such a scan stops where a scan over the characters does.
-/

namespace Stencil

namespace Text

open Place (bytes)

/-- The bytes of a text in UTF-8, one character behind the other. It is the list of what the bytes
of a `String` are, in which cutting at an offset can be told by `take` and `drop`. -/
def utf8 (text : List Char) : List UInt8 := text.flatMap String.utf8EncodeChar

/-- No characters are no bytes. -/
@[simp] theorem utf8_nil : utf8 [] = [] := rfl

/-- The bytes of a text are those of its first character and then those of the rest. -/
@[simp] theorem utf8_cons (c : Char) (rest : List Char) :
    utf8 (c :: rest) = String.utf8EncodeChar c ++ utf8 rest := rfl

/-- The bytes of two texts put together are those of the first and then those of the second. -/
@[simp] theorem utf8_append (first second : List Char) :
    utf8 (first ++ second) = utf8 first ++ utf8 second := List.flatMap_append

/-- There are as many bytes as places are counted by. -/
@[simp] theorem length_utf8 (text : List Char) : (utf8 text).length = bytes text := by
  induction text with
  | nil => rfl
  | cons c rest inductionHypothesis =>
    rw [utf8_cons, List.length_append, String.length_utf8EncodeChar, inductionHypothesis,
      Place.bytes_cons]

/-- They are the bytes that the source is stored as, so what is said of them is said of the source
itself. -/
theorem utf8_toList (source : String) : utf8 source.toList = source.toByteArray.data.toList := by
  rw [← String.utf8Encode_toList, List.utf8Encode, List.data_toByteArray, utf8]

/-- An ASCII character is one byte, and any other has no ASCII byte in it. It is read off the four
lengths that an encoding may have: each byte of a longer one has its highest bit set. -/
theorem utf8EncodeChar_cases (c : Char) : ∃ b others, String.utf8EncodeChar c = b :: others ∧
    (b.toNat = c.toNat ∧ c.toNat < 0x80 ∧ others = [] ∨
      0x80 ≤ c.toNat ∧ ∀ d ∈ b :: others, 0x80 ≤ d.toNat) := by
  have bits (value size leader : Nat) (fits : value % size + leader < 0x100)
      (leads : 0x80 ≤ leader) : 0x80 ≤ (UInt8.ofNat (value % size + leader)).toNat := by
    rw [UInt8.toNat_ofNat', Nat.mod_eq_of_lt fits]
    omega
  unfold String.utf8EncodeChar
  simp only
  split
  · next ascii =>
    have small : c.toNat < 0x80 := Nat.lt_succ_of_le ascii
    exact ⟨_, _, rfl, .inl ⟨UInt8.toNat_ofNat_of_lt (Nat.lt_trans small (by decide)), small, rfl⟩⟩
  · next other =>
    have high : 0x80 ≤ c.toNat := Nat.lt_of_not_le other
    split
    · refine ⟨_, _, rfl, .inr ⟨high, ?_⟩⟩
      simp only [List.forall_mem_cons]
      exact ⟨bits _ _ _ (by omega) (by omega), bits _ _ _ (by omega) (by omega), nofun⟩
    · split
      · refine ⟨_, _, rfl, .inr ⟨high, ?_⟩⟩
        simp only [List.forall_mem_cons]
        exact ⟨bits _ _ _ (by omega) (by omega), bits _ _ _ (by omega) (by omega),
          bits _ _ _ (by omega) (by omega), nofun⟩
      · refine ⟨_, _, rfl, .inr ⟨high, ?_⟩⟩
        simp only [List.forall_mem_cons]
        exact ⟨bits _ _ _ (by omega) (by omega), bits _ _ _ (by omega) (by omega),
          bits _ _ _ (by omega) (by omega), bits _ _ _ (by omega) (by omega), nofun⟩

/-- Whether a byte is a digit. -/
def isDigitByte (b : UInt8) : Bool := 0x30 ≤ b.toNat && b.toNat ≤ 0x39

/-- The number of digits that bytes begin with. A digit is a single byte, so this is the number of
characters as well. -/
def digitBytes (left : List UInt8) : Nat := (left.takeWhile isDigitByte).length

/-- The digits are the ten characters from zero to nine, in the order of their codes. -/
theorem isDigit_iff (c : Char) : c.isDigit = true ↔ 0x30 ≤ c.toNat ∧ c.toNat ≤ 0x39 := by
  rw [isDigit_covers]
  simp only [Ranges.covers]
  split
  · simp; omega
  · split <;> simp <;> omega

/-- A digit is one byte, and nothing else is counted for one. The induction is over the text: a
character that is no digit ends both scans, since its first byte is none of the ten. -/
theorem digitBytes_utf8 (text : List Char) :
    digitBytes (utf8 text) = bytes (text.takeWhile Char.isDigit) := by
  induction text with
  | nil => rfl
  | cons c rest inductionHypothesis =>
    obtain ⟨b, others, encoded, read⟩ := utf8EncodeChar_cases c
    have size : c.utf8Size = (b :: others).length := by
      rw [← String.length_utf8EncodeChar, encoded]
    rw [utf8_cons, encoded, digitBytes, List.cons_append]
    by_cases digit : c.isDigit = true
    · obtain ⟨low, high⟩ := (isDigit_iff c).mp digit
      rcases read with ⟨same, -, rfl⟩ | ⟨other, -⟩
      · have counted : isDigitByte b = true := by simp [isDigitByte, same, low, high]
        rw [List.takeWhile_cons_of_pos counted, List.takeWhile_cons_of_pos digit, List.nil_append,
          List.length_cons, Place.bytes_cons, ← inductionHypothesis, size, Nat.add_comm]
        rfl
      · omega
    · have stops : ¬isDigitByte b = true := by
        have apart := mt (isDigit_iff c).mpr digit
        simp only [isDigitByte, Bool.and_eq_true, decide_eq_true_eq]
        rcases read with ⟨same, -, -⟩ | ⟨-, high⟩
        · rwa [same]
        · have := high b List.mem_cons_self
          omega
      rw [List.takeWhile_cons_of_neg stops, List.takeWhile_cons_of_neg digit]
      rfl

/-- The first place where one of some patterns begins. It is stated for any kind of items, so that
one search serves for characters and for bytes. -/
def firstOf? {α : Type} [BEq α] (patterns : List (List α)) : List α → Option Nat
  | [] => none
  | a :: rest =>
    if patterns.any (·.isPrefixOf (a :: rest)) then some 0 else (firstOf? patterns rest).map (· + 1)

/-- There one of them stands. The induction is on the text, and the count goes up by one for each
place where none of them begins. -/
theorem firstOf?_found {α : Type} [BEq α] [LawfulBEq α] {patterns : List (List α)} {text : List α}
    {place : Nat} (found : firstOf? patterns text = some place) :
    ∃ before, ∃ pattern ∈ patterns, ∃ behind, text = before ++ (pattern ++ behind) ∧
      before.length = place := by
  induction text generalizing place with
  | nil => cases found
  | cons a rest inductionHypothesis =>
    rw [firstOf?] at found
    split at found
    · next begins =>
      cases found
      obtain ⟨pattern, member, here⟩ := List.any_eq_true.mp begins
      obtain ⟨behind, parts⟩ := List.isPrefixOf_iff_prefix.mp here
      exact ⟨[], pattern, member, behind, parts.symm, rfl⟩
    · obtain ⟨further, foundFurther, rfl⟩ := Option.map_eq_some_iff.mp found
      obtain ⟨before, pattern, member, behind, parts, length⟩ := inductionHypothesis foundFurther
      exact ⟨a :: before, pattern, member, behind, congrArg (a :: ·) parts,
        congrArg (· + 1) length⟩

/-- Text of ASCII characters only, with at least one. The patterns that a scan looks for are such
texts, and none of their bytes can be a part of a longer character. -/
def IsAscii (text : List Char) : Prop := text ≠ [] ∧ ∀ c ∈ text, c.toNat < 0x80

/-- A text begins with ASCII characters if its bytes begin with theirs. The induction is over the
pattern; a character of the text that is not ASCII has no byte that could be taken for one of the
pattern. -/
theorem isPrefixOf_utf8 {pattern : List Char} (ascii : ∀ c ∈ pattern, c.toNat < 0x80)
    (text : List Char) : (utf8 pattern).isPrefixOf (utf8 text) = pattern.isPrefixOf text := by
  induction pattern generalizing text with
  | nil => simp
  | cons p others inductionHypothesis =>
    obtain ⟨small, behind⟩ := List.forall_mem_cons.mp ascii
    obtain ⟨b, none, encoded, read⟩ := utf8EncodeChar_cases p
    obtain ⟨same, rfl⟩ : b.toNat = p.toNat ∧ none = [] := by
      rcases read with ⟨same, -, none⟩ | ⟨other, -⟩
      · exact ⟨same, none⟩
      · omega
    rw [utf8_cons, encoded, List.singleton_append]
    cases text with
    | nil => rfl
    | cons c rest =>
      obtain ⟨d, more, encoded, read⟩ := utf8EncodeChar_cases c
      rw [utf8_cons, encoded, List.cons_append, List.isPrefixOf_cons_cons,
        List.isPrefixOf_cons_cons]
      rcases read with ⟨alike, -, rfl⟩ | ⟨other, high⟩
      · have equal : (b == d) = (p == c) := by
          rw [Bool.eq_iff_iff, beq_iff_eq, beq_iff_eq, ← UInt8.toNat_inj, same, alike,
            Char.toNat_inj]
        rw [List.nil_append, inductionHypothesis behind, equal]
      -- The first byte of a longer character is high, and that of the pattern is not.
      · have apart : (b == d) = false := by
          rw [beq_eq_false_iff_ne]
          rintro rfl
          have := high b List.mem_cons_self
          omega
        have differ : (p == c) = false := by
          rw [beq_eq_false_iff_ne]
          rintro rfl
          omega
        rw [apart, differ, Bool.false_and, Bool.false_and]

section Search

variable {patterns : List (List Char)} (ascii : ∀ pattern ∈ patterns, IsAscii pattern)

include ascii

/-- No pattern of ASCII characters begins at another byte. That is where the patterns must not be
empty. -/
theorem begins_nowhere {b : UInt8} (high : 0x80 ≤ b.toNat) (left : List UInt8) :
    (patterns.map utf8).any (·.isPrefixOf (b :: left)) = false := by
  simp only [List.any_map, List.any_eq_false, Function.comp_apply]
  intro pattern member
  obtain ⟨filled, each⟩ := ascii pattern member
  obtain ⟨p, others, rfl⟩ := List.exists_cons_of_ne_nil filled
  obtain ⟨d, more, encoded, read⟩ := utf8EncodeChar_cases p
  have small := each p List.mem_cons_self
  rw [utf8_cons, encoded, List.cons_append, List.isPrefixOf_cons_cons]
  have apart : ¬d = b := by
    rintro rfl
    rcases read with ⟨same, -, -⟩ | ⟨other, -⟩ <;> omega
  simp [apart]

/-- So a search for them passes over such bytes, one by one. What is found lies behind all of them,
further on by as many places. -/
theorem firstOf?_skip {high : List UInt8} (other : ∀ b ∈ high, 0x80 ≤ b.toNat)
    (left : List UInt8) : firstOf? (patterns.map utf8) (high ++ left) =
      (firstOf? (patterns.map utf8) left).map (· + high.length) := by
  induction high with
  | nil => simp
  | cons b rest inductionHypothesis =>
    obtain ⟨here, behind⟩ := List.forall_mem_cons.mp other
    rw [List.cons_append, firstOf?, begins_nowhere ascii here, inductionHypothesis behind,
      Option.map_map]
    rfl

/-- So a search for them over bytes ends where a search over characters does, at the byte that the
character begins with. The induction is over the text; the bytes behind the first of a character are
passed over. -/
theorem firstOf?_utf8 (text : List Char) : firstOf? (patterns.map utf8) (utf8 text) =
    (firstOf? patterns text).map fun place => bytes (text.take place) := by
  induction text with
  | nil => rfl
  | cons c rest inductionHypothesis =>
    obtain ⟨b, others, encoded, read⟩ := utf8EncodeChar_cases c
    have size : c.utf8Size = others.length + 1 := by
      rw [← String.length_utf8EncodeChar, encoded, List.length_cons]
    have high : ∀ d ∈ others, 0x80 ≤ d.toNat := by
      rcases read with ⟨-, -, rfl⟩ | ⟨-, high⟩
      · exact nofun
      · exact (List.forall_mem_cons.mp high).2
    have begins : (patterns.map utf8).any (·.isPrefixOf (b :: (others ++ utf8 rest))) =
        patterns.any (·.isPrefixOf (c :: rest)) := by
      have whole : b :: (others ++ utf8 rest) = utf8 (c :: rest) := by
        rw [utf8_cons, encoded, List.cons_append]
      rw [whole, List.any_map, Bool.eq_iff_iff, List.any_eq_true, List.any_eq_true]
      exact exists_congr fun pattern => and_congr_right fun member =>
        Bool.eq_iff_iff.mp (isPrefixOf_utf8 (ascii pattern member).2 (c :: rest))
    rw [utf8_cons, encoded, List.cons_append, firstOf?, firstOf?, begins]
    split
    · rfl
    · rw [firstOf?_skip ascii high, inductionHypothesis, Option.map_map, Option.map_map,
        Option.map_map]
      refine congrArg (Option.map · _) (funext fun place => ?_)
      show bytes (rest.take place) + others.length + 1 = bytes ((c :: rest).take (place + 1))
      rw [List.take_succ_cons, Place.bytes_cons, size]
      omega

end Search

end Text

namespace Token

open Place (bytes)
open Text (utf8 digitBytes firstOf? IsAscii)

/-- What ends a comment. -/
def commentEnd : List Char := ['#', '}']

/-- The markers that begin tags and comments are ASCII. -/
theorem markers_ascii : ∀ pattern ∈ markers, IsAscii pattern := by
  simp [markers, IsAscii]

/-- So is the end of a comment. -/
theorem commentEnd_ascii : ∀ pattern ∈ [commentEnd], IsAscii pattern := by
  simp [commentEnd, IsAscii]

/-- Whether two characters stand at the beginning is told by the first and the one behind it. -/
theorem pair_begins (p q c : Char) (rest : List Char) :
    [p, q].isPrefixOf (c :: rest) = true ↔ c = p ∧ rest.head? = some q := by
  cases rest with
  | nil => simp [List.isPrefixOf]
  | cons d others => simp [List.isPrefixOf, @eq_comm _ p c, @eq_comm _ q d]

/-- A marker is a brace with one of three characters behind it. Of what follows the brace only the
first character is looked at. -/
theorem startsMarker_iff (c : Char) (rest : List Char) : startsMarker c rest = true ↔
    c = '{' ∧ (rest.head? = some '%' ∨ rest.head? = some '{' ∨ rest.head? = some '#') := by
  unfold startsMarker
  split
  · simp
  · simp
  · simp
  · cases rest <;> simp_all

/-- So a marker begins exactly where one of the three patterns does. -/
theorem startsMarker_eq (c : Char) (rest : List Char) :
    startsMarker c rest = markers.any (·.isPrefixOf (c :: rest)) := by
  rw [Bool.eq_iff_iff, startsMarker_iff, markers]
  simp only [List.any_cons, List.any_nil, Bool.or_false, Bool.or_eq_true, pair_begins]
  tauto

/-- The scan for a marker, over characters: it is the search for the first of the patterns, or goes
to the end. -/
theorem untilMarker_eq (text : List Char) :
    untilMarker text = (firstOf? markers text).getD text.length := by
  induction text with
  | nil => rfl
  | cons c rest inductionHypothesis =>
    rw [untilMarker, firstOf?, startsMarker_eq]
    split
    · rfl
    · rw [inductionHypothesis]
      cases firstOf? markers rest <;> rfl

/-- And the one for the end of a comment, which is gone through as well. This is why two characters
more are counted than the search passes over. -/
theorem throughCommentEnd_eq (text : List Char) :
    throughCommentEnd text = (firstOf? [commentEnd] text).map (· + 2) := by
  induction text with
  | nil => rfl
  | cons c rest inductionHypothesis =>
    have ends : [commentEnd].any (·.isPrefixOf (c :: rest)) = true ↔
        c = '#' ∧ rest.head? = some '}' := by
      rw [List.any_cons, List.any_nil, Bool.or_false, commentEnd, pair_begins]
    rw [comment_end_cons, firstOf?, inductionHypothesis]
    simp only [ends]
    split
    · rfl
    · rw [Option.map_map, Option.map_map]
      rfl

/-- The number of bytes that the scan for a piece goes over, where `left` is what is left of the
source. Digits are counted as bytes, markers searched for in bytes, and marks and signs have as many
as they have; words, quoted texts and blanks are gone through by their characters. -/
def Piece.scan (left : List UInt8) : Piece → Nat
  | .token (.text _) _ => (firstOf? (markers.map utf8) left).getD left.length
  | .token (.opening tag) _ => tag.opener.utf8ByteSize
  | .token (.closing tag) _ => tag.closer.utf8ByteSize
  | .token (.sign s) _ => s.spelling.utf8ByteSize
  | .token (.integer _) _ => digitBytes left
  | .token (.decimal _) _ => digitBytes left + 1 + digitBytes (left.drop (digitBytes left + 1))
  | .token (.fault _) _ => left.length
  | .gap .comment _ => (firstOf? [utf8 commentEnd] left).elim left.length (· + 2)
  | .gap .lineEnd _ => if left.head? = some 0x0a then 1 else 2
  | .token (.keyword _) text | .token (.name _) text | .token (.string _) text
  | .gap .blank text => bytes text

/-- A piece is as many bytes as are scanned for it. -/
def Step.Scans (c : Char) (rest : List Char) : Step → Prop
  | .token kind more _ => (Piece.token kind (c :: rest.take more)).scan (utf8 (c :: rest)) =
      bytes (c :: rest.take more)
  | .gap skipped more _ => (Piece.gap skipped (c :: rest.take more)).scan (utf8 (c :: rest)) =
      bytes (c :: rest.take more)
  | .fault _ => True

/-- A comment reaches through its end. The brace that it begins with is no part of the end, so the
search over bytes may begin at it, while reading begins behind it. -/
theorem comment_scans {rest : List Char} {more : Nat} (found : throughCommentEnd rest = some more) :
    (Step.gap .comment more (.text false)).Scans '{' rest := by
  rw [throughCommentEnd_eq] at found
  obtain ⟨place, searched, rfl⟩ := Option.map_eq_some_iff.mp found
  have searchedBytes : firstOf? [utf8 commentEnd] (utf8 ('{' :: rest)) =
      some (bytes ('{' :: rest.take place)) := by
    have converted := Text.firstOf?_utf8 commentEnd_ascii ('{' :: rest)
    rw [firstOf?, searched] at converted
    exact converted
  obtain ⟨before, _, member, behind, rfl, rfl⟩ := Text.firstOf?_found searched
  obtain rfl := List.mem_singleton.mp member
  have ended : (before ++ (commentEnd ++ behind)).take (before.length + 2) =
      before ++ commentEnd := by
    rw [← List.append_assoc]
    exact List.take_left' (List.length_append ..)
  show (firstOf? [utf8 commentEnd] _).elim _ (· + 2) = bytes ('{' :: List.take _ _)
  rw [searchedBytes, ended, List.take_left, Place.bytes_cons, Place.bytes_cons, Place.bytes_append]
  rfl

/-- A text outside tags reaches to the next marker, or to the end of the source. No marker begins at
its first character, so it does not matter that reading passes over that one first. -/
theorem text_scans {c : Char} {rest : List Char} (plain : startsMarker c rest = false) :
    (Step.token (.text (String.ofList (c :: rest.take (untilMarker rest)))) (untilMarker rest)
      (.text false)).Scans c rest := by
  show (firstOf? (markers.map utf8) (utf8 (c :: rest))).getD (utf8 (c :: rest)).length =
    bytes (c :: rest.take (untilMarker rest))
  rw [Text.firstOf?_utf8 markers_ascii, firstOf?, ← startsMarker_eq, plain, untilMarker_eq,
    Text.length_utf8]
  cases firstOf? markers rest with
  | none =>
    show bytes (c :: rest) = bytes (c :: rest.take rest.length)
    rw [List.take_length]
  | some place => rfl

/-- A sign is as many bytes as its spelling has. -/
theorem sign_scans {c : Char} {rest : List Char} {sign : Sign} {more : Nat} {next : Mode}
    (read : sign? c rest = some (sign, more)) :
    (Step.token (.sign sign) more next).Scans c rest := by
  unfold sign? at read
  split at read <;> cases read <;> rfl

/-- A fraction is a point and the digits behind it. There is at least one of them where a fraction
is found. -/
theorem fraction_parts {text places : List Char} (found : fraction? text = some places) :
    ∃ after, text = '.' :: after ∧ places = after.takeWhile Char.isDigit := by
  unfold fraction? at found
  split at found
  · next after =>
    simp only at found
    split at found
    · cases found
    · exact ⟨after, rfl, (Option.some.inj found).symm⟩
  · cases found

/-- The digits of a number, and of its fraction if it has one. Where a point follows the digits,
what is behind it decides: the count of bytes is that of the digits before it, or of those, the
point and the digits behind it. -/
theorem number_scans (tag : Tag) (afterDot : Bool) {c : Char} (digit : c.isDigit = true)
    (rest : List Char) : (numberStep tag afterDot c rest).Scans c rest := by
  have counted : digitBytes (utf8 (c :: rest)) = bytes (c :: rest.takeWhile Char.isDigit) := by
    rw [Text.digitBytes_utf8, List.takeWhile_cons_of_pos digit]
  have whole : rest.take (rest.takeWhile Char.isDigit).length = rest.takeWhile Char.isDigit :=
    (List.prefix_iff_eq_take.mp (List.takeWhile_prefix _)).symm
  unfold numberStep
  simp only
  split
  · next places fraction =>
    have point : fraction? (rest.dropWhile Char.isDigit) = some places := by
      cases afterDot with
      | true => cases fraction
      | false => exact fraction
    -- The digits, the point and the digits behind it: the bytes are counted over the three parts.
    obtain ⟨after, behind, rfl⟩ := fraction_parts point
    have parts := List.takeWhile_append_dropWhile (p := Char.isDigit) (l := rest)
    rw [behind] at parts
    generalize rest.takeWhile Char.isDigit = digits at parts counted ⊢
    subst parts
    have left : (utf8 (c :: (digits ++ '.' :: after))).drop (bytes (c :: digits) + 1) =
        utf8 after := by
      have split : utf8 (c :: (digits ++ '.' :: after)) =
          utf8 (c :: digits ++ ['.']) ++ utf8 after := by
        rw [← Text.utf8_append, List.append_assoc, List.cons_append, List.singleton_append]
      rw [split]
      apply List.drop_left'
      rw [Text.length_utf8, Place.bytes_append]
      rfl
    have taken : (digits ++ '.' :: after).take
        (digits.length + 1 + (after.takeWhile Char.isDigit).length) =
          digits ++ '.' :: after.takeWhile Char.isDigit := by
      have split : digits ++ '.' :: after =
          digits ++ '.' :: after.takeWhile Char.isDigit ++ after.dropWhile Char.isDigit := by
        rw [List.append_assoc, List.cons_append, List.takeWhile_append_dropWhile]
      conv => lhs; rw [split]
      apply List.take_left'
      rw [List.length_append, List.length_cons]
      omega
    have size : '.'.utf8Size = 1 := rfl
    show digitBytes _ + 1 + digitBytes (List.drop (digitBytes _ + 1) _) = bytes (c :: List.take _ _)
    rw [counted, left, taken, Text.digitBytes_utf8]
    simp only [Place.bytes_cons, Place.bytes_append, size]
    omega
  · split
    -- No fraction: the count is that of the digits alone.
    · show digitBytes (utf8 (c :: rest)) = bytes (c :: rest.take _)
      rw [counted, whole]
    · trivial

/-- Outside tags a piece is as many bytes as are scanned for it: a marker, a comment, the end of a
line or a text. The cases are tried in the order of the scanner, and what one of them leaves is
known to the next. -/
theorem textStep_scans (trimming : Bool) (c : Char) (rest : List Char) :
    (textStep trimming c rest).Scans c rest := by
  rw [textStep_trimming, textStep_eq]
  split
  · next feed =>
    obtain ⟨-, rfl⟩ := feed
    rfl
  · split
    · next feed =>
      obtain ⟨-, rfl, next⟩ := feed
      obtain ⟨others, rfl⟩ := List.head?_eq_some_iff.mp next
      rfl
    · split
      · next marker =>
        obtain ⟨rfl, next⟩ := marker
        obtain ⟨others, rfl⟩ := List.head?_eq_some_iff.mp next
        rfl
      · split
        · next marker =>
          obtain ⟨rfl, next⟩ := marker
          obtain ⟨others, rfl⟩ := List.head?_eq_some_iff.mp next
          rfl
        · next noStatement noOutput =>
          split
          · next marker =>
            obtain ⟨rfl, -⟩ := marker
            split
            · next more found => exact comment_scans found
            · trivial
          · next noComment =>
            -- No marker is at the front, so what is here is a text.
            apply text_scans
            rw [Bool.eq_false_iff, Ne, startsMarker_iff]
            rintro ⟨here, next | next | next⟩
            · exact noStatement ⟨here, next⟩
            · exact noOutput ⟨here, next⟩
            · exact noComment ⟨here, next⟩

/-- Inside a tag so is a sign, a text in quotation marks, a number or a word. What is looked at
behind a number, to see whether it goes on, is not counted. -/
theorem insideStep_scans (tag : Tag) (afterDot : Bool) (c : Char) (rest : List Char) :
    (insideStep tag afterDot c rest).Scans c rest := by
  unfold insideStep
  split
  · next sign more read => exact sign_scans read
  · split
    · split
      · rfl
      · trivial
    · split
      · next digit => exact number_scans tag afterDot digit rest
      · split
        · unfold wordStep
          simp only
          split <;> rfl
        · trivial

/-- So is every other piece inside a tag: blanks and the two ends of tags. Blanks are counted up to
the first character that is none. -/
theorem tagStep_scans (trim : Bool) (tag : Tag) (afterDot : Bool) (c : Char) (rest : List Char) :
    (tagStep trim tag afterDot c rest).Scans c rest := by
  rw [tagStep_eq]
  split
  · rfl
  · split
    · next marker =>
      obtain ⟨rfl, next⟩ := marker
      obtain ⟨others, rfl⟩ := List.head?_eq_some_iff.mp next
      rfl
    · split
      · next marker =>
        obtain ⟨rfl, next⟩ := marker
        obtain ⟨others, rfl⟩ := List.head?_eq_some_iff.mp next
        rfl
      · exact insideStep_scans tag afterDot c rest

/-- So every step goes over as many bytes as are scanned for its piece, in either mode. -/
theorem step_scans (trim : Bool) (mode : Mode) (c : Char) (rest : List Char) :
    (step trim mode c rest).Scans c rest := by
  cases mode with
  | text trimming => exact textStep_scans trimming c rest
  | tag tag afterDot => exact tagStep_scans trim tag afterDot c rest

/-- Every piece of a source is as many bytes as are scanned for it. The induction goes along the
pieces: the piece is the one that is read here, or it is found further on, where the source is what
this piece leaves. -/
theorem scan_eq {trim : Bool} {mode : Mode} {source : List Char} {earlier later : List Piece}
    {piece : Piece} (parts : pieces trim mode source = earlier ++ piece :: later) :
    piece.scan (utf8 (piece.text ++ later.flatMap Piece.text)) = bytes piece.text := by
  fun_induction pieces trim mode source generalizing earlier with
  | case1 => cases List.append_ne_nil_of_right_ne_nil _ (List.cons_ne_nil _ _) parts.symm
  | case2 tag =>
    obtain ⟨rfl, same⟩ := List.append_eq_singleton_iff.mp parts.symm |>.resolve_right (by simp)
    cases same
    rfl
  | case3 mode c rest kind more next read inductionHypothesis =>
    cases earlier with
    | nil =>
      cases parts
      have scans := step_scans trim mode c rest
      rw [read] at scans
      rw [flatMap_text_pieces, Piece.text, List.cons_append, List.take_append_drop]
      exact scans
    | cons first between => exact inductionHypothesis (List.cons.inj parts).2
  | case4 mode c rest gap more next read inductionHypothesis =>
    cases earlier with
    | nil =>
      cases parts
      have scans := step_scans trim mode c rest
      rw [read] at scans
      rw [flatMap_text_pieces, Piece.text, List.cons_append, List.take_append_drop]
      exact scans
    | cons first between => exact inductionHypothesis (List.cons.inj parts).2
  | case5 mode c rest f read =>
    obtain ⟨rfl, same⟩ := List.append_eq_singleton_iff.mp parts.symm |>.resolve_right (by simp)
    cases same
    rw [List.flatMap_nil, List.append_nil]
    exact Text.length_utf8 _

end Token

/-- The place behind a text that a source begins with is between two characters, for it is where the
bytes of that text end. -/
theorem boundary_behind {source : String} {before behind : List Char}
    (parts : source.toList = before ++ behind) :
    (String.Pos.Raw.mk (Place.bytes before)).IsValid source := by
  rw [String.Pos.Raw.isValid_iff_exists_append]
  refine ⟨.ofList before, .ofList behind, ?_, rfl⟩
  rw [← String.ofList_append, ← parts, String.ofList_toList]

/-- So are the places behind digits and behind a point that follows them. Digits are counted as
bytes, and they are as many characters as bytes; the point is one byte of its own, since no other
character holds that byte. -/
theorem boundary_digits {source : String} {before text : List Char}
    (parts : source.toList = before ++ text) :
    (String.Pos.Raw.mk (Place.bytes before + Text.digitBytes (Text.utf8 text))).IsValid source ∧
    ((Text.utf8 text)[Text.digitBytes (Text.utf8 text)]? = some 0x2e →
      (String.Pos.Raw.mk (Place.bytes before + Text.digitBytes (Text.utf8 text) + 1)).IsValid
        source) := by
  have split := List.takeWhile_append_dropWhile (p := Char.isDigit) (l := text)
  rw [Text.digitBytes_utf8]
  generalize text.takeWhile Char.isDigit = digits at split ⊢
  generalize text.dropWhile Char.isDigit = behind at split
  subst split
  rw [← Place.bytes_append]
  refine ⟨boundary_behind (parts.trans (List.append_assoc ..).symm), fun point => ?_⟩
  rw [Text.utf8_append, ← Text.length_utf8, List.getElem?_append_right (Nat.le_refl _),
    Nat.sub_self] at point
  cases behind with
  | nil => cases point
  | cons d others =>
    obtain ⟨b, more, encoded, read⟩ := Text.utf8EncodeChar_cases d
    rw [Text.utf8_cons, encoded] at point
    obtain rfl : b = 0x2e := Option.some.inj point
    have dot : d = '.' := by
      rcases read with ⟨same, -, -⟩ | ⟨-, high⟩
      · exact Char.toNat_inj.mp same.symm
      · exact absurd (high _ List.mem_cons_self) (by decide)
    subst dot
    have through : source.toList = before ++ digits ++ ['.'] ++ others := by
      simp [parts]
    have valid := boundary_behind through
    rw [Place.bytes_append] at valid
    exact valid

section Cuts

open Place (bytes)
open Text (utf8 digitBytes)
open Token (Piece pieces)

variable {trim : Bool} {source : String} {earlier later : List Piece} {piece : Piece}

/-- Wherever reading has come to in a source, it is between two characters, and so is the place that
the next scan over bytes leads to. Digits that stand there end between two characters as well, and a
point behind them is one byte. -/
theorem cuts_on_boundaries
    (parts : pieces trim (.text false) source.toList = earlier ++ piece :: later) :
    let cursor := (Place.first.past (earlier.flatMap Piece.text)).offset
    let left := source.toByteArray.data.toList.drop cursor
    (String.Pos.Raw.mk cursor).IsValid source ∧
    (String.Pos.Raw.mk (cursor + piece.scan left)).IsValid source ∧
    (Place.first.past ((earlier ++ [piece]).flatMap Piece.text)).offset =
      cursor + piece.scan left ∧
    (String.Pos.Raw.mk (cursor + digitBytes left)).IsValid source ∧
    (left[digitBytes left]? = some 0x2e →
      (String.Pos.Raw.mk (cursor + digitBytes left + 1)).IsValid source) := by
  intro cursor left
  have whole : source.toList =
      earlier.flatMap Piece.text ++ (piece.text ++ later.flatMap Piece.text) := by
    rw [← Token.flatMap_text_pieces trim (.text false) source.toList, parts, List.flatMap_append,
      List.flatMap_cons]
  have scanned := Token.scan_eq parts
  have past (text : List Char) : (Place.first.past text).offset = bytes text := by
    rw [Place.past_first]
    rfl
  have here : cursor = bytes (earlier.flatMap Piece.text) := past _
  have remaining : left = utf8 (piece.text ++ later.flatMap Piece.text) := by
    show source.toByteArray.data.toList.drop cursor = _
    rw [← Text.utf8_toList, whole, Text.utf8_append, here, ← Text.length_utf8, List.drop_left]
  obtain ⟨digits, point⟩ := boundary_digits whole
  rw [List.flatMap_append, List.flatMap_singleton, past, Place.bytes_append, remaining, scanned,
    here, ← Place.bytes_append]
  rw [← List.append_assoc] at whole
  refine ⟨boundary_behind (whole.trans (List.append_assoc ..)), boundary_behind whole, rfl, digits,
    point⟩

end Cuts

end Stencil
