import Mathlib.Data.List.Chain
import Stencil.Proofs.Spelling

/-!
# Writing sources

A source is written segment by segment. A segment is a text or a tag, and every token of a tag has
a blank on both sides. Where no two texts are neighbours and no text could be mistaken for the
start of a tag, the source that is written has exactly the tokens that the segments have.
-/

namespace Stencil

/-- How tags and comments begin. A text may hold braces, but none of these three. -/
def Token.markers : List (List Char) := [['{', '%'], ['{', '{'], ['{', '#']]

/-- A text that can stand between tags: it is not empty, nothing in it begins a tag or a comment,
and its last character does not do so together with what follows. The last condition is what a text
needs that may have a tag behind it. -/
structure Text.IsPlain (s : String) : Prop where
  nonempty : s ≠ ""
  unmarked : ∀ marker ∈ Token.markers, ¬marker <:+: s.toList
  ended : ¬['{'] <:+ s.toList

namespace Token

/-- What a piece is as a token; a gap is none. Reading looks at nothing else, so sources with the
same kinds are read alike but for the places. -/
def Piece.kind? : Piece → Option Kind
  | .token kind _ => some kind
  | .gap _ _ => none

/-- The places of tokens have no part in what they are. The induction is over the pieces, for every
place at which they may start. -/
theorem kinds_tokensFrom (place : Place) (pieces : List Piece) :
    (tokensFrom place pieces).map Token.kind = pieces.filterMap Piece.kind? := by
  induction pieces generalizing place with
  | nil => rfl
  | cons piece rest inductionHypothesis =>
    cases piece with
    | token kind text => simp [tokensFrom, Piece.kind?, inductionHypothesis]
    | gap gap text => simp [tokensFrom, Piece.kind?, List.filterMap_cons, inductionHypothesis]

/-- Tokens behind others start behind the texts of those, gaps included. So the place of a token is
known from the text in front of it, however that is parted. -/
theorem tokensFrom_append (place : Place) (before behind : List Piece) :
    tokensFrom place (before ++ behind) =
      tokensFrom place before ++ tokensFrom (place.past (before.flatMap Piece.text)) behind := by
  induction before generalizing place with
  | nil => rfl
  | cons piece rest inductionHypothesis =>
    cases piece <;>
      simp only [List.cons_append, tokensFrom, inductionHypothesis, List.flatMap_cons, Piece.text,
        Place.past_append]

/-- The kinds of the tokens of a source, from the given mode on. Line ends are kept; how tokens come
to be where they are dropped is told from here. -/
def kinds (mode : Mode) (source : List Char) : List Kind :=
  (pieces false mode source).filterMap Piece.kind?

section Reading

variable {trim : Bool} {mode next : Mode} {c : Char} {rest : List Char} {more : Nat}

/-- A step that reads a token makes a piece of the text it has gone over, and the rest of the source
is read in the mode it leads to. -/
theorem pieces_of_token {kind : Kind} (read : step trim mode c rest = .token kind more next) :
    pieces trim mode (c :: rest) =
      .token kind (c :: rest.take more) :: pieces trim next (rest.drop more) := by
  cases mode <;> simp only [pieces, read]

/-- A step that reads a gap does so in the same way. -/
theorem pieces_of_gap {gap : Gap} (read : step trim mode c rest = .gap gap more next) :
    pieces trim mode (c :: rest) =
      .gap gap (c :: rest.take more) :: pieces trim next (rest.drop more) := by
  cases mode <;> simp only [pieces, read]

/-- A fault is the last piece, whatever is left of the source. -/
theorem pieces_of_fault {f : Fault} (read : step trim mode c rest = .fault f) :
    pieces trim mode (c :: rest) = [.token (.fault f) (c :: rest)] := by
  cases mode <;> simp only [pieces, read]

variable (mode)

/-- A step that reads a token puts it in front of the tokens of the rest. -/
theorem kinds_of_token {kind : Kind} (read : step false mode c rest = .token kind more next) :
    kinds mode (c :: rest) = kind :: kinds next (rest.drop more) := by
  rw [kinds, pieces_of_token read]
  rfl

/-- A step that reads a gap adds no token. -/
theorem kinds_of_gap {gap : Gap} (read : step false mode c rest = .gap gap more next) :
    kinds mode (c :: rest) = kinds next (rest.drop more) := by
  rw [kinds, pieces_of_gap read]
  rfl

end Reading

/-- Text that does not begin with a blank. Blanks are read as far as they go, so one blank is only a
gap of its own if no other follows. -/
def Unblank (source : List Char) : Prop :=
  ∃ c rest, source = c :: rest ∧ Text.isBlank c = false

/-- One blank in a tag is a gap, if what follows is no blank. Otherwise the gap would be longer, and
take in the blanks that follow. -/
theorem step_blank (trim : Bool) (tag : Tag) (afterDot : Bool) {source : List Char}
    (unblank : Unblank source) :
    step trim (.tag tag afterDot) ' ' source = .gap .blank 0 (.tag tag afterDot) := by
  obtain ⟨c, rest, rfl, notBlank⟩ := unblank
  have blank : Text.isBlank ' ' = true := by decide
  have passed : (c :: rest).takeWhile Text.isBlank = [] :=
    List.takeWhile_cons_of_neg (by simp [notBlank])
  simp only [step, tagStep, blank, if_true, passed, List.length_nil]

/-- So it is passed over. -/
theorem kinds_blank (tag : Tag) (afterDot : Bool) {source : List Char}
    (unblank : Unblank source) :
    kinds (.tag tag afterDot) (' ' :: source) = kinds (.tag tag afterDot) source := by
  rw [kinds_of_gap _ (step_blank false tag afterDot unblank), List.drop_zero]

/-- A token of a tag and the blank behind it are read as the token. The blank ends whatever the
token is made of, and the mode behind it says whether the token was a dot. -/
theorem kinds_spelling (tag : Tag) (afterDot : Bool) (quote : Quote) {kind : Kind}
    (writable : kind.Writable) {source : List Char} (unblank : Unblank source) :
    kinds (.tag tag afterDot) (kind.spelling quote ++ ' ' :: source) =
      kind :: kinds (.tag tag (kind = .sign .dot)) source := by
  obtain ⟨c, more, written, -, read⟩ := tagStep_spelling false tag afterDot quote writable source
  rw [written, List.cons_append, kinds_of_token (.tag tag afterDot) read, List.drop_left,
    kinds_blank tag _ unblank]

/-- The tokens of a tag as they are written, each with a blank behind it. That is more blanks than
needed, but it makes every token end for the same reason. -/
def spellings (quote : Quote) (kinds : List Kind) : List Char :=
  kinds.flatMap fun kind => kind.spelling quote ++ [' ']

/-- Tokens and the end of their tag do not begin with a blank: a token is told by its first
character. -/
theorem spellings_unblank (tag : Tag) (quote : Quote) {written : List Kind}
    (writable : ∀ kind ∈ written, kind.Writable) (rest : List Char) :
    Unblank (spellings quote written ++ (tag.closer.toList ++ rest)) := by
  cases written with
  | nil => cases tag <;> exact ⟨_, _, rfl, by decide⟩
  | cons kind later =>
    obtain ⟨c, more, spelled, notBlank, -⟩ :=
      tagStep_spelling false tag false quote (writable kind List.mem_cons_self) []
    refine ⟨c, more ++ ' ' :: (spellings quote later ++ (tag.closer.toList ++ rest)), ?_, notBlank⟩
    simp [spellings, spelled]

/-- The start of a tag is read as itself, and leads into the tag. For either kind of tag this is one
step on two given characters. -/
theorem kinds_opener (tag : Tag) (rest : List Char) :
    kinds (.text false) (tag.opener.toList ++ rest) =
      .opening tag :: kinds (.tag tag false) rest := by
  cases tag with
  | output =>
    have read : step false (.text false) '{' ('{' :: rest) =
        .token (.opening .output) 1 (.tag .output false) := rfl
    exact kinds_of_token _ read
  | statement =>
    have read : step false (.text false) '{' ('%' :: rest) =
        .token (.opening .statement) 1 (.tag .statement false) := rfl
    exact kinds_of_token _ read

/-- The end of a tag is read as itself, and leads out of the tag. It does not matter whether a dot
stands in front of it. -/
theorem kinds_closer (tag : Tag) (afterDot : Bool) (rest : List Char) :
    kinds (.tag tag afterDot) (tag.closer.toList ++ rest) =
      .closing tag :: kinds (.text false) rest := by
  cases tag with
  | output =>
    have read : step false (.tag .output afterDot) '}' ('}' :: rest) =
        .token (.closing .output) 1 (.text false) := rfl
    exact kinds_of_token _ read
  | statement =>
    have read : step false (.tag .statement afterDot) '%' ('}' :: rest) =
        .token (.closing .statement) 1 (.text false) := rfl
    exact kinds_of_token _ read

/-- What is written of a tag behind its start is read as its tokens and its end. The induction is
over the tokens; each leaves the mode for the next one, which matters for the digits behind a
dot. -/
theorem kinds_spellings (tag : Tag) (quote : Quote) {written : List Kind}
    (writable : ∀ kind ∈ written, kind.Writable) (afterDot : Bool) (rest : List Char) :
    kinds (.tag tag afterDot) (spellings quote written ++ (tag.closer.toList ++ rest)) =
      written ++ .closing tag :: kinds (.text false) rest := by
  induction written generalizing afterDot with
  | nil => exact kinds_closer tag afterDot rest
  | cons kind later inductionHypothesis =>
    obtain ⟨first, others⟩ := List.forall_mem_cons.mp writable
    have unblank := spellings_unblank tag quote others rest
    have parts : spellings quote (kind :: later) ++ (tag.closer.toList ++ rest) =
        kind.spelling quote ++ ' ' :: (spellings quote later ++ (tag.closer.toList ++ rest)) := by
      simp [spellings]
    rw [parts, kinds_spelling tag afterDot quote first unblank, inductionHypothesis others]
    rfl

/-- A part of a source: what stands between two places outside tags. Sources are put together from
these, with the tags as lists of tokens instead of characters. -/
inductive Segment where
  | text (s : String)
  /-- A tag with the tokens between its start and its end. -/
  | tag (of : Tag) (written : List Kind)

namespace Segment

/-- How a segment is written. -/
def spelling (quote : Quote) : Segment → List Char
  | .text s => s.toList
  | .tag of written =>
    of.opener.toList ++ ' ' :: (spellings quote written ++ of.closer.toList)

/-- The tokens of a segment. Only tags have more than one, and theirs stand between an opening and a
closing token. -/
def kinds : Segment → List Kind
  | .text s => [.text s]
  | .tag of written => .opening of :: (written ++ [.closing of])

/-- Whether a segment is a text. -/
def isText : Segment → Bool
  | .text _ => true
  | .tag _ _ => false

/-- A segment whose tokens are read back from how it is written: a plain text, or a tag whose tokens
can be written. -/
def Writable : Segment → Prop
  | .text s => Text.IsPlain s
  | .tag _ written => ∀ kind ∈ written, kind.Writable

end Segment

/-- Segments that make up a source: each can be written, and no two texts are neighbours. Neighbours
would be read as one text. -/
def Laid (segments : List Segment) : Prop :=
  (∀ segment ∈ segments, segment.Writable) ∧
    segments.IsChain fun left right => left.isText → ¬right.isText

/-- Segments that do not begin with a text. This is what may stand behind a text, since two texts
side by side would be read as one. -/
def TagFirst (segments : List Segment) : Prop :=
  ∀ segment ∈ segments.head?, ¬segment.isText

/-- A tag does not begin with a text. -/
theorem tagFirst_tag (tag : Tag) (written : List Kind) (behind : List Segment) :
    TagFirst (.tag tag written :: behind) := by
  intro segment found isText
  cases found
  cases isText

/-- No segments make up the empty source. -/
theorem laid_nil : Laid [] := ⟨by simp, .nil⟩

/-- A plain text alone makes up a source. -/
theorem laid_text {s : String} (plain : Text.IsPlain s) : Laid [.text s] :=
  ⟨List.forall_mem_singleton.mpr plain, .singleton _⟩

/-- A tag may stand in front of everything. -/
theorem laid_tag {behind : List Segment} {tag : Tag} {written : List Kind}
    (writable : ∀ kind ∈ written, kind.Writable) (laid : Laid behind) :
    Laid (.tag tag written :: behind) := by
  obtain ⟨each, apart⟩ := laid
  refine ⟨List.forall_mem_cons.mpr ⟨writable, each⟩, apart.cons ?_⟩
  rintro segment - isText
  cases isText

/-- What begins with a tag may stand behind everything, since then no two texts become
neighbours. -/
theorem laid_append {before behind : List Segment} (first : Laid before) (second : Laid behind)
    (tagFirst : TagFirst behind) : Laid (before ++ behind) :=
  ⟨List.forall_mem_append.mpr ⟨first.1, second.1⟩,
    first.2.append second.2 fun _ _ other found _ => tagFirst other found⟩

/-- Whether source that follows a text is at its end or starts with a marker. A text is read as far
as it goes, so this is where it stops. -/
def Ends : List Char → Bool
  | [] => true
  | c :: rest => startsMarker c rest

/-- No marker starts at the front of a text without markers, whatever follows the text, unless its
last character begins one together with what follows. All markers have two characters, so only the
last one is in question. -/
theorem unmarked_start {c : Char} {later rest : List Char}
    (unmarked : ∀ marker ∈ markers, ¬marker <:+: c :: later)
    (ended : rest = [] ∨ ¬['{'] <:+ c :: later) : startsMarker c (later ++ rest) = false := by
  cases later with
  | nil =>
    rcases ended with rfl | ended
    · unfold startsMarker
      split <;> simp_all
    · have other : c ≠ '{' := fun same => ended (same ▸ List.suffix_rfl)
      unfold startsMarker
      split <;> simp_all
  | cons d behind =>
    have apart : [c, d] ∉ markers := fun member => unmarked [c, d] member ⟨[], behind, rfl⟩
    unfold startsMarker
    split <;> simp_all [markers]

/-- A text without markers reaches up to the next marker or to the end of the source. The induction
is over the text; its end is where the hypothesis about what follows is used. -/
theorem untilMarker_plain {chars rest : List Char}
    (unmarked : ∀ marker ∈ markers, ¬marker <:+: chars) (ended : rest = [] ∨ ¬['{'] <:+ chars)
    (ends : Ends rest = true) : untilMarker (chars ++ rest) = chars.length := by
  induction chars with
  | nil =>
    cases rest with
    | nil => rfl
    | cons c rest => exact if_pos ends
  | cons c later inductionHypothesis =>
    have behind := inductionHypothesis
      (fun marker member inside => unmarked marker member (List.infix_cons inside))
      (ended.imp_right fun ended last => ended (List.suffix_cons_iff.mpr (.inr last)))
    rw [List.cons_append, untilMarker, unmarked_start unmarked ended, if_neg Bool.false_ne_true,
      behind, List.length_cons]

/-- Where no marker starts, everything up to the next one is one text. -/
theorem textStep_plain {c : Char} {rest : List Char} (plain : startsMarker c rest = false) :
    textStep false c rest =
      .token (.text (String.ofList (c :: rest.take (untilMarker rest)))) (untilMarker rest)
        (.text false) := by
  unfold textStep
  split <;> simp_all [startsMarker]

/-- A text without markers is read as one text, and as the whole of it. It may end with a brace only
where nothing follows, since a brace that follows would make a marker. -/
theorem textStep_unmarked {c : Char} {later rest : List Char}
    (unmarked : ∀ marker ∈ markers, ¬marker <:+: c :: later)
    (ended : rest = [] ∨ ¬['{'] <:+ c :: later) (ends : Ends rest = true) :
    textStep false c (later ++ rest) =
      .token (.text (String.ofList (c :: later))) later.length (.text false) := by
  have start : startsMarker c (later ++ rest) = false := unmarked_start unmarked ended
  have whole := untilMarker_plain unmarked ended ends
  rw [List.cons_append, untilMarker, start, if_neg Bool.false_ne_true, List.length_cons] at whole
  have reached : untilMarker (later ++ rest) = later.length := by omega
  rw [textStep_plain start, reached, List.take_left]

/-- A plain text up to a marker or the end of the source is read as one text. It is not empty, so
there is a token for it. -/
theorem kinds_text {s : String} (plain : Text.IsPlain s) {rest : List Char}
    (ends : Ends rest = true) :
    kinds (.text false) (s.toList ++ rest) = .text s :: kinds (.text false) rest := by
  obtain ⟨nonempty, unmarked, ended⟩ := plain
  cases chars : s.toList with
  | nil => exact absurd (String.toList_eq_nil_iff.mp chars) nonempty
  | cons c later =>
    rw [chars] at unmarked ended
    have read := textStep_unmarked unmarked (.inr ended) ends
    rw [← chars, String.ofList_toList] at read
    rw [List.cons_append, kinds_of_token (.text false) read, List.drop_left]

/-- A tag is read as its tokens. One blank stands in front of the first of them and is skipped;
those between the tokens are part of how these are written. -/
theorem kinds_tag (quote : Quote) {tag : Tag} {written : List Kind}
    (writable : ∀ kind ∈ written, kind.Writable) (rest : List Char) :
    kinds (.text false) ((Segment.tag tag written).spelling quote ++ rest) =
      (Segment.tag tag written).kinds ++ kinds (.text false) rest := by
  have unblank := spellings_unblank tag quote writable rest
  have inside : kinds (.tag tag false) (' ' :: (spellings quote written ++ tag.closer.toList) ++
      rest) = written ++ .closing tag :: kinds (.text false) rest := by
    rw [List.cons_append, List.append_assoc, kinds_blank tag false unblank,
      kinds_spellings tag quote writable]
  rw [Segment.spelling, List.append_assoc, kinds_opener, inside, Segment.kinds, List.cons_append,
    List.append_assoc]
  rfl

/-- What is written of segments is read as the tokens of the segments. The induction is over the
segments: a tag may be followed by anything, and a text is followed by a tag or by nothing, which is
what it needs to be read up to its end. -/
theorem kinds_segments (quote : Quote) {segments : List Segment} (laid : Laid segments) :
    kinds (.text false) (segments.flatMap (Segment.spelling quote)) =
      segments.flatMap Segment.kinds := by
  obtain ⟨writable, apart⟩ := laid
  induction segments with
  | nil => simp [kinds, pieces]
  | cons segment later inductionHypothesis =>
    obtain ⟨first, others⟩ := List.forall_mem_cons.mp writable
    have behind := inductionHypothesis others apart.tail
    rw [List.flatMap_cons, List.flatMap_cons, ← behind]
    cases segment with
    | tag tag written => exact kinds_tag quote first _
    | text s =>
      refine kinds_text first ?_
      cases later with
      | nil => rfl
      | cons next rest =>
        cases next with
        | text other => exact absurd rfl (List.isChain_cons_cons.mp apart |>.1 rfl)
        | tag tag written => cases tag <;> rfl

end Token

end Stencil
