import Mathlib.Data.List.Infix
import Stencil.Proofs.Deciding
import Stencil.Proofs.Gaps
import Stencil.Proofs.Places

/-!
# Tokens cover their source

The tokens of a source lie in it one behind the other, each with a gap in front that is as long as
it can be, and what is behind the last one is a gap as well. A fault covers all that is left, so
nothing comes behind it. Everything that can be said of the places of tokens follows from this: they
are in order and do not overlap, each is where its text is, and what they leave out is known.
-/

namespace Stencil.Token

/-- A gap that is as long as it can be. Any longer start of the source that may be skipped would be
a start of the gap. -/
structure Longest (trim : Bool) (last : Option Kind) (gap source : List Char) : Prop where
  here : gap <+: source
  skipped : Skipped trim last gap
  longest : ∀ longer, longer <+: source → Skipped trim last longer → longer <+: gap

/-- How tokens lie in the rest of a source, which is behind `before` and behind the last token.
Everything that is said below of tokens and gaps is read off this by induction. -/
inductive Tiled (trim : Bool) : List Char → Option Kind → List Char → List Token → Prop
  | done {before gap : List Char} {last : Option Kind} (skipped : Skipped trim last gap)
      (ended : last.any Kind.staysInTag = true → ∃ f, last = some (.fault f)) :
      Tiled trim before last gap []
  | token {before gap text rest : List Char} {last : Option Kind} {token : Token}
      {tokens : List Token} (longest : Longest trim last gap (gap ++ text ++ rest))
      (covers : token.Covers (before ++ gap) text)
      (nonempty : text = [] → ∃ f, token.kind = .fault f)
      (final : ∀ f, token.kind = .fault f → rest = [] ∧ tokens = [])
      (verbatim : ∀ s, token.kind = .text s → s = String.ofList text)
      (behind : Tiled trim (before ++ gap ++ text) (some token.kind) rest tokens) :
      Tiled trim before last (gap ++ text ++ rest) (token :: tokens)

section Tiling

variable {trim : Bool} {mode : Mode} {last : Option Kind} {before gap source : List Char}

/-- Where a mode stops, the gap is as long as it can be. A longer one would go on with a character
that the mode cannot skip. -/
theorem longest_of_stopped (knows : mode.Knows trim last gap) (stopped : mode.Stopped source) :
    Longest trim last gap (gap ++ source) where
  here := List.prefix_append gap source
  skipped := by simpa using (knows []).mpr mode.skips_nil
  longest := by
    intro longer fits skipped
    rcases List.prefix_or_prefix_of_prefix fits (List.prefix_append gap source) with short | long
    · exact short
    · obtain ⟨more, rfl⟩ := long
      have none : more = [] := stopped more ((List.prefix_append_right_inj gap).mp fits)
        ((knows more).mp skipped)
      rw [none, List.append_nil]

/-- A mode for the outside of tags comes behind a token that leaves the source there: inside a tag
no comment may be skipped. -/
theorem outside_of_knows {trimming : Bool} (knows : (Mode.text trimming).Knows trim last gap) :
    last.any Kind.staysInTag = false := by
  have comment : IsComment ['{', '#', '}'] := ⟨by decide, by decide, by decide⟩
  have skips : (Mode.text trimming).Skips ['{', '#', '}'] :=
    (trimmed_comment comment trimming []).mpr comments_nil
  have skipped := (knows _).mpr skips
  rw [Bool.eq_false_iff]
  intro inside
  rw [Skipped, if_pos inside] at skipped
  have brace : Text.isBlank '{' = true := skipped '{' (by simp)
  have notBlank : Text.isBlank '{' = false := by decide
  rw [notBlank] at brace
  cases brace

/-- A fault that amounts to the rest of a source covers it, and nothing comes behind it. -/
theorem tiled_fault (f : Fault) (knows : mode.Knows trim last gap) (stopped : mode.Stopped source) :
    Tiled trim before last (gap ++ source)
      [⟨.fault f, Place.behind (before ++ gap), Place.bytes (before ++ gap ++ source)⟩] := by
  have longest := longest_of_stopped knows stopped
  rw [← List.append_nil (gap ++ source)] at longest ⊢
  refine .token longest ⟨rfl, rfl⟩ (fun _ => ⟨f, rfl⟩) (fun _ _ => ⟨rfl, rfl⟩) nofun ?_
  exact .done (List.forall_mem_nil _) fun _ => ⟨f, rfl⟩

/-- The pieces of a source lie in it as tokens do, whatever gap has been skipped in front of them. A
gap among the pieces goes to that gap, and behind a token it is empty. The induction is that of the
pieces. -/
theorem tiled_pieces (trim : Bool) (mode : Mode) (source : List Char) (before gap : List Char)
    (last : Option Kind) (knows : mode.Knows trim last gap) :
    Tiled trim before last (gap ++ source)
      (tokensFrom (Place.behind (before ++ gap)) (pieces trim mode source)) := by
  have past (before text : List Char) :
      (Place.behind before).past text = Place.behind (before ++ text) := by
    rw [← Place.past_first, ← Place.past_first, Place.past_append]
  fun_induction pieces trim mode source generalizing before gap last with
  | case1 trimming =>
    have skipped := (longest_of_stopped knows (fun _ fits _ => List.prefix_nil.mp fits)).skipped
    rw [List.append_nil]
    exact .done skipped fun inside => absurd inside (Bool.eq_false_iff.mp (outside_of_knows knows))
  | case2 tag =>
    rw [tokensFrom, past]
    exact tiled_fault (.openTag tag) knows fun _ fits _ => List.prefix_nil.mp fits
  | case3 mode c rest kind more next read inductionHypothesis =>
    have token : ∀ gap more next, step trim mode c rest ≠ .gap gap more next := by simp [read]
    have stopped : mode.Stopped (c :: rest) := stopped_of_read token
    obtain ⟨sound, verbatim, follows⟩ := follows_of_read read
    have longest := longest_of_stopped knows stopped
    have parts : gap ++ c :: rest = gap ++ (c :: rest.take more) ++ rest.drop more := by
      rw [List.append_assoc, List.cons_append, List.take_append_drop]
    -- Behind a token the gap starts anew.
    have behind :=
      inductionHypothesis (before ++ gap ++ (c :: rest.take more)) [] (some kind) follows
    rw [List.append_nil, List.nil_append] at behind
    rw [parts] at longest ⊢
    rw [tokensFrom, past]
    exact .token longest ⟨rfl, rfl⟩ (fun none => absurd none (List.cons_ne_nil c _))
      (fun f fault => absurd fault (sound f)) verbatim behind
  | case4 mode c rest skip more next read inductionHypothesis =>
    -- The gap so far grows by this piece, and the mode behind knows how it may go on.
    have parts : gap ++ c :: rest = gap ++ (c :: rest.take more) ++ rest.drop more := by
      rw [List.append_assoc, List.cons_append, List.take_append_drop]
    rw [tokensFrom, past, parts, List.append_assoc before]
    refine inductionHypothesis before (gap ++ (c :: rest.take more)) last fun behind => ?_
    rw [List.append_assoc, knows]
    exact gap_skips read behind
  | case5 mode c rest f read =>
    have fault : ∀ gap more next, step trim mode c rest ≠ .gap gap more next := by simp [read]
    rw [tokensFrom, past]
    exact tiled_fault f knows (stopped_of_read fault)

end Tiling

namespace Tiled

variable {trim : Bool} {before source : List Char} {last : Option Kind} {tokens : List Token}

/-- There is no more than one token to a character, but for a fault at the end. So the tokens are
finitely many, with a bound. -/
theorem length_le (tiled : Tiled trim before last source tokens) :
    tokens.length ≤ source.length + 1 := by
  induction tiled with
  | done => exact Nat.zero_le _
  | @token _ gap text rest _ token tokens _ _ nonempty final _ behind inductionHypothesis =>
    simp only [List.length_cons, List.length_append]
    by_cases empty : text = []
    · obtain ⟨f, fault⟩ := nonempty empty
      rw [(final f fault).2, List.length_nil]
      omega
    · have positive : 0 < text.length := List.length_pos_iff.mpr empty
      omega

/-- Every token starts in the part of the source that the tokens lie in, and not at the end of it
unless it is a fault. -/
theorem starts (tiled : Tiled trim before last source tokens) :
    ∀ token ∈ tokens, ∃ more behind, source = more ++ behind ∧
      token.start = Place.behind (before ++ more) ∧ (behind = [] → ∃ f, token.kind = .fault f) := by
  induction tiled with
  | done => exact fun _ member => nomatch member
  | @token before gap text rest _ token tokens _ covers nonempty _ _ behind inductionHypothesis =>
    refine List.forall_mem_cons.mpr ⟨?_, fun later member => ?_⟩
    · exact ⟨gap, text ++ rest, List.append_assoc .., covers.start,
        fun none => nonempty (List.append_eq_nil_iff.mp none).1⟩
    · obtain ⟨more, left, rfl, starts, ends⟩ := inductionHypothesis later member
      refine ⟨gap ++ text ++ more, left, (List.append_assoc ..).symm, ?_, ends⟩
      rw [starts]
      simp only [List.append_assoc]

/-- No token starts before the part of the source that the tokens lie in. It is the bound that
orders tokens one behind the other. -/
theorem start_ge (tiled : Tiled trim before last source tokens) :
    ∀ token ∈ tokens, Place.bytes before ≤ token.start.offset := by
  intro token member
  obtain ⟨more, behind, -, starts, -⟩ := tiled.starts token member
  rw [starts, Place.behind, Place.bytes_append]
  exact Nat.le_add_right _ _

/-- No token starts before those in front of it have stopped. The induction is along the tokens,
with the bound before for those further behind. -/
theorem ordered (tiled : Tiled trim before last source tokens) :
    tokens.Pairwise fun earlier later => earlier.stop ≤ later.start.offset := by
  induction tiled with
  | done => exact List.Pairwise.nil
  | token longest covers nonempty final verbatim behind inductionHypothesis =>
    refine List.pairwise_cons.mpr ⟨fun later member => ?_, inductionHypothesis⟩
    rw [covers.stop]
    exact behind.start_ge later member

/-- Behind some of the tokens the others lie in what is left of the source, and the last of them is
what the next gap is behind. The induction is on the first tokens, and what they and the gaps
between them take up is put together on the way. -/
theorem append {earlier later : List Token}
    (tiled : Tiled trim before last source (earlier ++ later)) :
    ∃ text behind, source = text ++ behind ∧
      Place.bytes (before ++ text) = (earlier.getLast?.map Token.stop).getD (Place.bytes before) ∧
      Tiled trim (before ++ text) ((earlier.getLast?.map Token.kind).or last) behind later := by
  induction earlier generalizing before last source with
  | nil => exact ⟨[], source, rfl, by simp, by simpa using tiled⟩
  | cons token others inductionHypothesis =>
    cases tiled with
    | @token _ gap text rest _ _ _ longest covers nonempty final verbatim behind =>
      obtain ⟨more, left, rfl, reached, tiled⟩ := inductionHypothesis behind
      refine ⟨gap ++ text ++ more, left, (List.append_assoc ..).symm, ?_, ?_⟩
      · rw [← List.append_assoc, ← List.append_assoc, reached, ← covers.stop, List.getLast?_cons]
        cases others.getLast? <;> rfl
      · rw [← List.append_assoc, ← List.append_assoc, List.getLast?_cons]
        cases ends : others.getLast? <;> simpa [ends] using tiled

/-- What is in front of the first token, or of the end of the source, is a gap, and as long as it
can be. -/
theorem gap_first (tiled : Tiled trim before last source tokens) :
    ∃ gap behind, source = gap ++ behind ∧ Longest trim last gap source ∧
      Place.bytes (before ++ gap) =
        (tokens.head?.map (·.start.offset)).getD (Place.bytes (before ++ source)) := by
  cases tiled with
  | done skipped ended =>
    exact ⟨source, [], (List.append_nil source).symm,
      ⟨List.prefix_rfl, skipped, fun _ fits _ => fits⟩, rfl⟩
  | @token _ gap text rest _ token _ longest covers nonempty final verbatim behind =>
    refine ⟨gap, text ++ rest, List.append_assoc .., longest, ?_⟩
    rw [List.head?_cons, Option.map_some, Option.getD_some, covers.start, Place.behind]

/-- A source with no fault in it is left outside tags, unless what is in front has one. The
induction is on the tokens, with what is in front in place of a first token, because without tokens
only that can be in a tag. -/
theorem outside (tiled : Tiled trim before last source tokens)
    (sound : ∀ token ∈ tokens, ∀ f, token.kind ≠ .fault f) :
    ((tokens.getLast?.map Token.kind).or last).any Kind.staysInTag = true →
      ∃ f, last = some (.fault f) := by
  induction tiled with
  | done skipped ended => simpa using ended
  | @token before gap text rest last token tokens _ _ _ _ _ behind inductionHypothesis =>
    obtain ⟨here, later⟩ := List.forall_mem_cons.mp sound
    intro inside
    have stays :
        ((tokens.getLast?.map Token.kind).or (some token.kind)).any Kind.staysInTag = true := by
      rw [List.getLast?_cons] at inside
      cases ends : tokens.getLast? <;> simpa [ends] using inside
    obtain ⟨f, same⟩ := inductionHypothesis later stays
    exact absurd (Option.some.inj same) (here f)

/-- Tokens further behind start at later places. Only a fault is empty, and nothing comes behind it.
So each token has at least one character, which lies between its start and that of the next. -/
theorem advancing (tiled : Tiled trim before last source tokens) :
    tokens.Pairwise fun earlier later => earlier.start.Before later.start := by
  induction tiled with
  | done => exact List.Pairwise.nil
  | @token before gap text rest _ token tokens _ covers nonempty final _ behind
      inductionHypothesis =>
    refine List.pairwise_cons.mpr ⟨fun later member => ?_, inductionHypothesis⟩
    have present : text ≠ [] := by
      intro empty
      obtain ⟨f, fault⟩ := nonempty empty
      rw [(final f fault).2] at member
      cases member
    obtain ⟨more, left, -, starts, -⟩ := behind.starts later member
    rw [covers.start, starts, List.append_assoc (before ++ gap)]
    exact Place.behind_before _ (List.append_ne_nil_of_left_ne_nil present more)

/-- No text is empty, since a text is the characters that it covers, and only a fault covers
none. -/
theorem filled (tiled : Tiled trim before last source tokens) :
    ∀ token ∈ tokens, token.kind ≠ .text "" := by
  induction tiled with
  | done => exact fun _ member => nomatch member
  | @token _ _ text _ _ _ _ _ _ nonempty _ verbatim _ inductionHypothesis =>
    refine List.forall_mem_cons.mpr ⟨fun empty => ?_, inductionHypothesis⟩
    have none : text = [] := String.ofList_eq_empty_iff.mp (verbatim "" empty).symm
    obtain ⟨f, fault⟩ := nonempty none
    rw [empty] at fault
    cases fault

end Tiled

/-- Without a fault among them all pieces are gone through. A fault would end reading before what it
covers. -/
theorem finish_from {place : Place} {pieces : List Piece}
    (sound : ∀ token ∈ tokensFrom place pieces, ∀ f, token.kind ≠ .fault f) :
    finishFrom place pieces = place.past (pieces.flatMap Piece.text) := by
  induction pieces generalizing place with
  | nil => rfl
  | cons piece rest inductionHypothesis =>
    rw [List.flatMap_cons, Place.past_append]
    cases piece with
    | gap gap text => exact inductionHypothesis sound
    | token kind text =>
      obtain ⟨here, later⟩ := List.forall_mem_cons.mp sound
      cases kind with
      | fault f => exact absurd rfl (here f)
      | _ => exact inductionHypothesis later

/-- Reading a source with no fault in it ends behind its last character. -/
theorem finish_eq {trim : Bool} {source : String}
    (sound : ∀ token ∈ (Stream.ofSource trim source).tokens, ∀ f, token.kind ≠ .fault f) :
    (Stream.ofSource trim source).finish = Place.behind source.toList := by
  rw [← Place.past_first, ← flatMap_text_pieces trim (.text false) source.toList]
  exact finish_from sound

/-- A token of a source, in front of other tokens: the text that it covers, and where it is. Only a
fault covers nothing, and a fault covers the rest of its source. -/
structure Lies (source : String) (token : Token) (later : List Token)
    (before text behind : List Char) : Prop where
  parts : source.toList = before ++ text ++ behind
  covers : token.Covers before text
  raw : token.raw source = String.ofList text
  nonempty : text = [] → ∃ f, token.kind = .fault f
  final : ∀ f, token.kind = .fault f → behind = [] ∧ later = []
  verbatim : ∀ s, token.kind = .text s → s = token.raw source

/-- What lies between the tokens in front and those behind, of which it touches the nearest ones or
the ends of the source. -/
structure Parted (trim : Bool) (source : String) (earlier later : List Token)
    (before gap behind : List Char) : Prop where
  parts : source.toList = before ++ gap ++ behind
  start : Place.bytes before = (earlier.getLast?.map Token.stop).getD 0
  stop : Place.bytes (before ++ gap) =
    (later.head?.map (·.start.offset)).getD source.utf8ByteSize
  longest : Longest trim (earlier.getLast?.map Token.kind) gap (gap ++ behind)

/-- At the beginning of a source nothing has been skipped, and no end of a line is dropped. -/
theorem tiled_tokens (trim : Bool) (source : String) :
    Tiled trim [] none source.toList (Stream.ofSource trim source).tokens :=
  tiled_pieces trim (.text false) source.toList [] [] none fun more => by
    simp [Skipped, Mode.Skips]

/-- The tokens of a source are finitely many, in order and apart, each is where its text is, and
what they leave out is what may be skipped behind the token in front, all of it and nothing else. A
source with no fault in it does not end inside a tag. -/
theorem tokens_lossless (trim : Bool) (source : String) :
    let tokens := (Stream.ofSource trim source).tokens
    tokens.length ≤ source.length + 1 ∧
    (tokens.Pairwise fun earlier later => earlier.stop ≤ later.start.offset) ∧
    (∀ earlier token later, tokens = earlier ++ token :: later →
      ∃ before text behind, Lies source token later before text behind) ∧
    (∀ earlier later, tokens = earlier ++ later →
      ∃ before gap behind, Parted trim source earlier later before gap behind) ∧
    ((∀ token ∈ tokens, ∀ f, token.kind ≠ .fault f) →
      (tokens.getLast?.map Token.kind).any Kind.staysInTag = false) := by
  intro tokens
  have tiled : Tiled trim [] none source.toList tokens := tiled_tokens trim source
  refine ⟨String.length_toList ▸ tiled.length_le, tiled.ordered, ?_, ?_, fun sound => ?_⟩
  · intro earlier token later same
    obtain ⟨passed, left, parts, -, rest⟩ := (same ▸ tiled).append
    cases rest with
    | @token _ gap text behind _ _ _ longest covers nonempty final verbatim others =>
      have whole : source.toList = passed ++ gap ++ text ++ behind := by
        rw [parts, List.append_assoc, List.append_assoc, List.append_assoc]
      have raw : token.raw source = String.ofList text := covers.raw whole
      exact ⟨passed ++ gap, text, behind, whole, covers, raw, nonempty, final,
        fun s same => (verbatim s same).trans raw.symm⟩
  · intro earlier later same
    obtain ⟨passed, left, parts, reached, rest⟩ := (same ▸ tiled).append
    obtain ⟨gap, behind, rfl, longest, touches⟩ := rest.gap_first
    have whole : source.toList = passed ++ gap ++ behind := by rw [parts, List.append_assoc]
    refine ⟨passed, gap, behind, whole, reached, ?_, by simpa using longest⟩
    rw [← Place.bytes_toList, parts]
    exact touches
  · rw [Bool.eq_false_iff]
    intro inside
    obtain ⟨f, same⟩ := tiled.outside sound (by simpa using inside)
    cases same

/-- A source with all that may be skipped in it, and with a tag that has no end. Its first character
takes two bytes, so offsets and columns part from the start. -/
def unfinished : String := "\u00e9\x7b% if x%\x7d\n\x7b# n #\x7d\x7b\x7b"

/-- It ends with a fault that covers nothing, and between the end of its statement and the tag
behind it there are a line end and a comment. -/
theorem tokens_lossless_unfinished :
    (Stream.ofSource true unfinished).tokens =
      [⟨.text "\u00e9", ⟨0, 1, 1⟩, 2⟩, ⟨.opening .statement, ⟨2, 1, 2⟩, 4⟩,
        ⟨.keyword .if, ⟨5, 1, 5⟩, 7⟩, ⟨.name "x", ⟨8, 1, 8⟩, 9⟩,
        ⟨.closing .statement, ⟨9, 1, 9⟩, 11⟩, ⟨.opening .output, ⟨19, 2, 8⟩, 21⟩,
        ⟨.fault (.openTag .output), ⟨21, 2, 10⟩, 21⟩] ∧
    ∃ before gap behind, Parted true unfinished
      ((Stream.ofSource true unfinished).tokens.take 5)
      ((Stream.ofSource true unfinished).tokens.drop 5) before gap behind :=
  ⟨by decide +kernel,
    (tokens_lossless true unfinished).2.2.2.1 _ _ (List.take_append_drop 5 _).symm⟩

end Stencil.Token
