import Stencil.Proofs.Places
import Stencil.Proofs.Seams

/-!
# Line ends behind statements

A source can be read with the line end dropped that comes right behind a statement. That is one line
end for each statement, and nothing else: the tokens are those that the source has anyhow, but that
a text right behind the end of a statement is without the line end that it begins with, and is
missing if there is nothing else in it.

The proof goes through the source once and keeps the two readings side by side. They differ in their
mode only right behind a statement. There the one that drops the line end comes out at the next
piece as well, since no marker begins with a line end.
-/

namespace Stencil.Token

/-- The end of a line that a text begins with, if it does: a line feed, or a carriage return and a
line feed. A carriage return alone is none. -/
def lineEnd : List Char → List Char
  | '\n' :: _ => ['\n']
  | '\r' :: '\n' :: _ => ['\r', '\n']
  | _ => []

/-- A text without the line end that it begins with, or nothing if that is all there is. Tokens that
are no texts stay as they are. The text that is left starts behind the line end and ends where it
did. -/
def unended? (token : Token) : Option Token :=
  match token.kind with
  | .text s =>
    let dropped := lineEnd s.toList
    let left := s.toList.drop dropped.length
    if left = [] then none
    else some ⟨.text (String.ofList left), token.start.past dropped, token.stop⟩
  | _ => some token

/-- Whether a token starts where a statement ends, given the token in front. A comment between the
two keeps them apart. -/
def touches (last : Option Token) (token : Token) : Bool :=
  last.any fun before => before.kind == .closing .statement && before.stop == token.start.offset

/-- Tokens without the line ends right behind statements; `last` is the token in front of them. That
token is handed on as it was before anything was dropped from it. -/
def withoutLineEnds : Option Token → List Token → List Token
  | _, [] => []
  | last, token :: rest =>
    (if touches last token then token.unended?.toList else [token]) ++
      withoutLineEnds (some token) rest

section Cutting

variable (trim : Bool)

/-- Outside tags the text up to the next marker comes first, if there is any. So the pieces can be
told without asking whether a marker comes at once. Line ends are kept here, so that nothing but
text is in front of the marker. -/
theorem pieces_unmarked (source : List Char) :
    pieces trim (.text false) source =
      (if untilMarker source = 0 then []
        else [.token (.text (String.ofList (source.take (untilMarker source))))
          (source.take (untilMarker source))]) ++
        pieces trim (.text false) (source.drop (untilMarker source)) := by
  cases source with
  | nil => rfl
  | cons c rest =>
    rw [untilMarker]
    cases starts : startsMarker c rest with
    | true => simp
    | false =>
      have read : step trim (.text false) c rest = _ := textStep_plain starts
      rw [pieces_of_token read]
      simp

variable {c : Char} {rest : List Char}

/-- Where no line end comes first, none is dropped. With trimming on, the two cases in which one is
dropped are those that the premise excludes. -/
theorem textStep_unended (none : lineEnd (c :: rest) = []) :
    textStep true c rest = textStep false c rest := by
  rw [textStep_trimming, if_neg, if_neg]
  · rintro ⟨-, rfl, feeds⟩
    obtain ⟨others, rfl⟩ := List.head?_eq_some_iff.mp feeds
    cases none
  · rintro ⟨-, rfl⟩
    cases none

/-- Where one comes first, it is dropped, and reading goes on behind it. The next marker is as far
away as before, but for the line end, in either of the two ways in which a line end is written. -/
theorem pieces_ended {source : List Char} (some : lineEnd source ≠ []) :
    ∃ left, source = lineEnd source ++ left ∧
      untilMarker source = (lineEnd source).length + untilMarker left ∧
      pieces true (.text true) source =
        .gap .lineEnd (lineEnd source) :: pieces true (.text false) left := by
  unfold lineEnd at some ⊢
  split at some
  · next left =>
    refine ⟨left, rfl, ?_, ?_⟩
    · rw [untilMarker, if_neg (by simp [startsMarker]), List.length_singleton, Nat.add_comm]
    · have read : step true (.text true) '\n' left = .gap .lineEnd 0 (.text false) := rfl
      rw [pieces_of_gap read, List.take_zero, List.drop_zero]
  · next left =>
    refine ⟨left, rfl, ?_, ?_⟩
    · rw [untilMarker, if_neg (by simp [startsMarker]), untilMarker,
        if_neg (by simp [startsMarker])]
      simp only [List.length_cons, List.length_nil]
      omega
    · have read : step true (.text true) '\r' ('\n' :: left) =
          .gap .lineEnd 1 (.text false) := rfl
      rw [pieces_of_gap read]
      rfl
  · exact absurd rfl some

end Cutting

section Keeping

variable {last : Option Token} {token : Token}

/-- A token stays as it is if it would do so right behind a statement, or is not there. The premise
is all that has to be known of the token. -/
theorem withoutLineEnds_keeps (kept : touches last token = true → token.unended? = some token)
    (rest : List Token) :
    withoutLineEnds last (token :: rest) = token :: withoutLineEnds (some token) rest := by
  rw [withoutLineEnds]
  split
  · next touched =>
    rw [kept touched]
    rfl
  · rfl

/-- Only a text has a line end to be dropped. -/
theorem unended_other (other : ∀ s, token.kind ≠ .text s) : token.unended? = some token := by
  unfold unended?
  split
  · next s same => exact absurd same (other s)
  · rfl

/-- And one that begins otherwise has none. -/
theorem unended_plain {text : List Char} (filled : text ≠ []) (none : lineEnd text = [])
    (isText : token.kind = .text (String.ofList text)) : token.unended? = some token := by
  obtain ⟨kind, start, stop⟩ := token
  obtain rfl : kind = .text (String.ofList text) := isText
  simp [unended?, none, filled]

end Keeping

/-- How the reading that drops line ends stands to the one that keeps them, where both have come to
the same place in a source behind the same last token. The three cases are all there are, and every
piece leads from one of them to one of them. -/
inductive Lockstep : Mode → Mode → Option Token → Place → List Char → Prop
  /-- Inside a tag there is no difference. -/
  | tag (tag : Tag) (afterDot : Bool) (last : Option Token) (place : Place) (source : List Char) :
    Lockstep (.tag tag afterDot) (.tag tag afterDot) last place source
  /-- Nor is there one outside tags, if no line end comes right behind a statement. -/
  | text (trimming : Bool) (last : Option Token) (place : Place) (source : List Char)
    (unended : trimming = true → lineEnd source = [])
    (behind : ∀ token ∈ last, token.kind = .closing .statement →
      token.stop < place.offset ∨ token.stop = place.offset ∧ lineEnd source = []) :
    Lockstep (.text trimming) (.text false) last place source
  /-- Where one does, it is dropped. -/
  | ended (start place : Place) (source : List Char) (ends : lineEnd source ≠ []) :
    Lockstep (.text true) (.text false) (some ⟨.closing .statement, start, place.offset⟩) place
      source

section Steps

variable {tag : Tag} {afterDot : Bool} {c : Char} {rest : List Char} {more : Nat} {next : Mode}

/-- Behind a statement the two readings are in step. If a line end follows, one reading drops it and
the other has it in its next text. -/
theorem lockstep_closed (start place : Place) (source : List Char) :
    Lockstep (.text true) (.text false) (some ⟨.closing .statement, start, place.offset⟩) place
      source := by
  by_cases none : lineEnd source = []
  · refine .text true _ place source (fun _ => none) ?_
    rintro _ ⟨⟩ -
    exact .inr ⟨rfl, none⟩
  · exact .ended start place source none

/-- Behind another token they are as well. -/
theorem lockstep_other {kind : Kind} (other : kind ≠ .closing .statement) (start place : Place)
    (source : List Char) :
    Lockstep (.text false) (.text false) (some ⟨kind, start, place.offset⟩) place source := by
  refine .text false _ place source (by simp) ?_
  rintro _ ⟨⟩ closes
  exact absurd closes other

/-- What is in a tag besides blanks and its end: a token that leaves the source in the tag, or a
fault. Neither depends on whether line ends are dropped. -/
def Step.StaysIn (tag : Tag) : Step → Prop
  | .token kind _ next => kind.staysInTag = true ∧ ∃ afterDot, next = .tag tag afterDot
  | .gap .. => False
  | .fault _ => True

/-- A piece in a tag that is neither blank nor its end stays in the tag. The cases are those of the
characters that it may begin with, in the order in which they are tried. -/
theorem insideStep_stays (tag : Tag) (afterDot : Bool) (c : Char) (rest : List Char) :
    (insideStep tag afterDot c rest).StaysIn tag := by
  unfold insideStep
  split
  · exact ⟨rfl, _, rfl⟩
  · split
    · split
      · exact ⟨rfl, _, rfl⟩
      · trivial
    · split
      · unfold numberStep
        simp only
        split
        · exact ⟨rfl, _, rfl⟩
        · split
          · exact ⟨rfl, _, rfl⟩
          · trivial
      · split
        · unfold wordStep
          simp only
          split <;> exact ⟨rfl, _, rfl⟩
        · trivial

/-- In a tag both readings take the same token, and are in step behind it. At the end of a statement
they go on in different modes, which is the one place where they come apart. -/
theorem lockstep_tag {kind : Kind}
    (read : step false (.tag tag afterDot) c rest = .token kind more next) :
    (∀ s, kind ≠ .text s) ∧
      ∃ trimming, step true (.tag tag afterDot) c rest = .token kind more trimming ∧
        ∀ start place source,
          Lockstep trimming next (some ⟨kind, start, place.offset⟩) place source := by
  simp only [step, tagStep_eq] at read ⊢
  split at read
  · cases read
  · next notBlank =>
    rw [if_neg notBlank]
    split at read
    · next closes =>
      cases read
      exact ⟨by simp, .text true, if_pos closes, lockstep_closed⟩
    · next notStatement =>
      rw [if_neg notStatement]
      split at read
      · next closes =>
        cases read
        exact ⟨by simp, .text false, if_pos closes, lockstep_other (by decide)⟩
      · next notOutput =>
        have stays := insideStep_stays tag afterDot c rest
        rw [read] at stays
        obtain ⟨inside, further, rfl⟩ := stays
        refine ⟨?_, .tag tag further, ?_, fun start place source => .tag tag further _ place source⟩
        · rintro s rfl
          cases inside
        · rw [if_neg notOutput, read]

/-- What is no token in a tag is the same for both: a gap or a fault. The two readings differ only
in the mode behind the end of a tag, which is a token. -/
theorem same_in_tag (noToken : ∀ kind more next,
      step false (.tag tag afterDot) c rest ≠ .token kind more next) :
    step true (.tag tag afterDot) c rest = step false (.tag tag afterDot) c rest := by
  simp only [step, tagStep_eq] at noToken ⊢
  split
  · rfl
  · next notBlank =>
    rw [if_neg notBlank] at noToken
    split
    · next closes => exact absurd (if_pos closes) (noToken _ _ _)
    · rfl

/-- A gap in a tag leaves the mode as it is. Gaps there are blanks; neither the end of the tag nor
anything inside is one. -/
theorem gap_in_tag {gap : Gap} (read : step false (.tag tag afterDot) c rest = .gap gap more next) :
    next = .tag tag afterDot := by
  simp only [step, tagStep_eq] at read
  split at read
  · cases read
    rfl
  · split at read
    · cases read
    · split at read
      · cases read
      · have stays := insideStep_stays tag afterDot c rest
        rw [read] at stays
        exact stays.elim

/-- Outside tags a piece is the same for both unless it is a line end to be dropped. -/
theorem same_outside {trimming : Bool} (unended : trimming = true → lineEnd (c :: rest) = []) :
    step true (.text trimming) c rest = step false (.text false) c rest := by
  cases trimming with
  | false => rfl
  | true => exact textStep_unended (unended rfl)

/-- A line end begins a text: no marker begins with one, so the text goes on to the marker behind
it. -/
theorem step_line_end (some : lineEnd (c :: rest) ≠ []) :
    untilMarker (c :: rest) = untilMarker rest + 1 ∧
      step false (.text false) c rest =
        .token (.text (String.ofList (c :: rest.take (untilMarker rest)))) (untilMarker rest)
          (.text false) := by
  obtain ⟨left, -, reach, -⟩ := pieces_ended some
  have positive : 0 < (lineEnd (c :: rest)).length := List.length_pos_iff.mpr some
  cases starts : startsMarker c rest with
  | true =>
    rw [untilMarker, if_pos starts] at reach
    omega
  | false => exact ⟨if_neg (by simp [starts]), textStep_plain starts⟩

/-- Outside tags they are in step behind every token. A text is no end of a statement, and neither
is an opening, so there is no line end to drop behind it. -/
theorem lockstep_text {kind : Kind}
    (read : step false (.text false) c rest = .token kind more next) (start place : Place)
    (source : List Char) :
    Lockstep next next (some ⟨kind, start, place.offset⟩) place source := by
  simp only [step, textStep_eq] at read
  split at read
  · cases read
    exact .tag .statement false _ place source
  · split at read
    · cases read
      exact .tag .output false _ place source
    · split at read
      · split at read <;> cases read
      · cases read
        exact lockstep_other (by simp) start place source

/-- Behind a comment no line end is dropped. The comment has characters of its own, so the last
token ends before the place behind it. The premise says where the end of a statement has come to, if
that was the last token. -/
theorem lockstep_gap {gap : Gap} {last : Option Token} {place : Place}
    (read : step false (.text false) c rest = .gap gap more next)
    (behind : ∀ token ∈ last, token.kind = .closing .statement → token.stop ≤ place.offset)
    (source : List Char) :
    Lockstep next next last (place.past (c :: rest.take more)) source := by
  have outside : next = .text false := by
    simp only [step, textStep_eq] at read
    split at read
    · cases read
    · split at read
      · cases read
      · split at read
        · split at read <;> cases read
          rfl
        · cases read
  subst outside
  refine .text false last _ source (by simp) fun token member closes => .inl ?_
  have reached := behind token member closes
  have positive : 0 < c.utf8Size := c.utf8Size_pos
  rw [Place.offset_past, Place.bytes_cons]
  omega

end Steps

section Readings

variable {mode other : Mode} {last : Option Token} {place : Place} {source : List Char}

/-- The place where reading ends is found behind a token that is no fault. -/
theorem finish_token {kind : Kind} (sound : ∀ f, kind ≠ .fault f) (place : Place)
    (text : List Char) (rest : List Piece) :
    finishFrom place (.token kind text :: rest) = finishFrom (place.past text) rest := by
  cases kind with
  | fault f => exact absurd rfl (sound f)
  | _ => rfl

/-- A token that touches a statement is behind one that has just ended. There the premise excludes
line ends, and elsewhere nothing touches. -/
theorem none_of_touches {text : List Char} {kind : Kind} {stop : Nat}
    (apart : ∀ token ∈ last, token.kind = .closing .statement →
      token.stop < place.offset ∨ token.stop = place.offset ∧ lineEnd text = [])
    (touched : touches last ⟨kind, place, stop⟩ = true) : lineEnd text = [] := by
  cases last with
  | none => cases touched
  | some token =>
    simp only [touches, Option.any_some, Bool.and_eq_true, beq_iff_eq] at touched
    obtain ⟨closes, met⟩ := touched
    rcases apart token rfl closes with before | ⟨-, none⟩
    · omega
    · exact none

/-- The two readings of what is left of a source give the same tokens, but for the line ends that
one of them drops, and end at the same place. The last token in front is given, since it decides
whether the first one touches a statement. -/
def Agree (mode other : Mode) (last : Option Token) (place : Place) (source : List Char) : Prop :=
  tokensFrom place (pieces true mode source) =
      withoutLineEnds last (tokensFrom place (pieces false other source)) ∧
    finishFrom place (pieces true mode source) = finishFrom place (pieces false other source)

/-- They do if both take the same token and agree about what is behind it. The premise `kept` says
that the token itself has no line end to lose. -/
theorem agree_token {kind : Kind} {text left : List Char} {next trimming : Mode}
    (sound : ∀ f, kind ≠ .fault f)
    (parts : pieces true mode source = .token kind text :: pieces true trimming left)
    (otherParts : pieces false other source = .token kind text :: pieces false next left)
    (kept : touches last ⟨kind, place, (place.past text).offset⟩ = true →
      unended? ⟨kind, place, (place.past text).offset⟩ =
        some ⟨kind, place, (place.past text).offset⟩)
    (behind : Agree trimming next (some ⟨kind, place, (place.past text).offset⟩)
      (place.past text) left) : Agree mode other last place source := by
  obtain ⟨tokens, finish⟩ := behind
  rw [Agree, parts, otherParts, tokensFrom, tokensFrom, withoutLineEnds_keeps kept, tokens,
    finish_token sound, finish_token sound, finish]
  exact ⟨rfl, rfl⟩

/-- So they do if both skip the same gap. -/
theorem agree_gap {gap : Gap} {text left : List Char} {next trimming : Mode}
    (parts : pieces true mode source = .gap gap text :: pieces true trimming left)
    (otherParts : pieces false other source = .gap gap text :: pieces false next left)
    (behind : Agree trimming next last (place.past text) left) :
    Agree mode other last place source := by
  rw [Agree, parts, otherParts]
  exact behind

/-- And if both end with the same fault. A fault has no line end to lose, and there is no source
left behind it. -/
theorem agree_fault {f : Fault} {text : List Char}
    (parts : pieces true mode source = [.token (.fault f) text])
    (otherParts : pieces false other source = [.token (.fault f) text]) :
    Agree mode other last place source := by
  rw [Agree, parts, otherParts]
  refine ⟨?_, rfl⟩
  have kept : unended? ⟨.fault f, place, (place.past text).offset⟩ = _ := unended_other (by simp)
  rw [tokensFrom, withoutLineEnds_keeps fun _ => kept]
  rfl

/-- What follows does not matter to a line end, since it says itself where it ends. -/
theorem line_end_append {source : List Char} (some : lineEnd source ≠ []) (text : List Char) :
    lineEnd (lineEnd source ++ text) = lineEnd source := by
  unfold lineEnd at some
  split at some
  · rfl
  · rfl
  · exact absurd rfl some

/-- Where a source begins with no line end, no text at the front of it does. A carriage return at
the end of such a text is none. -/
theorem line_end_take {source : List Char} (none : lineEnd source = []) (count : Nat) :
    lineEnd (source.take count) = [] := by
  by_contra some
  obtain ⟨left, parts, -⟩ := pieces_ended some
  have whole : lineEnd (source.take count) ++ (left ++ source.drop count) = source := by
    rw [← List.append_assoc, ← parts, List.take_append_drop]
  have same := line_end_append some (left ++ source.drop count)
  rw [whole] at same
  exact some (same.symm.trans none)

/-- Right behind a statement a text loses the line end that it begins with: the reading that drops
line ends goes on with what is left of the text. If nothing is left, the text is no token at all,
and both readings are at the marker behind it. -/
theorem agree_ended {start : Place} (ends : lineEnd source ≠ [])
    (behind : ∀ s, Agree (.text false) (.text false)
      (some ⟨.text s, place, (place.past (source.take (untilMarker source))).offset⟩)
      (place.past (source.take (untilMarker source))) (source.drop (untilMarker source))) :
    Agree (.text true) (.text false) (some ⟨.closing .statement, start, place.offset⟩) place
      source := by
  obtain ⟨left, parts, reach, dropped⟩ := pieces_ended ends
  have positive : 0 < (lineEnd source).length := List.length_pos_iff.mpr ends
  have text : source.take (untilMarker source) =
      lineEnd source ++ left.take (untilMarker left) := by
    rw [reach]
    exact (congrArg (List.take _) parts).trans (List.take_length_add_append _)
  have others : source.drop (untilMarker source) = left.drop (untilMarker left) := by
    rw [reach]
    exact (congrArg (List.drop _) parts).trans (List.drop_length_add_append _)
  have kept := pieces_unmarked false source
  rw [if_neg (by omega), List.singleton_append] at kept
  obtain ⟨tokens, finish⟩ := behind (String.ofList (source.take (untilMarker source)))
  have touched : touches (some ⟨.closing .statement, start, place.offset⟩)
      ⟨.text (String.ofList (source.take (untilMarker source))), place,
        (place.past (source.take (untilMarker source))).offset⟩ = true := by
    simp [touches]
  rw [Agree, dropped, kept, tokensFrom, tokensFrom, withoutLineEnds, if_pos touched, ← tokens,
    finishFrom, finish_token (by simp), ← finish, pieces_unmarked true left, text, others]
  simp only [unended?, String.toList_ofList, line_end_append ends, List.drop_left,
    Place.past_append]
  by_cases short : untilMarker left = 0
  · simp [short]
  · have filled : left.take (untilMarker left) ≠ [] := by
      rw [Ne, List.take_eq_nil_iff, not_or]
      exact ⟨short, fun none => short (none ▸ rfl)⟩
    simp [short, filled, finish_token, tokensFrom]

/-- Where the two readings are in step, they agree. The induction goes along the pieces of the one
that keeps line ends: the other one takes a piece more only where a text begins with a line end that
is dropped. -/
theorem agree_of_lockstep (lockstep : Lockstep mode other last place source) :
    Agree mode other last place source := by
  induction other, source using pieces.induct false generalizing mode last place with
  | case1 trimming =>
    cases lockstep <;>
      simp only [Agree, pieces, tokensFrom, finishFrom, withoutLineEnds, and_self]
  | case2 tag afterDot =>
    cases lockstep
    exact agree_fault (by rw [pieces]) (by rw [pieces])
  | case3 other c rest kind more next read inductionHypothesis =>
    have kept := pieces_of_token read
    obtain ⟨sound, verbatim, -⟩ := follows_of_read read
    cases lockstep with
    | tag tag afterDot =>
      obtain ⟨noText, trimming, same, behind⟩ := lockstep_tag read
      exact agree_token sound (pieces_of_token same) kept (fun _ => unended_other noText)
        (inductionHypothesis (behind place _ _))
    -- No line end stands at the front here, so both readings take the same piece.
    | text trimming last place source unended apart =>
      have same := (same_outside unended).trans read
      refine agree_token sound (pieces_of_token same) kept (fun touched => ?_)
        (inductionHypothesis (lockstep_text read place _ _))
      have none : lineEnd (c :: rest) = [] := none_of_touches apart touched
      by_cases isText : ∃ s, kind = .text s
      · obtain ⟨s, rfl⟩ := isText
        have plain : lineEnd (c :: rest.take more) = [] := line_end_take none (more + 1)
        exact unended_plain (List.cons_ne_nil c _) plain (congrArg Kind.text (verbatim s rfl))
      · exact unended_other fun s isS => isText ⟨s, isS⟩
    -- The other reading takes two pieces here: the line end, which is dropped, and what is left of
    -- the text. Behind the text both are outside tags again.
    | ended start place source ends =>
      obtain ⟨reach, begins⟩ := step_line_end ends
      obtain ⟨rfl, rfl, rfl⟩ := Step.token.inj (begins.symm.trans read)
      refine agree_ended ends fun s => ?_
      have other : Kind.text s ≠ .closing .statement := by simp
      rw [reach]
      exact inductionHypothesis (lockstep_other other place _ _)
  | case4 other c rest gap more next read inductionHypothesis =>
    have kept := pieces_of_gap read
    cases lockstep with
    | tag tag afterDot =>
      obtain rfl := gap_in_tag read
      have same := (same_in_tag (by simp [read])).trans read
      exact agree_gap (pieces_of_gap same) kept (inductionHypothesis (.tag tag afterDot _ _ _))
    | text trimming last place source unended apart =>
      have same := (same_outside unended).trans read
      refine agree_gap (pieces_of_gap same) kept
        (inductionHypothesis (lockstep_gap read (fun token member closes => ?_) _))
      have behind := apart token member closes
      omega
    | ended start place source ends =>
      cases (step_line_end ends).2.symm.trans read
  | case5 other c rest f read =>
    have kept := pieces_of_fault read
    cases lockstep with
    | tag tag afterDot =>
      have same := (same_in_tag (by simp [read])).trans read
      exact agree_fault (pieces_of_fault same) kept
    | text trimming last place source unended apart =>
      exact agree_fault (pieces_of_fault ((same_outside unended).trans read)) kept
    | ended start place source ends =>
      cases (step_line_end ends).2.symm.trans read

end Readings

/-- With line ends dropped behind statements a source has the tokens that it has without, but that a
text right behind the end of a statement is without the one line end that it begins with. Reading
ends at the same place. -/
theorem trimming_drops_line_ends (source : String) :
    (Stream.ofSource true source).tokens =
        withoutLineEnds none (Stream.ofSource false source).tokens ∧
      (Stream.ofSource true source).finish = (Stream.ofSource false source).finish := by
  refine agree_of_lockstep (.text false none .first source.toList (by simp) ?_)
  rintro token ⟨⟩

/-- A line end of two characters is dropped as one, and the next one stays. -/
example : (Stream.ofSource true "\x7b% else %\x7d\r\n\n").tokens.map Token.kind =
    [.opening .statement, .keyword .else, .closing .statement, .text "\n"] := by decide +kernel

end Stencil.Token
