import Mathlib.Data.List.TakeWhile
import Stencil.Proofs.Gaps
import Stencil.Proofs.Segments

/-!
# Sources put together

Cutting a source into pieces looks ahead only as far as a piece goes, and a little further to see
where it ends. So where text is put behind a source that ends with a tag or with a comment, the
pieces of the source stay as they are, and the pieces of the text come behind them as if it stood
alone: each piece but the last one ends before the source does, and the last one is told by its own
closing characters.

One piece needs care. Behind the digits of a number a point may begin a fraction, which hangs on a
character beyond the point. But the source does not end with a point: its last character is a
brace.
-/

namespace Stencil.Token

/-- A piece that closes what it is part of: the end of a tag, or a comment. A piece of another kind
may go on in what is put behind it. -/
def Piece.Closes : Piece → Prop
  | .token (.closing _) _ | .gap .comment _ => True
  | .token _ _ | .gap _ _ => False

/-- The last piece of a source that is read from the given mode on, if there is one, is the end of a
tag or a comment. Line ends are kept. A source that ends with a text is not closed, since the text
would go on in what is put behind it. -/
def Closed (mode : Mode) (source : List Char) : Prop :=
  ∀ piece ∈ (pieces false mode source).getLast?, piece.Closes

section Scanning

variable {rest : List Char} (behind : List Char)

/-- A scan that stops before the end of a text stops there whatever comes behind. -/
theorem takeWhile_seam {p : Char → Bool} (short : (rest.takeWhile p).length < rest.length) :
    (rest ++ behind).takeWhile p = rest.takeWhile p := by
  rw [List.takeWhile_append, if_neg (Nat.ne_of_lt short)]

/-- And what it leaves goes on with what comes behind. The premise says that the passing stops
inside the text, so nothing behind can be passed. -/
theorem dropWhile_seam {p : Char → Bool} (short : (rest.takeWhile p).length < rest.length) :
    rest.dropWhile p ≠ [] ∧ (rest ++ behind).dropWhile p = rest.dropWhile p ++ behind := by
  have filled : rest.dropWhile p ≠ [] := by
    intro none
    have parts := congrArg List.length (List.takeWhile_append_dropWhile (p := p) (l := rest))
    rw [none, List.append_nil] at parts
    omega
  rw [List.dropWhile_append, if_neg (by simpa using filled)]
  exact ⟨filled, rfl⟩

/-- Whether a marker starts is told by two characters. -/
theorem starts_marker_seam (c : Char) (filled : rest ≠ []) :
    startsMarker c (rest ++ behind) = startsMarker c rest := by
  obtain ⟨d, others, rfl⟩ := List.exists_cons_of_ne_nil filled
  rw [List.cons_append]
  unfold startsMarker
  split <;> simp_all

/-- A marker has two characters, so something follows the first. -/
theorem starts_marker_filled {c : Char} (starts : startsMarker c rest = true) : rest ≠ [] := by
  rintro rfl
  unfold startsMarker at starts
  split at starts <;> simp_all

/-- A text that ends before the source does ends there whatever comes behind. The induction is over
the source: at each place whether a marker starts is told by two characters, and both are there. -/
theorem until_marker_seam (short : untilMarker rest < rest.length) :
    untilMarker (rest ++ behind) = untilMarker rest := by
  fun_induction untilMarker rest with
  | case1 => exact absurd short (Nat.not_lt_zero _)
  | case2 c rest starts =>
    rw [List.cons_append, untilMarker,
      if_pos ((starts_marker_seam behind c (starts_marker_filled starts)).trans starts)]
  | case3 c rest apart inductionHypothesis =>
    have shorter : untilMarker rest < rest.length := Nat.lt_of_succ_lt_succ short
    have filled : rest ≠ [] := List.length_pos_iff.mp (Nat.zero_lt_of_lt shorter)
    rw [List.cons_append, untilMarker, starts_marker_seam behind c filled, if_neg apart,
      inductionHypothesis shorter]

/-- Where a comment ends is found there whatever comes behind, since the search goes no further
than the end. The induction is that of the search; where it goes on, no end begins, and none does
with the text behind it. -/
theorem comment_end_seam {more : Nat} (found : throughCommentEnd rest = some more) :
    throughCommentEnd (rest ++ behind) = some more ∧ more ≤ rest.length := by
  fun_induction throughCommentEnd rest generalizing more with
  | case1 => cases found
  | case2 =>
    obtain rfl := Option.some.inj found
    exact ⟨rfl, by simp⟩
  | case3 c rest apart inductionHypothesis =>
    obtain ⟨fewer, inside, rfl⟩ := Option.map_eq_some_iff.mp found
    obtain ⟨same, fits⟩ := inductionHypothesis inside
    refine ⟨?_, Nat.succ_le_succ fits⟩
    have goesOn : throughCommentEnd (c :: (rest ++ behind)) =
        (throughCommentEnd (rest ++ behind)).map (· + 1) := by
      refine throughCommentEnd.eq_3 c (rest ++ behind) fun others hash ends => ?_
      cases rest with
      | nil => cases inside
      | cons d others => exact apart others hash (by simp_all)
    rw [List.cons_append, goesOn, same]
    rfl

/-- A text in quotation marks is read up to its closing mark whatever comes behind. An escape takes
the next character along, which is there as long as the closing mark is still to come. -/
theorem quoted_seam {quote : Char} {found : List Char × Nat}
    (ended : quoted quote rest = some found) : quoted quote (rest ++ behind) = some found := by
  fun_induction quoted quote rest generalizing found with
  | case1 => cases ended
  | case2 rest =>
    rw [List.cons_append, quoted.eq_def]
    exact (if_pos rfl).trans ended
  | case3 apart => cases ended
  | case4 escaped others apart inductionHypothesis =>
    obtain ⟨inside, read, rfl⟩ := Option.map_eq_some_iff.mp ended
    rw [List.cons_append, List.cons_append, quoted.eq_def]
    simp only [if_neg apart, if_true, inductionHypothesis read, Option.map_some]
  | case5 c rest apart plain inductionHypothesis =>
    obtain ⟨inside, read, rfl⟩ := Option.map_eq_some_iff.mp ended
    rw [List.cons_append, quoted.eq_def]
    simp only [if_neg apart, if_neg plain, inductionHypothesis read, Option.map_some]

/-- A text in quotation marks lies within the source. The induction follows the scan, which takes
two characters for an escape and one for all else. -/
theorem quoted_within {quote : Char} {found : List Char × Nat}
    (ended : quoted quote rest = some found) : found.2 ≤ rest.length := by
  fun_induction quoted quote rest generalizing found with
  | case1 => cases ended
  | case2 rest =>
    obtain rfl := Option.some.inj ended
    exact Nat.succ_le_succ (Nat.zero_le _)
  | case3 apart => cases ended
  | case4 escaped others apart inductionHypothesis =>
    obtain ⟨inside, read, rfl⟩ := Option.map_eq_some_iff.mp ended
    exact Nat.add_le_add_right (inductionHypothesis read) 2
  | case5 c rest apart plain inductionHypothesis =>
    obtain ⟨inside, read, rfl⟩ := Option.map_eq_some_iff.mp ended
    exact Nat.add_le_add_right (inductionHypothesis read) 1

/-- A text lies within the source. -/
theorem until_marker_within (rest : List Char) : untilMarker rest ≤ rest.length := by
  fun_induction untilMarker rest with
  | case1 => exact Nat.le_refl 0
  | case2 c rest starts => exact Nat.zero_le _
  | case3 c rest apart inductionHypothesis => exact Nat.succ_le_succ inductionHypothesis

/-- Whether a sign is read, and which, is told by two characters. -/
theorem sign_seam (c : Char) (filled : rest ≠ []) : sign? c (rest ++ behind) = sign? c rest := by
  obtain ⟨d, others, rfl⟩ := List.exists_cons_of_ne_nil filled
  rw [List.cons_append]
  unfold sign?
  split <;> simp_all

/-- A sign lies within the source. -/
theorem sign_within {c : Char} {sign : Sign} {more : Nat}
    (read : sign? c rest = some (sign, more)) : more ≤ rest.length := by
  unfold sign? at read
  split at read <;> cases read <;> simp

end Scanning

section Braces

variable {rest : List Char}

/-- A scan that does not pass a brace stops before the end of a text that ends with one. So every
scan for blanks, digits or letters does. -/
theorem takeWhile_short (brace : ['}'] <:+ rest) {p : Char → Bool} (stops : p '}' = false) :
    (rest.takeWhile p).length < rest.length := by
  have fits : rest.takeWhile p <+: rest := List.takeWhile_prefix p
  refine Nat.lt_of_le_of_ne fits.length_le fun same => ?_
  have inside : '}' ∈ rest.takeWhile p := by
    rw [fits.eq_of_length same]
    exact brace.subset List.mem_cons_self
  have passes : p '}' = true := List.all_eq_true.mp List.all_takeWhile '}' inside
  rw [stops] at passes
  cases passes

/-- A fraction with its point lies within the source. -/
theorem fraction_within {text places : List Char} (found : fraction? text = some places) :
    places.length + 1 ≤ text.length := by
  unfold fraction? at found
  split at found
  · simp only at found
    split at found
    · cases found
    · obtain rfl := Option.some.inj found
      exact Nat.succ_le_succ (List.takeWhile_prefix _).length_le
  · cases found

/-- A brace is no digit. -/
theorem brace_no_digit : Char.isDigit '}' = false := by decide

/-- Whether a fraction follows hangs on the character behind its point, and how far it goes on a
character that is no digit. A text that ends with a brace has both, so what comes behind it changes
neither. -/
theorem fraction_seam (brace : ['}'] <:+ rest) (behind : List Char) :
    fraction? (rest ++ behind) = fraction? rest := by
  cases rest with
  | nil => cases List.suffix_nil.mp brace
  | cons c others =>
    by_cases point : c = '.'
    · subst point
      have ends : ['}'] <:+ others := by
        rcases List.suffix_cons_iff.mp brace with whole | later
        · cases whole
        · exact later
      have digits := takeWhile_seam behind (takeWhile_short ends brace_no_digit)
      rw [List.cons_append]
      unfold fraction?
      simp only [digits]
    · have noPoint (text : List Char) : fraction? (c :: text) = none := by
        unfold fraction?
        split
        · simp_all
        · rfl
      rw [List.cons_append, noPoint, noPoint]

end Braces

/-- What holds of every piece but a fault: it lies within the source, no line end is dropped behind
it, and if it closes what it is part of, it ends with a brace. Line ends are kept here, so the mode
that drops them is never reached. -/
def Step.Regular (rest : List Char) : Step → Prop
  | .token kind more next => more ≤ rest.length ∧ next ≠ .text true ∧
      (∀ tag, kind = .closing tag → ['}'] <:+ rest.take more)
  | .gap skip more next => more ≤ rest.length ∧ next ≠ .text true ∧
      (skip = .comment → ['}'] <:+ rest.take more)
  | .fault _ => True

section Regularity

variable (tag : Tag) (afterDot : Bool) (c : Char) (rest : List Char)

/-- A number lies within the source and leaves it inside the tag, be it whole or with a fraction.
Its digits are the first ones of the source, and a fraction lies in what is behind them. -/
theorem numberStep_regular : (numberStep tag afterDot c rest).Regular rest := by
  have parts := congrArg List.length
    (List.takeWhile_append_dropWhile (p := Char.isDigit) (l := rest))
  rw [List.length_append] at parts
  simp only [numberStep]
  split
  · next places found =>
    refine ⟨?_, by simp, by simp⟩
    split at found
    · cases found
    · have within := fraction_within found
      omega
  · split
    · exact ⟨by omega, by simp, by simp⟩
    · trivial

/-- A word lies within the source and leaves it inside the tag. Whether it is a keyword makes no
difference to this. -/
theorem wordStep_regular : (wordStep tag c rest).Regular rest := by
  have fits : (rest.takeWhile Text.continuesWord).length ≤ rest.length :=
    (List.takeWhile_prefix _).length_le
  unfold wordStep
  simp only
  split
  · exact ⟨fits, by simp, by simp⟩
  · exact ⟨fits, by simp, by simp⟩

/-- Every piece of a tag is regular. The steps are gone through in the order in which they are
tried; only the two ends of tags close anything, and both end with a brace. -/
theorem tagStep_regular : (tagStep false tag afterDot c rest).Regular rest := by
  unfold tagStep
  split
  · exact ⟨(List.takeWhile_prefix _).length_le, by simp, by simp⟩
  · split
    · exact ⟨by simp, by simp, fun _ _ => ⟨[], rfl⟩⟩
    · exact ⟨by simp, by simp, fun _ _ => ⟨[], rfl⟩⟩
    · split
      · next read => exact ⟨sign_within read, by simp, by simp⟩
      · split
        · split
          · next read => exact ⟨quoted_within read, by simp, by simp⟩
          · trivial
        · split
          · exact numberStep_regular tag afterDot _ _
          · split
            · exact wordStep_regular tag _ _
            · trivial

/-- Every piece outside tags is regular; of these only a comment closes anything. -/
theorem textStep_regular : (textStep false c rest).Regular rest := by
  unfold textStep
  split
  · next trims => cases trims
  · next trims => cases trims
  · exact ⟨by simp, by simp, by simp⟩
  · exact ⟨by simp, by simp, by simp⟩
  · split
    · next found =>
      refine ⟨(comment_end_seam [] found).2, by simp, fun _ => ?_⟩
      exact List.IsSuffix.trans ⟨['#'], rfl⟩ (comment_end found).1
    · trivial
  · exact ⟨until_marker_within _, by simp, by simp⟩

/-- Every piece is regular, in every mode that is reached without dropping line ends. In the mode
that drops them a piece may be a line end alone, which closes nothing. -/
theorem step_regular {mode : Mode} (untrimmed : mode ≠ .text true) :
    (step false mode c rest).Regular rest := by
  cases mode with
  | text trimming =>
    cases trimming with
    | false => exact textStep_regular c rest
    | true => exact absurd rfl untrimmed
  | tag tag afterDot => exact tagStep_regular tag afterDot c rest

end Regularity

section Steps

variable (tag : Tag) (afterDot : Bool) (c : Char) {rest : List Char}

/-- What is left of a text that ends with a brace does so too. -/
theorem brace_behind {text : List Char} (brace : ['}'] <:+ rest) (left : text <:+ rest)
    (filled : text ≠ []) : ['}'] <:+ text :=
  List.suffix_of_suffix_length_le brace left (List.length_pos_iff.mpr filled)

/-- A number in front of a brace is read as it is whatever comes behind the brace. Its digits end in
front of the brace, and so do those of a fraction. -/
theorem numberStep_seam (brace : ['}'] <:+ rest) (behind : List Char) :
    numberStep tag afterDot c (rest ++ behind) = numberStep tag afterDot c rest := by
  have short := takeWhile_short brace brace_no_digit
  obtain ⟨filled, dropped⟩ := dropWhile_seam behind short
  have ends : ['}'] <:+ rest.dropWhile Char.isDigit :=
    brace_behind brace (List.dropWhile_suffix _) filled
  unfold numberStep
  simp only [takeWhile_seam behind short, dropped, fraction_seam ends behind]

/-- So is a word. -/
theorem wordStep_seam (brace : ['}'] <:+ rest) (behind : List Char) :
    wordStep tag c (rest ++ behind) = wordStep tag c rest := by
  have stops : Text.continuesWord '}' = false := by decide
  unfold wordStep
  simp only [takeWhile_seam behind (takeWhile_short brace stops)]

/-- The piece in a tag that is neither a blank nor the end of the tag. It is set apart because what
follows needs these three to be treated differently. -/
def insideStep (rest : List Char) : Step :=
  match sign? c rest with
  | some (sign, more) => .token (.sign sign) more (.tag tag (sign == .dot))
  | none =>
    if c = '\'' ∨ c = '"' then
      match quoted c rest with
      | some (text, more) => .token (.string (String.ofList text)) more (.tag tag false)
      | none => .fault .openString
    else if c.isDigit then numberStep tag afterDot c rest
    else if Text.startsWord c then wordStep tag c rest
    else .fault (.stray c)

/-- What no pattern with two characters fits does not begin with these two. It turns the patterns of
a step into conditions on the character and the one behind it. -/
theorem head_apart {c first second : Char} {rest : List Char}
    (apart : ∀ others, c = first → rest = second :: others → False) :
    ¬(c = first ∧ rest.head? = some second) := by
  rintro ⟨here, next⟩
  obtain ⟨others, rfl⟩ := List.head?_eq_some_iff.mp next
  exact apart others here rfl

/-- What a step in a tag looks at: the character and the one behind it tell the end of the tag. So
told, the step can be compared with the one in a source that goes on, where only what is behind
differs. -/
theorem tagStep_eq (trim : Bool) (rest : List Char) : tagStep trim tag afterDot c rest =
    if Text.isBlank c then
      .gap .blank (rest.takeWhile Text.isBlank).length (.tag tag afterDot)
    else if c = '%' ∧ rest.head? = some '}' then .token (.closing .statement) 1 (.text trim)
    else if c = '}' ∧ rest.head? = some '}' then .token (.closing .output) 1 (.text false)
    else insideStep tag afterDot c rest := by
  unfold tagStep
  split
  · rfl
  · split
    · simp
    · simp
    · next noStatement noOutput =>
      rw [if_neg (head_apart noStatement), if_neg (head_apart noOutput)]
      rfl

/-- What a step outside tags looks at: the character and the one behind it tell a marker. What no
marker begins is text up to the next one. -/
theorem textStep_eq (rest : List Char) : textStep false c rest =
    if c = '{' ∧ rest.head? = some '%' then .token (.opening .statement) 1 (.tag .statement false)
    else if c = '{' ∧ rest.head? = some '{' then .token (.opening .output) 1 (.tag .output false)
    else if c = '{' ∧ rest.head? = some '#' then
      match throughCommentEnd rest with
      | some more => .gap .comment more (.text false)
      | none => .fault .openComment
    else
      .token (.text (String.ofList (c :: rest.take (untilMarker rest)))) (untilMarker rest)
        (.text false) := by
  unfold textStep
  split
  · next trims => cases trims
  · next trims => cases trims
  · simp
  · simp
  · rw [if_neg (by simp), if_neg (by simp)]
    exact (if_pos ⟨rfl, rfl⟩).symm
  · next noStatement noOutput noComment _ _ =>
    rw [if_neg (head_apart noStatement), if_neg (head_apart noOutput),
      if_neg (head_apart noComment)]

/-- What a step outside tags looks at besides, where line ends are dropped: only whether the end of
a line begins here. Everything else is read as if line ends were kept. -/
theorem textStep_trimming (trimming : Bool) (rest : List Char) : textStep trimming c rest =
    if trimming = true ∧ c = '\n' then .gap .lineEnd 0 (.text false)
    else if trimming = true ∧ c = '\r' ∧ rest.head? = some '\n' then
      .gap .lineEnd 1 (.text false)
    else textStep false c rest := by
  conv => lhs; unfold textStep
  split
  · rfl
  · rfl
  · simp [textStep]
  · simp [textStep]
  · simp [textStep]
  · next noFeed noStatement noOutput noComment noReturn =>
    have single : ¬(trimming = true ∧ c = '\n') := fun both => noFeed both.1 both.2
    have double : ¬(trimming = true ∧ c = '\r' ∧ rest.head? = some '\n') := by
      rintro ⟨trims, here, next⟩
      obtain ⟨others, rfl⟩ := List.head?_eq_some_iff.mp next
      exact noReturn others trims here rfl
    rw [if_neg single, if_neg double, textStep_eq, if_neg (head_apart noStatement),
      if_neg (head_apart noOutput), if_neg (head_apart noComment)]

/-- What can be read in a tag in front of a brace is read as it is whatever comes behind the brace.
A text in quotation marks is the one piece that might go past the brace; it is readable only if its
closing mark is there. -/
theorem insideStep_seam (brace : ['}'] <:+ rest) (filled : rest ≠ [])
    (sound : ∀ f, insideStep tag afterDot c rest ≠ .fault f) (behind : List Char) :
    insideStep tag afterDot c (rest ++ behind) = insideStep tag afterDot c rest := by
  unfold insideStep at sound ⊢
  rw [sign_seam behind c filled, numberStep_seam tag afterDot c brace behind,
    wordStep_seam tag c brace behind]
  cases signs : sign? c rest with
  | some found => rfl
  | none =>
    simp only [signs] at sound ⊢
    by_cases mark : c = '\'' ∨ c = '"'
    · simp only [if_pos mark] at sound ⊢
      cases read : quoted c rest with
      | none =>
        rw [read] at sound
        exact absurd rfl (sound .openString)
      | some found => rw [quoted_seam behind read]
    · rw [if_neg mark, if_neg mark]

/-- In a tag every piece that can be read ends before the brace, or with it, so nothing that comes
behind the brace changes it. The premise leaves faults out, for a text without its closing mark may
have it behind the brace. -/
theorem tagStep_seam (brace : ['}'] <:+ rest)
    (sound : ∀ f, tagStep false tag afterDot c rest ≠ .fault f) (behind : List Char) :
    tagStep false tag afterDot c (rest ++ behind) = tagStep false tag afterDot c rest := by
  have filled : rest ≠ [] := by
    rintro rfl
    cases List.suffix_nil.mp brace
  have stops : Text.isBlank '}' = false := by decide
  have blanks := takeWhile_seam behind (takeWhile_short brace stops)
  simp only [tagStep_eq, List.head?_append_of_ne_nil rest filled, blanks] at sound ⊢
  split
  · rfl
  · next notBlank =>
    simp only [if_neg notBlank] at sound
    split
    · rfl
    · next notStatement =>
      simp only [if_neg notStatement] at sound
      split
      · rfl
      · next notOutput =>
        simp only [if_neg notOutput] at sound
        exact insideStep_seam tag afterDot c brace filled sound behind

/-- Outside tags nothing that comes behind changes a piece either, but for a text that goes on to
the end of the source; that case is shut out by the last premise. -/
theorem textStep_seam (sound : ∀ f, textStep false c rest ≠ .fault f)
    (ended : ∀ text more next, textStep false c rest = .token (.text text) more next →
      more < rest.length) (behind : List Char) :
    textStep false c (rest ++ behind) = textStep false c rest := by
  have filled : rest ≠ [] := by
    rintro rfl
    have plain := textStep_eq c []
    simp only [List.head?_nil, reduceCtorEq, and_false, if_false] at plain
    exact absurd (ended _ _ _ plain) (Nat.not_lt_zero _)
  simp only [textStep_eq, List.head?_append_of_ne_nil rest filled] at sound ended ⊢
  split
  · rfl
  · next notStatement =>
    simp only [if_neg notStatement] at sound ended
    split
    · rfl
    · next notOutput =>
      simp only [if_neg notOutput] at sound ended
      split
      · next comment =>
        simp only [if_pos comment] at sound
        cases found : throughCommentEnd rest with
        | none =>
          rw [found] at sound
          exact absurd rfl (sound .openComment)
        | some more => rw [(comment_end_seam behind found).1]
      · next notComment =>
        simp only [if_neg notComment] at ended
        have short : untilMarker rest < rest.length := ended _ _ _ rfl
        rw [until_marker_seam behind short, List.take_append_of_le_length (Nat.le_of_lt short)]

end Steps

section Pieces

variable {mode : Mode} {c : Char} {rest : List Char}

/-- In front of a brace every piece that can be read is told by what it is made of, but for a text
that goes on to the end. It puts the two kinds of modes together. -/
theorem step_seam (untrimmed : mode ≠ .text true) (brace : ['}'] <:+ c :: rest)
    (sound : ∀ f, step false mode c rest ≠ .fault f)
    (ended : ∀ text more next, step false mode c rest = .token (.text text) more next →
      more < rest.length) (behind : List Char) :
    step false mode c (rest ++ behind) = step false mode c rest := by
  cases mode with
  | text trimming =>
    cases trimming with
    | false => exact textStep_seam c sound ended behind
    | true => exact absurd rfl untrimmed
  | tag tag afterDot =>
    rcases List.suffix_cons_iff.mp brace with alone | later
    · obtain ⟨rfl, rfl⟩ := List.cons.inj alone
      exact absurd rfl (sound (.stray '}'))
    · exact tagStep_seam tag afterDot c later sound behind

/-- What is left behind the first piece of a closed source is closed. -/
theorem closed_behind {source left : List Char} {piece : Piece} {next : Mode}
    (closed : Closed mode source)
    (parts : pieces false mode source = piece :: pieces false next left) : Closed next left := by
  intro last found
  refine closed last ?_
  rw [parts, List.getLast?_cons, Option.mem_def.mp found]
  rfl

/-- Where nothing is left behind a piece of a closed source, the piece closes. If the piece left the
source inside a tag, the tag would be unfinished, and a fault would be the last piece. -/
theorem closes_last {source : List Char} {piece : Piece} {next : Mode}
    (closed : Closed mode source)
    (parts : pieces false mode source = piece :: pieces false next []) : piece.Closes := by
  cases next with
  | text trimming =>
    refine closed piece ?_
    rw [parts, pieces]
    rfl
  | tag tag afterDot =>
    have unfinished := closed (.token (.fault (.openTag tag)) [])
    rw [parts, pieces] at unfinished
    exact (unfinished rfl).elim

/-- So the source ends with a brace, if what is left behind the piece does or nothing is left. In
the second case it is the piece itself that closes the source. -/
theorem brace_of_piece {piece : Piece} {more : Nat} {next : Mode}
    (closed : Closed mode (c :: rest))
    (parts : pieces false mode (c :: rest) = piece :: pieces false next (rest.drop more))
    (ends : piece.Closes → ['}'] <:+ rest.take more)
    (behind : rest.drop more = [] ∨ ['}'] <:+ rest.drop more) : ['}'] <:+ c :: rest := by
  refine List.IsSuffix.trans ?_ (List.suffix_cons c rest)
  rcases behind with none | later
  · rw [none] at parts
    have whole : rest.take more = rest := List.take_of_length_le (List.drop_eq_nil_iff.mp none)
    exact whole ▸ ends (closes_last closed parts)
  · exact later.trans (List.drop_suffix more rest)

/-- A closed source ends with a brace. The induction is along the pieces, on the length of what is
left: the last piece closes, and all that close end with a brace. -/
theorem closed_brace {source : List Char} (untrimmed : mode ≠ .text true)
    (closed : Closed mode source) : source = [] ∨ ['}'] <:+ source := by
  induction mode, source using pieces.induct false with
  | case1 trimming => exact .inl rfl
  | case2 tag afterDot => exact .inl rfl
  | case3 mode c rest kind more next read inductionHypothesis =>
    have parts := pieces_of_token read
    obtain ⟨-, keeps, ends⟩ := read ▸ step_regular c rest untrimmed
    refine .inr (brace_of_piece closed parts (fun closes => ?_)
      (inductionHypothesis keeps (closed_behind closed parts)))
    cases kind with
    | closing tag => exact ends tag rfl
    | _ => exact closes.elim
  | case4 mode c rest gap more next read inductionHypothesis =>
    have parts := pieces_of_gap read
    obtain ⟨-, keeps, ends⟩ := read ▸ step_regular c rest untrimmed
    refine .inr (brace_of_piece closed parts (fun closes => ?_)
      (inductionHypothesis keeps (closed_behind closed parts)))
    cases gap with
    | comment => exact ends rfl
    | _ => exact closes.elim
  | case5 mode c rest f read =>
    have unread := closed (.token (.fault f) (c :: rest))
    rw [pieces_of_fault read] at unread
    exact (unread rfl).elim

/-- The first piece of a closed source stays as it is, since it ends before the source does or
closes what it is part of. This is where the brace at the end of the source comes in. -/
theorem step_of_closed (untrimmed : mode ≠ .text true) (closed : Closed mode (c :: rest))
    (sound : ∀ f, step false mode c rest ≠ .fault f) (behind : List Char) :
    step false mode c (rest ++ behind) = step false mode c rest := by
  have brace : ['}'] <:+ c :: rest :=
    (closed_brace untrimmed closed).resolve_left (List.cons_ne_nil c rest)
  refine step_seam untrimmed brace sound (fun text more next read => ?_) behind
  have parts := pieces_of_token read
  obtain ⟨fits, -⟩ := read ▸ step_regular c rest untrimmed
  refine Nat.lt_of_le_of_ne fits fun whole => ?_
  rw [List.drop_of_length_le (Nat.le_of_eq whole.symm)] at parts
  exact (closes_last closed parts).elim

/-- Text behind a source that is closed leaves its pieces as they are. The induction goes through
the pieces: each is read as before, and where the last one ends the mode is that of text. -/
theorem pieces_append {source : List Char} (untrimmed : mode ≠ .text true)
    (sound : ∀ f text, .token (.fault f) text ∉ pieces false mode source)
    (closed : Closed mode source) (behind : List Char) :
    pieces false mode (source ++ behind) =
      pieces false mode source ++ pieces false (.text false) behind := by
  induction mode, source using pieces.induct false with
  | case1 trimming =>
    cases trimming with
    | false => simp [pieces]
    | true => exact absurd rfl untrimmed
  | case2 tag afterDot =>
    rw [pieces] at sound
    exact absurd List.mem_cons_self (sound (.openTag tag) [])
  -- A closed source is read in the same steps, whatever is behind it, since no step looks further.
  | case3 mode c rest kind more next read inductionHypothesis =>
    have parts := pieces_of_token read
    have same := (step_of_closed untrimmed closed (by simp [read]) behind).trans read
    obtain ⟨fits, keeps, -⟩ := read ▸ step_regular c rest untrimmed
    rw [parts] at sound
    have later := inductionHypothesis keeps
      (fun f text member => sound f text (List.mem_cons_of_mem _ member))
      (closed_behind closed parts)
    rw [parts, List.cons_append, pieces_of_token same, List.take_append_of_le_length fits,
      List.drop_append_of_le_length fits, later, List.cons_append]
  | case4 mode c rest gap more next read inductionHypothesis =>
    have parts := pieces_of_gap read
    have same := (step_of_closed untrimmed closed (by simp [read]) behind).trans read
    obtain ⟨fits, keeps, -⟩ := read ▸ step_regular c rest untrimmed
    rw [parts] at sound
    have later := inductionHypothesis keeps
      (fun f text member => sound f text (List.mem_cons_of_mem _ member))
      (closed_behind closed parts)
    rw [parts, List.cons_append, pieces_of_gap same, List.take_append_of_le_length fits,
      List.drop_append_of_le_length fits, later, List.cons_append]
  | case5 mode c rest f read =>
    rw [pieces_of_fault read] at sound
    exact absurd List.mem_cons_self (sound f (c :: rest))

/-- Text behind a source that is closed leaves its tokens as they are, and has those it has on its
own. That no token is a fault is needed, since a fault takes in all that follows. -/
theorem kinds_append {source : List Char} (sound : ∀ f, .fault f ∉ kinds (.text false) source)
    (closed : Closed (.text false) source) (behind : List Char) :
    kinds (.text false) (source ++ behind) =
      kinds (.text false) source ++ kinds (.text false) behind := by
  have whole : ∀ f text, .token (.fault f) text ∉ pieces false (.text false) source :=
    fun f text member => sound f (List.mem_filterMap.mpr ⟨_, member, rfl⟩)
  have untrimmed : Mode.text false ≠ .text true := nofun
  rw [kinds, pieces_append untrimmed whole closed behind, List.filterMap_append, kinds, kinds]

end Pieces

end Stencil.Token
