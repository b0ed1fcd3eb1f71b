import Stencil.Proofs.Seams

/-!
# How far a piece looks ahead

A piece is told from the characters that it is made of and a few behind them. A text outside tags
ends at the marker of a tag or a comment, which is two characters long. Inside a tag a word, a
number or a sign goes on as long as it can, and for this one character behind it is looked at, or
two where a point may begin a fraction. No blank makes any of them go on.

So a piece that lies in the front of a source is the same wherever blanks are put behind the front.
It may end right there if it is inside a tag; outside tags the marker behind it has to lie in the
front as well.
-/

namespace Stencil

namespace Text

variable {c : Char}

/-- No word goes on with a blank, whichever of the blank characters it is. The tables of blanks and
of numerals have no code point in common, which is checked range by range. -/
theorem blank_ends_word (blank : isBlank c = true) : continuesWord c = false := by
  have noStart : startsWord c = false := by
    rw [Bool.eq_false_iff]
    intro starts
    rw [(startsWord_apart starts).1] at blank
    cases blank
  obtain ⟨noLetter, noLowLine⟩ := Bool.or_eq_false_iff.mp noStart
  have numeralApart : ∀ a ∈ Text.blank, ∀ b ∈ numeric, a.2 < b.1 ∨ b.2 < a.1 := by
    decide +kernel
  have noNumeral : isNumeral c = false := covers_apart numeralApart blank
  rw [continuesWord, noLetter, noNumeral, noLowLine]
  rfl

/-- Nor does a number, for a digit is a character that words go on with. -/
theorem blank_ends_number (blank : isBlank c = true) : c.isDigit = false := by
  rw [Bool.eq_false_iff]
  intro digit
  rw [digit_not_blank digit] at blank
  cases blank

end Text

namespace Token

section Scanning

variable {front behind blanks : List Char}

/-- A scan that stops in the front of a text, or where blanks are put behind the front, stops at
the same place with them. What it leaves is the same up to the blanks. The induction is over the
front. -/
theorem takeWhile_blanks {p : Char → Bool} (blank : ∀ c ∈ blanks, Text.isBlank c = true)
    (stops : ∀ c, Text.isBlank c = true → p c = false)
    (fits : ((front ++ behind).takeWhile p).length ≤ front.length) :
    (front ++ (blanks ++ behind)).takeWhile p = (front ++ behind).takeWhile p ∧
      ∃ left, front.length = ((front ++ behind).takeWhile p).length + left.length ∧
        (front ++ behind).dropWhile p = left ++ behind ∧
        (front ++ (blanks ++ behind)).dropWhile p = left ++ (blanks ++ behind) := by
  induction front with
  | nil =>
    have none : behind.takeWhile p = [] := List.length_eq_zero_iff.mp (Nat.le_zero.mp fits)
    have rest : behind.dropWhile p = behind := by
      have parts := List.takeWhile_append_dropWhile (p := p) (l := behind)
      rwa [none, List.nil_append] at parts
    cases blanks with
    | nil => exact ⟨rfl, [], by simp [none], rest, rest⟩
    | cons b others =>
      have ends : p b = false := stops b (blank b List.mem_cons_self)
      simp [none, rest, ends]
  | cons c front inductionHypothesis =>
    by_cases passes : p c = true
    · simp only [List.cons_append, List.takeWhile_cons_of_pos passes,
        List.dropWhile_cons_of_pos passes, List.length_cons] at fits ⊢
      obtain ⟨same, left, parts, before, after⟩ :=
        inductionHypothesis (Nat.le_of_succ_le_succ fits)
      exact ⟨congrArg (c :: ·) same, left, by omega, before, after⟩
    · simp only [List.cons_append, List.takeWhile_cons_of_neg passes,
        List.dropWhile_cons_of_neg passes, List.length_nil, true_and]
      exact ⟨c :: front, (Nat.zero_add _).symm, rfl, rfl⟩

/-- Blanks do not make a fraction, and do not end one early. A point at the very end of the front is
the case to look at: behind it a digit made a fraction that lies beyond the front, which the premise
shuts out, and a blank makes none. -/
theorem fraction_blanks (blank : ∀ c ∈ blanks, Text.isBlank c = true)
    (fits : ∀ places, fraction? (front ++ behind) = some places →
      places.length + 1 ≤ front.length) :
    fraction? (front ++ (blanks ++ behind)) = fraction? (front ++ behind) := by
  have noPoint {text : List Char} (other : ∀ rest, text ≠ '.' :: rest) : fraction? text = none := by
    unfold fraction?
    split
    · next rest => exact absurd rfl (other rest)
    · rfl
  cases front with
  | nil =>
    have none : fraction? behind = none := by
      cases found : fraction? behind with
      | none => rfl
      | some places => exact absurd (fits places found) (Nat.not_succ_le_zero _)
    cases blanks with
    | nil => rfl
    | cons b others =>
      rw [List.nil_append, List.nil_append, none]
      refine noPoint ?_
      rintro rest ⟨⟩
      exact absurd (blank '.' List.mem_cons_self) (by decide)
  | cons c front =>
    by_cases point : c = '.'
    · subst point
      have within : ((front ++ behind).takeWhile Char.isDigit).length ≤ front.length := by
        cases digits : (front ++ behind).takeWhile Char.isDigit with
        | nil => exact Nat.zero_le _
        | cons d others =>
          have found : fraction? ('.' :: (front ++ behind)) = some (d :: others) := by
            simp [fraction?, digits]
          exact Nat.le_of_succ_le_succ (fits _ found)
      have same := (takeWhile_blanks blank (fun _ => Text.blank_ends_number) within).1
      simp only [List.cons_append, fraction?, same]
    · rw [List.cons_append, List.cons_append, noPoint (by simp [point]), noPoint (by simp [point])]

/-- A text in quotation marks has its closing mark at least. The cases are those of the scan for
it. -/
theorem quoted_pos {quote : Char} {text : List Char} {found : List Char × Nat}
    (read : quoted quote text = some found) : 0 < found.2 := by
  unfold quoted at read
  split at read
  · cases read
  · split at read
    · cases read
      exact Nat.one_pos
    · split at read
      · split at read
        · cases read
        · obtain ⟨inside, -, rfl⟩ := Option.map_eq_some_iff.mp read
          exact Nat.succ_pos _
      · obtain ⟨inside, -, rfl⟩ := Option.map_eq_some_iff.mp read
        exact Nat.succ_pos _

/-- A quoted text is told by the characters through its closing mark, so it is read in the front
alone if it lies there. The induction is that of the scan on the front; where the front ends, the
mark would lie behind it. -/
theorem quoted_front {quote : Char} {found : List Char × Nat}
    (read : quoted quote (front ++ behind) = some found) (fits : found.2 ≤ front.length) :
    quoted quote front = some found := by
  fun_induction quoted quote front generalizing found with
  | case1 => exact absurd fits (Nat.not_le_of_lt (quoted_pos read))
  | case2 rest =>
    rw [List.cons_append, quoted.eq_def] at read
    exact (if_pos rfl).symm.trans read
  | case3 apart =>
    rw [List.cons_append, List.nil_append, quoted.eq_def] at read
    simp only [if_neg apart, if_true] at read
    split at read
    · cases read
    · obtain ⟨inside, -, rfl⟩ := Option.map_eq_some_iff.mp read
      exact absurd (Nat.le_of_succ_le_succ fits) (Nat.not_succ_le_zero _)
  | case4 escaped others apart inductionHypothesis =>
    rw [List.cons_append, List.cons_append, quoted.eq_def] at read
    simp only [if_neg apart, if_true] at read
    obtain ⟨inside, ended, rfl⟩ := Option.map_eq_some_iff.mp read
    rw [inductionHypothesis ended (Nat.le_of_add_le_add_right fits), Option.map_some]
  | case5 c rest apart plain inductionHypothesis =>
    rw [List.cons_append, quoted.eq_def] at read
    simp only [if_neg apart, if_neg plain] at read
    obtain ⟨inside, ended, rfl⟩ := Option.map_eq_some_iff.mp read
    rw [inductionHypothesis ended (Nat.le_of_succ_le_succ fits), Option.map_some]

/-- Two characters tell the end of a comment. If they do not stand here, the search goes on behind
the first of them only. -/
theorem comment_end_cons (c : Char) (rest : List Char) : throughCommentEnd (c :: rest) =
    if c = '#' ∧ rest.head? = some '}' then some 2 else (throughCommentEnd rest).map (· + 1) := by
  split
  · next closes =>
    obtain ⟨rfl, brace⟩ := closes
    obtain ⟨others, rfl⟩ := List.head?_eq_some_iff.mp brace
    rfl
  · next apart =>
    refine throughCommentEnd.eq_3 c rest fun others hash ends => apart ⟨hash, ?_⟩
    rw [ends, List.head?_cons]

/-- So a comment is told by the characters through its end. The induction is over the front, and an
end that lies in it has both its characters there: a brace behind the front closes nothing in it. -/
theorem comment_end_front {more : Nat} (found : throughCommentEnd (front ++ behind) = some more)
    (fits : more < front.length) : throughCommentEnd front = some more := by
  induction front generalizing more with
  | nil => cases fits
  | cons c rest inductionHypothesis =>
    rw [List.cons_append, comment_end_cons] at found
    rw [comment_end_cons]
    have positive : 0 < more := by
      split at found
      · cases found
        exact Nat.two_pos
      · obtain ⟨inside, -, rfl⟩ := Option.map_eq_some_iff.mp found
        exact Nat.succ_pos _
    have filled : rest ≠ [] := by
      rintro rfl
      rw [List.length_singleton] at fits
      omega
    rw [List.head?_append_of_ne_nil rest filled] at found
    split at found
    · next closes => rw [if_pos closes, found]
    · next apart =>
      obtain ⟨inside, ended, rfl⟩ := Option.map_eq_some_iff.mp found
      rw [if_neg apart, inductionHypothesis ended (Nat.lt_of_succ_lt_succ fits), Option.map_some]

/-- And the end of a text outside tags by the marker behind it; that is why the front has to reach
two characters further than the text. The induction is over the front, of which each character
begins a marker or not. -/
theorem until_marker_front (fits : untilMarker (front ++ behind) + 2 ≤ front.length) :
    untilMarker front = untilMarker (front ++ behind) := by
  induction front with
  | nil => cases fits
  | cons c rest inductionHypothesis =>
    have filled : rest ≠ [] := by
      rintro rfl
      rw [List.length_singleton] at fits
      omega
    have starts := starts_marker_seam behind c filled
    simp only [List.cons_append, untilMarker, starts, List.length_cons] at fits ⊢
    split
    · rfl
    · next apart =>
      rw [if_neg apart] at fits
      rw [inductionHypothesis (by omega)]

end Scanning

/-- The number of characters that go by at least before a token inside a tag starts. Outside tags a
marker has to come first. -/
def Mode.lead : Mode → Nat
  | .text _ => 2
  | .tag .. => 0

/-- A piece lies in the front of a text, so that a token inside a tag can start where the front
ends. A fault lies in no front, since it takes all that is left. -/
def Step.Within (front : List Char) : Step → Prop
  | .token _ more next | .gap _ more next => more + next.lead ≤ front.length
  | .fault _ => False

/-- A piece lies in the source that it is taken off. What a piece has besides its first character is
counted, so the count must not go past the end. -/
def Step.Fits (rest : List Char) : Step → Prop
  | .token _ more _ | .gap _ more _ => more ≤ rest.length
  | .fault _ => True

/-- The mode behind a piece, and the number of characters that the piece has besides its first. A
fault leads nowhere, as scanning ends with it. -/
def Step.Leads (more : Nat) (next : Mode) : Step → Prop
  | .token _ count mode | .gap _ count mode => count = more ∧ mode = next
  | .fault _ => False

section Steps

variable {c : Char} {front behind blanks : List Char}

/-- A regular piece lies in the source. -/
theorem fits_of_regular {rest : List Char} {step : Step} (regular : step.Regular rest) :
    step.Fits rest := by
  cases step with
  | token kind more next => exact regular.1
  | gap gap more next => exact regular.1
  | fault f => trivial

/-- Where there is a next character the source is not at its end. -/
theorem head_fits {rest : List Char} {d : Char} (head : rest.head? = some d) : 1 ≤ rest.length := by
  obtain ⟨others, rfl⟩ := List.head?_eq_some_iff.mp head
  exact Nat.succ_pos _

/-- A piece outside tags lies in the source, whether line ends are dropped or not. A line end that
is dropped is one or two characters of it. -/
theorem textStep_fits (trimming : Bool) (c : Char) (rest : List Char) :
    (textStep trimming c rest).Fits rest := by
  rw [textStep_trimming]
  split
  · exact Nat.zero_le _
  · split
    · next ends => exact head_fits ends.2.2
    · exact fits_of_regular (textStep_regular c rest)

/-- So does a piece inside a tag. The end of an output and of a statement have two characters each,
and both of them are there. -/
theorem tagStep_fits (trim : Bool) (tag : Tag) (afterDot : Bool) (c : Char) (rest : List Char) :
    (tagStep trim tag afterDot c rest).Fits rest := by
  have regular := tagStep_regular tag afterDot c rest
  rw [tagStep_eq] at regular ⊢
  split
  · next blank =>
    rw [if_pos blank] at regular
    exact regular.1
  · next notBlank =>
    rw [if_neg notBlank] at regular
    split
    · next closes => exact head_fits closes.2
    · next notStatement =>
      rw [if_neg notStatement] at regular
      exact fits_of_regular regular

/-- So every piece lies in the source that it is taken off. -/
theorem step_fits (trim : Bool) (mode : Mode) (c : Char) (rest : List Char) :
    (step trim mode c rest).Fits rest := by
  cases mode with
  | text trimming => exact textStep_fits trimming c rest
  | tag tag afterDot => exact tagStep_fits trim tag afterDot c rest

/-- A piece lies in every front that reaches as far as it leads: through the piece, and as far
behind it as the mode that it leads to asks for. -/
theorem spans_of_leads {trim : Bool} {mode next : Mode} {rest : List Char} {more : Nat}
    (leads : (step trim mode c rest).Leads more next) :
    more ≤ rest.length ∧
      ∀ front : List Char, more + next.lead ≤ front.length →
        (step trim mode c rest).Within front := by
  have fits := step_fits trim mode c rest
  cases read : step trim mode c rest with
  | token kind count behind =>
    rw [read] at fits leads
    obtain ⟨rfl, rfl⟩ := leads
    exact ⟨fits, fun _ => id⟩
  | gap gap count behind =>
    rw [read] at fits leads
    obtain ⟨rfl, rfl⟩ := leads
    exact ⟨fits, fun _ => id⟩
  | fault f =>
    rw [read] at leads
    exact leads.elim

/-- A piece outside tags does not end in front of the tag, so the front goes on behind it. The cases
are those of what a source may begin with; without any front none of them is left. -/
theorem textStep_filled {trimming : Bool} {source : List Char}
    (within : (textStep trimming c source).Within front) : front ≠ [] := by
  rintro rfl
  rw [textStep_trimming, textStep_eq] at within
  split at within
  · cases within
  · split at within
    · cases within
    · split at within
      · cases within
      · split at within
        · cases within
        · split at within
          · split at within <;> cases within
          · cases within

/-- Outside tags nothing matters that is behind the marker of a tag. The steps are gone through in
the order in which they are tried; each looks at two characters, or goes up to a marker or the end
of a comment, all of which lie in the front. -/
theorem textStep_front {trimming : Bool}
    (within : (textStep trimming c (front ++ behind)).Within front) (other : List Char) :
    textStep trimming c (front ++ other) = textStep trimming c (front ++ behind) := by
  have filled := textStep_filled within
  rw [textStep_trimming] at within
  rw [textStep_trimming c trimming (front ++ other), textStep_trimming c trimming (front ++ behind)]
  simp only [textStep_eq, List.head?_append_of_ne_nil front filled] at within ⊢
  split
  · rfl
  · next noFeed =>
    rw [if_neg noFeed] at within
    split
    · rfl
    · next noReturn =>
      rw [if_neg noReturn] at within
      split
      · rfl
      · next noStatement =>
        rw [if_neg noStatement] at within
        split
        · rfl
        · next noOutput =>
          rw [if_neg noOutput] at within
          split
          · next comment =>
            rw [if_pos comment] at within
            -- An unfinished comment would look at all that is behind.
            cases found : throughCommentEnd (front ++ behind) with
            | none =>
              rw [found] at within
              exact within.elim
            | some more =>
              rw [found] at within
              have inFront := comment_end_front found (Nat.lt_of_succ_lt within)
              rw [(comment_end_seam other inFront).1]
          · next noComment =>
            rw [if_neg noComment] at within
            have inFront := until_marker_front within
            have short : untilMarker front < front.length := by
              rw [inFront]
              exact Nat.lt_of_succ_lt within
            rw [until_marker_seam other short, until_marker_seam behind short,
              List.take_append_of_le_length (Nat.le_of_lt short),
              List.take_append_of_le_length (Nat.le_of_lt short)]

/-- A number that lies in the front is read as it is with blanks behind the front. Blanks end the
digits as what is behind them does; only a point and digits at the end of the front need a closer
look. -/
theorem numberStep_blanks {tag : Tag} {afterDot : Bool}
    (blank : ∀ c ∈ blanks, Text.isBlank c = true)
    (within : (numberStep tag afterDot c (front ++ behind)).Within front) :
    numberStep tag afterDot c (front ++ (blanks ++ behind)) =
      numberStep tag afterDot c (front ++ behind) := by
  have short : ((front ++ behind).takeWhile Char.isDigit).length ≤ front.length := by
    simp only [numberStep] at within
    split at within
    · exact Nat.le_trans (by omega) (Nat.le_of_add_right_le within)
    · split at within
      · exact within
      · exact within.elim
  obtain ⟨same, left, parts, before, after⟩ :=
    takeWhile_blanks blank (fun _ => Text.blank_ends_number) short
  have fraction : (if afterDot then none else fraction? (left ++ (blanks ++ behind))) =
      if afterDot then none else fraction? (left ++ behind) := by
    cases afterDot with
    | true => rfl
    | false =>
      refine fraction_blanks blank fun places found => ?_
      simp only [numberStep, before, Bool.false_eq_true, if_false, found, Step.Within,
        Mode.lead] at within
      omega
  simp only [numberStep, same, before, after, fraction]

/-- So is a word. It ends within the text in front of the blanks, and a blank would have ended it as
well. -/
theorem wordStep_blanks {tag : Tag}
    (blank : ∀ c ∈ blanks, Text.isBlank c = true)
    (within : (wordStep tag c (front ++ behind)).Within front) :
    wordStep tag c (front ++ (blanks ++ behind)) = wordStep tag c (front ++ behind) := by
  have short : ((front ++ behind).takeWhile Text.continuesWord).length ≤ front.length := by
    simp only [wordStep] at within
    split at within <;> exact within
  have same := (takeWhile_blanks blank (fun _ => Text.blank_ends_word) short).1
  simp only [wordStep, same]

/-- Only two signs hang on the character behind the first one. All others are told by a single
character, so what follows may be anything. -/
theorem sign_elsewhere (other : ¬(c = '=' ∨ c = '!')) (rest text : List Char) :
    sign? c rest = sign? c text := by
  obtain ⟨notEqual, notUnequal⟩ := not_or.mp other
  unfold sign?
  split
  · exact absurd rfl notEqual
  · exact absurd rfl notUnequal
  all_goals first | rfl | skip
  split <;> simp_all

/-- Whether a sign is read, and which, does not change with what is behind the front, if the piece
lies there. A sign of two characters has both of them in the front, and one of a single character is
not the first half of another. -/
theorem insideStep_sign {tag : Tag} {afterDot : Bool}
    (within : (insideStep tag afterDot c (front ++ behind)).Within front) (other : List Char) :
    sign? c (front ++ other) = sign? c (front ++ behind) := by
  by_cases filled : front = []
  · subst filled
    refine sign_elsewhere ?_ _ _
    intro equal
    unfold insideStep at within
    split at within
    · next sign more read =>
      have paired : more = 1 := by
        rcases equal with rfl | rfl <;> unfold sign? at read <;> split at read <;> simp_all
      subst paired
      cases within
    · rcases equal with rfl | rfl <;> exact within
  · rw [sign_seam other c filled, sign_seam behind c filled]

/-- What is read inside a tag does not change with blanks behind the front: signs and quoted
texts are told by their own characters, and blanks neither prolong numbers and words nor cut them
short. -/
theorem insideStep_blanks {tag : Tag} {afterDot : Bool}
    (blank : ∀ c ∈ blanks, Text.isBlank c = true)
    (within : (insideStep tag afterDot c (front ++ behind)).Within front) :
    insideStep tag afterDot c (front ++ (blanks ++ behind)) =
      insideStep tag afterDot c (front ++ behind) := by
  have signs := insideStep_sign within (blanks ++ behind)
  unfold insideStep at within ⊢
  rw [signs]
  cases read : sign? c (front ++ behind) with
  | some found => rfl
  | none =>
    simp only [read] at within ⊢
    split
    · next mark =>
      rw [if_pos mark] at within
      cases found : quoted c (front ++ behind) with
      | none =>
        rw [found] at within
        exact within.elim
      | some text =>
        rw [found] at within
        rw [quoted_seam _ (quoted_front found within)]
    · next noMark =>
      rw [if_neg noMark] at within
      split
      · next digit =>
        rw [if_pos digit] at within
        exact numberStep_blanks blank within
      · next noDigit =>
        rw [if_neg noDigit] at within
        split
        · next starts =>
          rw [if_pos starts] at within
          exact wordStep_blanks blank within
        · rfl

/-- In a tag blanks may be put behind the front of a source, if the piece lies there. The end of a
tag is told by two characters, which lie in the front together. -/
theorem tagStep_blanks {trim : Bool} {tag : Tag} {afterDot : Bool}
    (blank : ∀ c ∈ blanks, Text.isBlank c = true) (notBlank : Text.isBlank c = false)
    (within : (tagStep trim tag afterDot c (front ++ behind)).Within front) :
    tagStep trim tag afterDot c (front ++ (blanks ++ behind)) =
      tagStep trim tag afterDot c (front ++ behind) := by
  have unblank : ¬Text.isBlank c = true := Bool.eq_false_iff.mp notBlank
  simp only [tagStep_eq, if_neg unblank] at within ⊢
  by_cases filled : front = []
  · subst filled
    split at within
    · cases within
    · next noStatement =>
      split at within
      · cases within
      · next noOutput =>
        have plain : ¬(c = '%' ∨ c = '}') := by
          rintro (rfl | rfl) <;> exact within
        rw [if_neg noStatement, if_neg noOutput, if_neg fun closes => plain (.inl closes.1),
          if_neg fun closes => plain (.inr closes.1)]
        exact insideStep_blanks blank within
  · simp only [List.head?_append_of_ne_nil front filled] at within ⊢
    split
    · rfl
    · next noStatement =>
      rw [if_neg noStatement] at within
      split
      · rfl
      · next noOutput =>
        rw [if_neg noOutput] at within
        exact insideStep_blanks blank within

/-- Blanks may be put behind the front of a source, if the piece lies there and is no blank itself;
a blank would go on with those that are put in. -/
theorem step_blanks {trim : Bool} {mode : Mode} (blank : ∀ c ∈ blanks, Text.isBlank c = true)
    (solid : ∀ tag afterDot, mode = .tag tag afterDot → Text.isBlank c = false)
    (within : (step trim mode c (front ++ behind)).Within front) :
    step trim mode c (front ++ (blanks ++ behind)) = step trim mode c (front ++ behind) := by
  cases mode with
  | text trimming => exact textStep_front within (blanks ++ behind)
  | tag tag afterDot => exact tagStep_blanks blank (solid tag afterDot rfl) within

end Steps

end Token

end Stencil
