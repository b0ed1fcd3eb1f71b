import Mathlib.Data.List.Infix
import Stencil.Token.Stream

/-!
# Gaps between tokens

What may lie behind a token without belonging to one, told by the token alone: blanks where it
leaves the source inside a tag, and comments everywhere else, in front of which the end of the line
may be dropped if the token ends a statement. Comments are told apart from what follows them by
ending at the first place where they can, so a stretch of source has a longest beginning that may
be skipped.

Cutting a source into pieces follows these rules: the mode of reading always knows what may still be
skipped behind the last token, a piece is a gap only where something may be skipped, and it is a
token only where nothing may.
-/

namespace Stencil.Token

/-- A comment begins with its opening marker and ends at the first place where it can: its closing
marker stands at the end, and nowhere before, not even in one with the opening marker. -/
structure IsComment (text : List Char) : Prop where
  begins : ['{', '#'] <+: text
  ends : ['#', '}'] <:+ text
  once : ¬['#', '}'] <:+: text.dropLast

/-- Comments one behind the other, with nothing between them; there may be none. Behind a statement
tag the end of a line may stand in front of them, and belongs to the same gap. -/
def Comments (text : List Char) : Prop :=
  ∃ comments : List (List Char), (∀ comment ∈ comments, IsComment comment) ∧
    text = comments.flatten

/-- The end of a line, in either of the two ways in which lines are ended. A carriage return on its
own ends none. -/
def IsLineEnd (text : List Char) : Prop := text = ['\n'] ∨ text = ['\r', '\n']

/-- Comments, in front of which the end of a line may be dropped. Only one end is dropped, and none
behind a comment. -/
def Trimmed (dropping : Bool) (text : List Char) : Prop :=
  ∃ lineEnd comments, text = lineEnd ++ comments ∧ Comments comments ∧
    (lineEnd = [] ∨ dropping = true ∧ IsLineEnd lineEnd)

/-- Whether a token leaves the source inside a tag. A text and the end of a tag leave it outside; so
the last token alone says which rules hold for what follows. -/
def Kind.staysInTag : Kind → Bool
  | .text _ | .closing _ => false
  | _ => true

/-- What may lie behind the last token, or at the beginning of the source, and belong to no token.
With `trim` set, the end of a line may be dropped right behind a statement tag. -/
def Skipped (trim : Bool) (last : Option Kind) (gap : List Char) : Prop :=
  if last.any Kind.staysInTag then ∀ c ∈ gap, Text.isBlank c = true
  else Trimmed (trim && last == some (.closing .statement)) gap

section Comments

variable {comment text : List Char}

/-- Of two comments at one place neither goes on where the other ends. The shorter one is a prefix
of the longer, and if it were a proper one the longer would hold an end before its own. -/
theorem comment_unique {other source : List Char} (isComment : IsComment comment)
    (otherIsComment : IsComment other) (here : comment <+: source) (there : other <+: source) :
    comment = other := by
  have same {short long : List Char} (isShort : IsComment short) (isLong : IsComment long)
      (fits : short <+: long) : short = long := by
    obtain ⟨more, rfl⟩ := fits
    cases more with
    | nil => rw [List.append_nil]
    | cons c rest =>
      have inside : short <+: (short ++ c :: rest).dropLast := by
        rw [List.dropLast_append_of_ne_nil (List.cons_ne_nil c rest)]
        exact List.prefix_append _ _
      exact absurd (isShort.ends.isInfix.trans inside.isInfix) isLong.once
  rcases List.prefix_or_prefix_of_prefix here there with fits | fits
  · exact same isComment otherIsComment fits
  · exact (same otherIsComment isComment fits).symm

/-- No comments at all are comments one behind the other. -/
theorem comments_nil : Comments [] := ⟨[], List.forall_mem_nil _, rfl⟩

/-- Comments begin with a comment, and comments are left behind it. So an induction on their length
can take them off one by one. -/
theorem comments_first (comments : Comments text) :
    text = [] ∨ ∃ first rest, IsComment first ∧ Comments rest ∧ text = first ++ rest := by
  obtain ⟨all, each, rfl⟩ := comments
  cases all with
  | nil => exact .inl rfl
  | cons first rest =>
    obtain ⟨isComment, others⟩ := List.forall_mem_cons.mp each
    exact .inr ⟨first, rest.flatten, isComment, ⟨rest, others, rfl⟩, List.flatten_cons⟩

/-- A comment may be taken off the front of comments, and no other way leads through them: whatever
comments the text is made of, the first of them is this one. -/
theorem comments_append (isComment : IsComment comment) (behind : List Char) :
    Comments (comment ++ behind) ↔ Comments behind := by
  constructor
  · intro comments
    rcases comments_first comments with empty | ⟨first, rest, isFirst, others, parts⟩
    · have none : comment = [] := (List.append_eq_nil_iff.mp empty).1
      have begins := isComment.begins
      rw [none, List.prefix_nil] at begins
      cases begins
    · obtain rfl : comment = first := comment_unique isComment isFirst
        (List.prefix_append comment behind) ⟨rest, parts.symm⟩
      rwa [List.append_cancel_left parts]
  · rintro ⟨all, each, rfl⟩
    exact ⟨comment :: all, List.forall_mem_cons.mpr ⟨isComment, each⟩, List.flatten_cons.symm⟩

/-- Where a comment ends is found, and nothing ends it before. The induction is over the source; the
marker may begin with the last character looked at, so the two characters are told apart first. -/
theorem comment_end {source : List Char} {more : Nat}
    (found : throughCommentEnd source = some more) :
    ['#', '}'] <:+ source.take more ∧ ¬['#', '}'] <:+: (source.take more).dropLast := by
  fun_induction throughCommentEnd source generalizing more with
  | case1 => cases found
  | case2 =>
    cases found
    exact ⟨List.suffix_rfl, show ¬['#', '}'] <:+: ['#'] by decide⟩
  | case3 c rest apart inductionHypothesis =>
    obtain ⟨before, foundBefore, rfl⟩ := Option.map_eq_some_iff.mp found
    obtain ⟨ends, once⟩ := inductionHypothesis foundBefore
    have present : rest.take before ≠ [] := by
      intro none
      rw [none, List.suffix_nil] at ends
      cases ends
    rw [List.take_succ_cons]
    refine ⟨ends.trans (List.suffix_cons c _), ?_⟩
    rw [List.dropLast_cons_of_ne_nil present, List.infix_cons_iff]
    rintro (here | later)
    · obtain ⟨rfl, next⟩ := List.cons_prefix_cons.mp here
      obtain ⟨behind, parts⟩ := next.trans ((List.dropLast_prefix _).trans (List.take_prefix _ _))
      exact apart behind rfl parts.symm
    · exact once later

/-- Where no end of a comment is found there is none, at any distance. The search looks at every
place in turn, and the induction follows it. -/
theorem comment_endless {source : List Char} (none : throughCommentEnd source = none) :
    ¬['#', '}'] <:+: source := by
  fun_induction throughCommentEnd source with
  | case1 => simp
  | case2 => cases none
  | case3 c rest apart inductionHypothesis =>
    rw [List.infix_cons_iff]
    rintro (here | later)
    · obtain ⟨rfl, behind, parts⟩ := List.cons_prefix_cons.mp here
      exact apart behind rfl parts.symm
    · exact inductionHypothesis (Option.map_eq_none_iff.mp none) later

/-- What is passed over from the beginning of a comment to the end found is a comment. The search
begins at the second character of the opening marker, which may itself begin the closing one. -/
theorem comment_read {rest : List Char} {more : Nat}
    (found : throughCommentEnd ('#' :: rest) = some more) :
    IsComment ('{' :: ('#' :: rest).take more) := by
  obtain ⟨ends, once⟩ := comment_end found
  have counted : more ≠ 0 := by
    rintro rfl
    rw [List.take_zero, List.suffix_nil] at ends
    cases ends
  obtain ⟨fewer, rfl⟩ := Nat.exists_eq_succ_of_ne_zero counted
  rw [List.take_succ_cons] at ends once ⊢
  refine ⟨⟨rest.take fewer, rfl⟩, ends.trans (List.suffix_cons '{' _), ?_⟩
  rw [List.dropLast_cons_of_ne_nil (List.cons_ne_nil _ _), List.infix_cons_iff]
  rintro (here | later)
  · cases (List.cons_prefix_cons.mp here).1
  · exact once later

end Comments

namespace Mode

/-- What may be skipped in a mode: blanks inside a tag, comments and perhaps the end of a line
outside. -/
def Skips : Mode → List Char → Prop
  | .text trimming, gap => Trimmed trimming gap
  | .tag _ _, gap => ∀ c ∈ gap, Text.isBlank c = true

/-- The mode knows what may still be skipped behind the last token and a gap: what the mode allows
from here on is exactly what may be put behind the gap. -/
def Knows (mode : Mode) (trim : Bool) (last : Option Kind) (gap : List Char) : Prop :=
  ∀ more, Skipped trim last (gap ++ more) ↔ mode.Skips more

/-- Nothing may be skipped here: what is skipped at this place of the source is empty. Behind a gap
it says that the gap is as long as it can be. -/
def Stopped (mode : Mode) (source : List Char) : Prop :=
  ∀ gap, gap <+: source → mode.Skips gap → gap = []

/-- In every mode nothing at all may be skipped. -/
theorem skips_nil (mode : Mode) : mode.Skips [] := by
  cases mode with
  | text trimming => exact ⟨[], [], rfl, comments_nil, .inl rfl⟩
  | tag tag afterDot => exact List.forall_mem_nil _

/-- Outside tags nothing may be skipped where neither a comment nor a line end to drop begins. A
comment that is opened but has no end is none. A gap is told apart by its first character: a line
end, or the first comment in it. -/
theorem stopped_text {trimming : Bool} {c : Char} {rest : List Char}
    (noComment : c = '{' → ['#'] <+: rest → ¬['#', '}'] <:+: rest)
    (noLineEnd : trimming = true → c ≠ '\n' ∧ (c = '\r' → ¬['\n'] <+: rest)) :
    Stopped (.text trimming) (c :: rest) := by
  rintro gap here ⟨lineEnd, comments, rfl, areComments, dropped⟩
  rcases dropped with rfl | ⟨dropping, rfl | rfl⟩
  · rcases comments_first areComments with rfl | ⟨first, others, isFirst, -, rfl⟩
    · rfl
    · have begins := isFirst.begins.trans ((List.prefix_append first others).trans here)
      obtain ⟨rfl, hash⟩ := List.cons_prefix_cons.mp begins
      have ends := (isFirst.ends.isInfix.trans (List.prefix_append first others).isInfix).trans
        here.isInfix
      rcases List.infix_cons_iff.mp ends with front | inside
      · cases (List.cons_prefix_cons.mp front).1
      · exact absurd inside (noComment rfl hash)
  · exact absurd (List.cons_prefix_cons.mp here).1.symm (noLineEnd dropping).1
  · obtain ⟨same, feed⟩ := List.cons_prefix_cons.mp here
    exact absurd ((List.prefix_append ['\n'] comments).trans feed)
      ((noLineEnd dropping).2 same.symm)

/-- Inside a tag nothing may be skipped where no blank is. A gap there is blanks only, and it would
begin with the character at hand. -/
theorem stopped_tag {tag : Tag} {afterDot : Bool} {c : Char} {rest : List Char}
    (notBlank : Text.isBlank c = false) : Stopped (.tag tag afterDot) (c :: rest) := by
  intro gap here blanks
  cases gap with
  | nil => rfl
  | cons d behind =>
    obtain ⟨rfl, -⟩ := List.cons_prefix_cons.mp here
    have blank : Text.isBlank d = true := blanks d List.mem_cons_self
    rw [notBlank] at blank
    cases blank

end Mode

section Trimmed

/-- Where no line end is dropped there are only comments to skip. -/
theorem trimmed_false (text : List Char) : Trimmed false text ↔ Comments text := by
  constructor
  · rintro ⟨lineEnd, comments, rfl, areComments, rfl | ⟨dropping, -⟩⟩
    · exact areComments
    · cases dropping
  · exact fun comments => ⟨[], text, rfl, comments, .inl rfl⟩

/-- No comment begins with the end of a line, so the two parts of what is skipped cannot be mistaken
for each other. -/
theorem comments_apart {lineEnd : List Char} (isLineEnd : IsLineEnd lineEnd) (behind : List Char) :
    ¬Comments (lineEnd ++ behind) := by
  intro comments
  rcases comments_first comments with empty | ⟨first, rest, isFirst, -, parts⟩
  · rcases isLineEnd with rfl | rfl <;> cases empty
  · have begins : ['{', '#'] <+: lineEnd ++ behind :=
      isFirst.begins.trans ⟨rest, parts.symm⟩
    rcases isLineEnd with rfl | rfl <;> cases (List.cons_prefix_cons.mp begins).1

/-- One end of a line is dropped at most; behind it only comments may be skipped. -/
theorem trimmed_line_end {lineEnd : List Char} (isLineEnd : IsLineEnd lineEnd)
    (behind : List Char) : Trimmed true (lineEnd ++ behind) ↔ Comments behind := by
  constructor
  · rintro ⟨other, comments, parts, areComments, rfl | ⟨-, isOther⟩⟩
    · rw [List.nil_append] at parts
      exact absurd (parts ▸ areComments) (comments_apart isLineEnd behind)
    · rcases isLineEnd with rfl | rfl <;> rcases isOther with rfl | rfl
      · exact List.append_cancel_left parts ▸ areComments
      · cases (List.cons.inj parts).1
      · cases (List.cons.inj parts).1
      · exact List.append_cancel_left parts ▸ areComments
  · exact fun comments => ⟨lineEnd, behind, rfl, comments, .inr ⟨rfl, isLineEnd⟩⟩

/-- Behind a comment no end of a line is dropped, whether one could have been dropped before it or
not. -/
theorem trimmed_comment {comment : List Char} (isComment : IsComment comment) (dropping : Bool)
    (behind : List Char) : Trimmed dropping (comment ++ behind) ↔ Comments behind := by
  rw [← comments_append isComment behind]
  constructor
  · rintro ⟨lineEnd, comments, parts, areComments, rfl | ⟨-, isLineEnd⟩⟩
    · exact parts ▸ areComments
    · have begins : ['{', '#'] <+: lineEnd ++ comments :=
        parts ▸ isComment.begins.trans (List.prefix_append comment behind)
      rcases isLineEnd with rfl | rfl <;> cases (List.cons_prefix_cons.mp begins).1
  · exact fun comments => ⟨[], comment ++ behind, rfl, comments, .inl rfl⟩

end Trimmed

/-- What a step makes of the place behind a token: the mode knows what may be skipped there, text is
told word for word, and only the rest of a source is a fault. -/
def Step.Follows (trim : Bool) (read : Nat → List Char) : Step → Prop
  | .token kind more next => (∀ f, kind ≠ .fault f) ∧
      (∀ s, kind = .text s → s = String.ofList (read more)) ∧ next.Knows trim (some kind) []
  | .gap .. => False
  | .fault _ => True

section Steps

/-- Behind a token that leaves the source outside tags, comments may be skipped, and a line end in
front of them if the token ends a statement. -/
theorem knows_text (trim : Bool) {kind : Kind} (leaves : kind.staysInTag = false) {trimming : Bool}
    (drops : (trim && some kind == some (.closing .statement)) = trimming) :
    (Mode.text trimming).Knows trim (some kind) [] := by
  intro more
  simp only [Skipped, Option.any_some, leaves, Bool.false_eq_true, if_false, List.nil_append, drops,
    Mode.Skips]

/-- Behind a token that leaves the source inside a tag, blanks may be skipped. -/
theorem knows_tag (trim : Bool) (tag : Tag) (afterDot : Bool) {kind : Kind}
    (stays : kind.staysInTag = true) : (Mode.tag tag afterDot).Knows trim (some kind) [] := by
  intro more
  simp [Skipped, stays, Mode.Skips]

/-- A number leaves the source inside the tag that it stands in. The case without a fraction is that
of a whole number, which may also be a fault if it has too many digits. -/
theorem numberStep_follows (trim : Bool) (tag : Tag) (afterDot : Bool) (c : Char)
    (rest : List Char) : (numberStep tag afterDot c rest).Follows trim (c :: rest.take ·) := by
  simp only [numberStep]
  generalize (if afterDot then none else fraction? (rest.dropWhile Char.isDigit)) = fraction
  cases fraction with
  | some places => exact ⟨nofun, nofun, knows_tag trim tag false rfl⟩
  | none =>
    dsimp only
    split
    · exact ⟨nofun, nofun, knows_tag trim tag false rfl⟩
    · trivial

/-- So does a word, be it reserved or not. -/
theorem wordStep_follows (trim : Bool) (tag : Tag) (c : Char) (rest : List Char) :
    (wordStep tag c rest).Follows trim (c :: rest.take ·) := by
  unfold wordStep
  simp only
  split <;> exact ⟨nofun, nofun, knows_tag trim tag false rfl⟩

/-- What is no blank in a tag is a token or a fault. The steps are gone through in the order in
which they are tried: ends of tags, signs, numbers, words and texts in quotation marks. -/
theorem tagStep_follows (trim : Bool) (tag : Tag) (afterDot : Bool) {c : Char}
    (notBlank : Text.isBlank c = false) (rest : List Char) :
    (tagStep trim tag afterDot c rest).Follows trim (c :: rest.take ·) := by
  unfold tagStep
  rw [if_neg (Bool.eq_false_iff.mp notBlank)]
  split
  · exact ⟨nofun, nofun, knows_text trim rfl (by simp)⟩
  · exact ⟨nofun, nofun, knows_text trim rfl (by simp)⟩
  · split
    · exact ⟨nofun, nofun, knows_tag trim tag _ rfl⟩
    · split
      · split
        · exact ⟨nofun, nofun, knows_tag trim tag false rfl⟩
        · trivial
      · split
        · exact numberStep_follows trim tag afterDot c rest
        · split
          · exact wordStep_follows trim tag c rest
          · trivial

variable {trim : Bool} {mode next : Mode} {c : Char} {rest : List Char} {more : Nat}

/-- A piece that is a gap may be skipped, and the mode behind it knows what else may be. Both
directions are needed: that what follows may be skipped if the mode says so, and that nothing else
may. -/
theorem gap_skips {gap : Gap} (read : step trim mode c rest = .gap gap more next)
    (behind : List Char) :
    mode.Skips (c :: rest.take more ++ behind) ↔ next.Skips behind := by
  cases mode with
  | text trimming =>
    simp only [step, textStep] at read
    split at read
    · cases read
      exact (trimmed_line_end (.inl rfl) behind).trans (trimmed_false behind).symm
    · cases read
      exact (trimmed_line_end (.inr rfl) behind).trans (trimmed_false behind).symm
    · cases read
    · cases read
    · split at read
      · next found =>
        cases read
        have isComment := comment_read found
        exact (trimmed_comment isComment trimming behind).trans (trimmed_false behind).symm
      · cases read
    · cases read
  | tag tag afterDot =>
    simp only [step, tagStep] at read
    split at read
    · next blank =>
      cases read
      have taken : rest.take (rest.takeWhile Text.isBlank).length = rest.takeWhile Text.isBlank :=
        (List.prefix_iff_eq_take.mp (List.takeWhile_prefix _)).symm
      have blanks : ∀ d ∈ rest.takeWhile Text.isBlank, Text.isBlank d = true :=
        List.all_eq_true.mp List.all_takeWhile
      rw [taken]
      simp only [Mode.Skips, List.forall_mem_append, List.forall_mem_cons]
      exact ⟨fun all => all.2, fun later => ⟨⟨blank, blanks⟩, later⟩⟩
    · next notBlank =>
      -- Only blanks are skipped inside a tag.
      have follows := tagStep_follows trim tag afterDot (Bool.eq_false_iff.mpr notBlank) rest
      simp only [tagStep, if_neg notBlank, read] at follows
      exact follows.elim

/-- A piece is a token or a fault only where nothing may be skipped. Otherwise a blank, a line end
or a comment would begin here, and that would have been read as a gap. -/
theorem stopped_of_read (apart : ∀ gap more next, step trim mode c rest ≠ .gap gap more next) :
    mode.Stopped (c :: rest) := by
  cases mode with
  | text trimming =>
    simp only [step, textStep] at apart
    split at apart
    · exact absurd rfl (apart _ _ _)
    · exact absurd rfl (apart _ _ _)
    · exact Mode.stopped_text (fun _ hash => nomatch (List.cons_prefix_cons.mp hash).1) (by simp)
    · exact Mode.stopped_text (fun _ hash => nomatch (List.cons_prefix_cons.mp hash).1) (by simp)
    · split at apart
      · exact absurd rfl (apart _ _ _)
      · next endless => exact Mode.stopped_text (fun _ _ => comment_endless endless) (by simp)
    · next noFeed _ _ noHash noReturn =>
      refine Mode.stopped_text (fun brace ⟨behind, parts⟩ => ?_) fun trims => ⟨noFeed trims, ?_⟩
      · exact (noHash behind brace parts.symm).elim
      · exact fun ret ⟨behind, parts⟩ => noReturn behind trims ret parts.symm
  | tag tag afterDot =>
    refine Mode.stopped_tag (Bool.eq_false_iff.mpr fun blank => ?_)
    simp only [step, tagStep, if_pos blank] at apart
    exact apart _ _ _ rfl

/-- A piece that is a token leads to a mode that knows what may be skipped behind it, and text is
told word for word. The cases are those of the mode and of what is read; inside a tag only blanks
may be skipped. -/
theorem follows_of_read {kind : Kind} (read : step trim mode c rest = .token kind more next) :
    (Step.token kind more next).Follows trim (c :: rest.take ·) := by
  cases mode with
  | text trimming =>
    simp only [step, textStep] at read
    split at read
    · cases read
    · cases read
    · cases read
      exact ⟨nofun, nofun, knows_tag trim .statement false rfl⟩
    · cases read
      exact ⟨nofun, nofun, knows_tag trim .output false rfl⟩
    · split at read <;> cases read
    · cases read
      refine ⟨nofun, fun s same => ?_, knows_text trim rfl (by simp)⟩
      exact (Kind.text.inj same).symm
  | tag tag afterDot =>
    by_cases blank : Text.isBlank c = true
    · simp only [step, tagStep, if_pos blank] at read
      cases read
    · have follows := tagStep_follows trim tag afterDot (Bool.eq_false_iff.mpr blank) rest
      rwa [show tagStep trim tag afterDot c rest = .token kind more next from read] at follows

end Steps

end Stencil.Token
