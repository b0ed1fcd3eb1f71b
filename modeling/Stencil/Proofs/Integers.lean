import Stencil.Proofs.Entities
import Stencil.Proofs.Paths
import Stencil.Proofs.Refusals

/-!
# Whole numbers in sources

What a whole number is put out as can stand in a tag for the same number. There is one number for
which it cannot: the digits of a negative number are read before the sign in front of them has a
say, and those of the least number stand for one more than the greatest. So the tag is refused, and
so is every literal whose digits stand for more than the greatest number, wherever it stands in a
source.
-/

namespace Stencil

namespace Number

/-- Integers are written as everywhere else. -/
theorem integerText_eq (n : Int) : integerText n = toString n := by
  cases n with
  | ofNat m =>
    have natural : ¬Int.ofNat m < 0 := Int.not_lt.mpr (Int.natCast_nonneg m)
    rw [integerText, if_neg natural]
    rfl
  | negSucc m =>
    rw [integerText, if_pos (Int.negSucc_lt_zero m), String.ofList_cons]
    rfl

/-- A number that does not fit is none. The comparison is with the greatest number, since digits
stand for natural numbers. -/
theorem whole?_large {n : Nat} (large : Int64.maxValue.toInt < n) : whole? n = none :=
  if_neg fun bounds => absurd bounds.2 (Int.not_le.mpr large)

/-- All numbers but the least have a counterpart of the other sign. -/
theorem toInt_negated {n : Int64} (other : n ≠ .minValue) : (-n).toInt = -n.toInt := by
  have least : n.toInt ≠ Int64.minValue.toInt := fun same => other (Int64.toInt_inj.mp same)
  have low : Int64.minValue.toInt = -2 ^ 63 := rfl
  have bound := n.le_toInt
  have top := n.toInt_lt
  rw [Int64.toInt_neg, Int.bmod_eq_of_le (by omega) (by omega)]

/-- The digits of a number without a sign stand for the number, and the number fits since it is
one. -/
theorem position_digits {n : Int64} (natural : 0 ≤ n.toInt) :
    position? (Nat.toDigits 10 n.toInt.natAbs) = some n := by
  rw [position?, natural?_toDigits, Option.bind_some, Int.natAbs_of_nonneg natural, whole?_toInt]

/-- No digit and no sign of a number is anything special in markup, so a number is put out as it is
written. -/
theorem escape_wholeText (n : Int64) : Text.Markup.escape (wholeText n) = wholeText n := by
  have digits : ∀ c ∈ Nat.toDigits 10 n.toInt.natAbs, c ∉ Text.Markup.specials := by
    intro c member special
    have digit := Nat.isDigit_of_mem_toDigits (by decide) (by decide) member
    simp only [Text.Markup.specials, List.mem_cons, List.not_mem_nil, or_false] at special
    rcases special with rfl | rfl | rfl | rfl | rfl <;> exact absurd digit (by decide)
  apply Text.Markup.escape_ordinary
  rw [wholeText, integerText]
  split
  · rw [String.toList_ofList, List.forall_mem_cons]
    exact ⟨by decide, digits⟩
  · rwa [String.toList_ofList]

end Number

namespace Token

section Literals

variable (trim : Bool) (tag : Tag) (afterDot : Bool) {c : Char} {more rest : List Char}
  (digits : ∀ d ∈ c :: more, d.isDigit = true) (stops : ∀ d ∈ rest.head?, d.isDigit = false)

include digits stops

/-- Digits with a fraction behind them are a decimal, however large the number is that they stand
for. -/
theorem tagStep_fraction {places : List Char}
    (fraction : (if afterDot then none else fraction? rest) = some places) :
    ∃ x length, tagStep trim tag afterDot c (more ++ rest) =
      .token (.decimal x) length (.tag tag false) := by
  obtain ⟨digit, behind⟩ := List.forall_mem_cons.mp digits
  obtain ⟨taken, left⟩ := takeWhile_stops behind stops
  rw [tagStep_number trim tag afterDot digit, numberStep]
  simp only [taken, left, fraction]
  exact ⟨_, _, rfl⟩

/-- Digits without one are a fault if they stand for too large a number. The fault names the digits
as they are written, with the zeros in front. -/
theorem tagStep_large (whole : (if afterDot then none else fraction? rest) = none)
    (large : Int64.maxValue.toInt < (Nat.ofDigitChars 10 (c :: more) 0 : Nat)) :
    tagStep trim tag afterDot c (more ++ rest) =
      .fault (.tooLarge (String.ofList (c :: more))) := by
  obtain ⟨digit, behind⟩ := List.forall_mem_cons.mp digits
  obtain ⟨taken, left⟩ := takeWhile_stops behind stops
  rw [tagStep_number trim tag afterDot digit, numberStep]
  simp only [taken, left, whole, Number.whole?_large large]

end Literals

/-- A piece is a token of the given kind. A gap is none, and a fault is the token that tells of
it. -/
def Step.Gives (kind : Kind) : Step → Prop
  | .token given _ _ => given = kind
  | .gap .. => False
  | .fault f => kind = .fault f

/-- What belongs inside a tag is read inside a tag: outside of tags there are texts and openings
alone. -/
theorem tag_of_gives {trim : Bool} {mode : Mode} {c : Char} {rest : List Char} {kind : Kind}
    (given : (step trim mode c rest).Gives kind) (inside : kind.isInside = true) :
    ∃ tag afterDot, mode = .tag tag afterDot := by
  cases mode with
  | text trimming =>
    have outside : (step trim (.text trimming) c rest).Outside := textStep_outside trimming c rest
    generalize step trim (.text trimming) c rest = read at given outside
    cases read with
    | token => cases outside.symm.trans (given ▸ inside)
    | gap => exact given.elim
    | fault => cases outside.symm.trans (given ▸ inside)
  | tag tag afterDot => exact ⟨tag, afterDot, rfl⟩

/-- A token of a source is read inside a tag, from the characters behind those in front of it, or it
is the fault that there are none. With this a token is tied to the characters at its place. -/
def ReadIn (trim : Bool) (place : Place) (source : List Char) (token : Token) : Prop :=
  ∃ before behind tag afterDot, source = before ++ behind ∧ token.start = place.past before ∧
    (behind = [] → token.kind = .fault (.openTag tag)) ∧
    ∀ c rest, behind = c :: rest → (tagStep trim tag afterDot c rest).Gives token.kind

section Reading

variable {trim : Bool} {place : Place} {c : Char} {rest : List Char} {token : Token}

/-- A token of the piece at hand is read from where the piece begins. Nothing of the source is in
front of it, and its mode is the one that the scan has there. -/
theorem read_here {mode : Mode} (given : (step trim mode c rest).Gives token.kind)
    (inside : token.kind.isInside = true) (start : token.start = place) :
    ReadIn trim place (c :: rest) token := by
  obtain ⟨tag, afterDot, rfl⟩ := tag_of_gives given inside
  refine ⟨[], c :: rest, tag, afterDot, rfl, start,
    fun none => absurd none (List.cons_ne_nil c rest), ?_⟩
  intro d left same
  obtain ⟨rfl, rfl⟩ := List.cons.inj same
  exact given

/-- A token that is read from what is left of a source is read from the source, with what has been
read in front. -/
theorem read_further {more : Nat}
    (further : ReadIn trim (place.past (c :: rest.take more)) (rest.drop more) token) :
    ReadIn trim place (c :: rest) token := by
  obtain ⟨before, behind, tag, afterDot, parts, start, given⟩ := further
  refine ⟨c :: rest.take more ++ before, behind, tag, afterDot, ?_, ?_, given⟩
  · rw [List.append_assoc, ← parts, List.cons_append, List.take_append_drop]
  · rw [start, ← Place.past_append]

/-- Every token that belongs inside a tag is read inside one. The induction goes along the
pieces, of which each is one token or a gap, and keeps the place from which the rest of the
source is read. -/
theorem read_in {mode : Mode} {source : List Char}
    (member : token ∈ tokensFrom place (pieces trim mode source))
    (inside : token.kind.isInside = true) : ReadIn trim place source token := by
  fun_induction pieces trim mode source generalizing place with
  | case1 => cases member
  | case2 tag afterDot =>
    obtain rfl := List.mem_singleton.mp member
    exact ⟨[], [], tag, afterDot, rfl, rfl, fun _ => rfl,
      fun c rest filled => absurd filled.symm (List.cons_ne_nil c rest)⟩
  | case3 mode c rest kind more next read inductionHypothesis =>
    rcases List.mem_cons.mp member with rfl | behind
    · exact read_here (by rw [read]; rfl) inside rfl
    · exact read_further (inductionHypothesis behind)
  | case4 mode c rest gap more next read inductionHypothesis =>
    exact read_further (inductionHypothesis member)
  | case5 mode c rest f read =>
    obtain rfl := List.mem_singleton.mp member
    exact read_here (by rw [read]; rfl) inside rfl

end Reading

end Token

/-- The place behind some of a source tells how much of it that is, since the offset grows with
every character. So the digits that are said to stand at the start of a token are those that it is
read from. -/
theorem Place.behind_inj {source before other rest left : List Char}
    (parts : source = before ++ rest) (otherParts : source = other ++ left)
    (same : behind before = behind other) : before = other := by
  have empty {front more : List Char} (same : behind front = behind (front ++ more)) :
      more = [] := by
    by_contra present
    have before : (behind front).Before (behind (front ++ more)) := behind_before front present
    rw [← same] at before
    exact before.elim (Nat.lt_irrefl _) fun left => Nat.lt_irrefl _ left.2
  rcases List.append_eq_append_iff.mp (parts.symm.trans otherParts) with
    ⟨more, rfl, -⟩ | ⟨more, rfl, -⟩
  · rw [empty same, List.append_nil]
  · rw [empty same.symm, List.append_nil]

section Written

open Token (kindsRead Stream)

/-- A tag that puts out what is written in it, with a blank on either side. What is written begins
at the fourth column of the only line. -/
def outputTag (written : String) : String := "\x7b\x7b " ++ written ++ " \x7d\x7d"

/-- Behind the opening of the tag and its blank, the tag is read from what is written in it. What is
written must not begin with a blank itself, or the gap would go on. -/
theorem pieces_outputTag (trim : Bool) {written : List Char} (unblank : Token.Unblank written) :
    Token.pieces trim (.text false) (outputTag (String.ofList written)).toList =
      .token (.opening .output) ['{', '{'] :: .gap .blank [' '] ::
        Token.pieces trim (.tag .output false) (written ++ [' ', '}', '}']) := by
  obtain ⟨c, more, rfl, notBlank⟩ := unblank
  have parts : (outputTag (String.ofList (c :: more))).toList =
      '{' :: '{' :: ' ' :: (c :: more ++ [' ', '}', '}']) := by
    simp [outputTag, String.toList_append]
  rw [parts]
  exact Token.pieces_opened trim ⟨c, _, rfl, notBlank⟩

/-- Digits are not blank. -/
theorem unblank_digits {digits : List Char} (present : digits ≠ [])
    (all : ∀ d ∈ digits, d.isDigit = true) : Token.Unblank digits := by
  obtain ⟨c, more, rfl⟩ := List.exists_cons_of_ne_nil present
  exact ⟨c, more, rfl, Text.digit_not_blank (all c List.mem_cons_self)⟩

/-- Behind what is written in the tag there is a blank, and no digit. -/
theorem no_digit_behind : ∀ d ∈ [' ', '}', '}'].head?, d.isDigit = false := by
  rintro d ⟨⟩
  decide

/-- The digits of a number and the end of the tag are the tokens that are left behind the
opening. -/
theorem kindsRead_whole (trim : Bool) {n : Int64} (natural : 0 ≤ n.toInt) :
    kindsRead trim (.tag .output false) (Nat.toDigits 10 n.toInt.natAbs ++ [' ', '}', '}']) =
      [.integer n, .closing .output] := by
  rw [Key.kindsRead_position trim .output false (Number.position_digits natural) no_digit_behind
    (.inr rfl), kindsRead, Token.pieces_closed]
  rfl

/-- The tag of a whole number has the tokens of the number. A negative one has a minus and the
digits of its counterpart, and the least number has no counterpart. -/
theorem kinds_of_whole (trim : Bool) {n : Int64} (other : n ≠ .minValue) :
    (Stream.ofSource trim (outputTag (Number.wholeText n))).tokens.map Token.kind =
      .opening .output :: ((Expr.int n).tokens ++ [.closing .output]) := by
  rw [Stream.ofSource, Token.kinds_tokensFrom, Number.wholeText, Number.integerText, Expr.tokens]
  by_cases negative : n.toInt < 0
  · have negated : (-n).toInt = -n.toInt := Number.toInt_negated other
    have read : Token.step trim (.tag .output false) '-'
        (Nat.toDigits 10 n.toInt.natAbs ++ [' ', '}', '}']) =
          .token (.sign .minus) 0 (.tag .output false) := rfl
    have inside := kindsRead_whole trim (n := -n) (by omega)
    rw [negated, Int.natAbs_neg] at inside
    rw [if_pos negative, if_pos negative, pieces_outputTag trim ⟨'-', _, rfl, by decide⟩]
    refine congrArg (Token.Kind.opening .output :: ·) ?_
    show kindsRead trim (.tag .output false) ('-' :: (_ ++ [' ', '}', '}'])) = _
    rw [Token.kindsRead_of_token read, List.drop_zero, inside]
    rfl
  · have inside := kindsRead_whole trim (Int.not_lt.mp negative)
    have digits : Token.Unblank (Nat.toDigits 10 n.toInt.natAbs) :=
      unblank_digits Nat.toDigits_ne_nil fun d member =>
        Nat.isDigit_of_mem_toDigits (by decide) (by decide) member
    rw [if_neg negative, if_neg negative, pieces_outputTag trim digits]
    exact congrArg (Token.Kind.opening .output :: ·) inside

/-- The tag of a whole number is rendered as the number. What is put out has no characters to be
escaped. -/
theorem render_whole {n : Int64} (other : n ≠ .minValue) (bindings : Layer) :
    renderText (outputTag (toString n.toInt)) bindings = .ok (toString n.toInt) := by
  rw [← Number.integerText_eq]
  have writable : (Expr.int n).Writable := other
  obtain ⟨scope, -, rendered⟩ := renderText_output writable (kinds_of_whole false other) bindings
  refine rendered.trans ?_
  have put : (Value.int n).emit true (.int n) = .ok (Text.Markup.escape (Number.wholeText n)) := rfl
  rw [Expr.eval]
  show Except.mapError _ ((Value.int n).emit true (.int n)) = _
  rw [put, Number.escape_wholeText]
  rfl

end Written

section TooLarge

open Token (Stream)

variable {digits : List Char} (present : digits ≠ []) (all : ∀ d ∈ digits, d.isDigit = true)
  (large : Int64.maxValue.toInt < (Nat.ofDigitChars 10 digits 0 : Nat))

include present all large

/-- In a tag, with or without a sign in front, digits for too large a number are refused. The place
is that of the digits, behind the sign if there is one: the sign is a token of its own and says
nothing of the number behind it. -/
theorem refused_large (name : Option String) (trim negated : Bool) :
    Template.nodesOfSource name trim
        (outputTag (String.ofList (if negated then '-' :: digits else digits))) =
      .error ⟨.fault (.tooLarge (String.ofList digits)), 1, if negated then 5 else 4⟩ := by
  have unblank := unblank_digits present all
  obtain ⟨c, more, rfl⟩ := List.exists_cons_of_ne_nil present
  have large : Token.step trim (.tag .output false) c (more ++ [' ', '}', '}']) =
      .fault (.tooLarge (String.ofList (c :: more))) :=
    Token.tagStep_large trim .output false all no_digit_behind rfl large
  have minus : Token.step trim (.tag .output false) '-' (c :: more ++ [' ', '}', '}']) =
      .token (.sign .minus) 0 (.tag .output false) := rfl
  let opening : Token := ⟨.opening .output, .first, 2⟩
  let literal (start : Place) : Token := ⟨.fault (.tooLarge (String.ofList (c :: more))), start,
    (start.past (c :: more ++ [' ', '}', '}'])).offset⟩
  cases negated with
  | false =>
    have tokens : (Stream.ofSource trim (outputTag (String.ofList (c :: more)))).tokens =
        [opening] ++ literal ⟨3, 1, 4⟩ :: [] := by
      rw [Stream.ofSource, pieces_outputTag trim unblank, List.cons_append,
        Token.pieces_of_fault large]
      rfl
    exact Template.refused_of_misfit tokens rfl (Template.Reading.next_fault rfl)
  | true =>
    have tokens : (Stream.ofSource trim (outputTag (String.ofList ('-' :: c :: more)))).tokens =
        [opening, ⟨.sign .minus, ⟨3, 1, 4⟩, 4⟩] ++ literal ⟨4, 1, 5⟩ :: [] := by
      rw [Stream.ofSource, pieces_outputTag trim ⟨'-', _, rfl, by decide⟩, List.cons_append,
        Token.pieces_of_token minus, List.drop_zero, List.cons_append, Token.pieces_of_fault large]
      rfl
    exact Template.refused_of_misfit tokens rfl (Template.Reading.next_fault rfl)

/-- So is their rendering, with the refusal for a fault. -/
theorem render_large (negated : Bool) (bindings : Layer) :
    renderText (outputTag (String.ofList (if negated then '-' :: digits else digits))) bindings =
      .error (.malformed ⟨.fault (.tooLarge (String.ofList digits)), 1,
        if negated then 5 else 4⟩) := by
  rw [renderText, Template.ofSource, refused_large present all large]
  rfl

end TooLarge

/-- Digits for too large a number are a fault wherever they stand inside a tag, if they are not read
as a decimal, and the source is refused: for the digits, if not for a token in front of them. That
the token starts where the digits do is said by `start`, and `stops` says that all digits there are
taken. -/
theorem fault_large (name : Option String) {trim : Bool} {source : String}
    {earlier later : List Token} {token : Token} {before digits behind : List Char}
    (tokens : (Token.Stream.ofSource trim source).tokens = earlier ++ token :: later)
    (inside : token.kind.isInside = true) (whole : ∀ x, token.kind ≠ .decimal x)
    (parts : source.toList = before ++ digits ++ behind)
    (start : token.start = Place.behind before) (present : digits ≠ [])
    (all : ∀ d ∈ digits, d.isDigit = true) (stops : ∀ d ∈ behind.head?, d.isDigit = false)
    (large : Int64.maxValue.toInt < (Nat.ofDigitChars 10 digits 0 : Nat)) :
    token.kind = .fault (.tooLarge (String.ofList digits)) ∧ later = [] ∧
      ∃ refusal, Template.nodesOfSource name trim source = .error refusal ∧
        (refusal = .atToken token (.fault (.tooLarge (String.ofList digits))) ∨
          ∃ prior ∈ earlier, refusal.IsAt prior.start) := by
  have kind : token.kind = .fault (.tooLarge (String.ofList digits)) := by
    have member : token ∈ (Token.Stream.ofSource trim source).tokens := by simp [tokens]
    obtain ⟨front, rest, tag, afterDot, split, starts, -, given⟩ := Token.read_in member inside
    rw [Place.past_first, start] at starts
    rw [List.append_assoc] at parts
    -- Places tell how much of the source has been passed, so the token begins at the digits.
    obtain rfl := Place.behind_inj parts split starts
    obtain ⟨c, more, rfl⟩ := List.exists_cons_of_ne_nil present
    have here := given c (more ++ behind) (List.append_cancel_left (split.symm.trans parts))
    cases fraction : (if afterDot then none else Token.fraction? behind) with
    | none =>
      rw [Token.tagStep_large trim tag afterDot all stops fraction large] at here
      exact here
    | some places =>
      obtain ⟨x, length, read⟩ := Token.tagStep_fraction trim tag afterDot all stops fraction
      rw [read] at here
      exact absurd here.symm (whole x)
  have tiled := Token.tiled_tokens trim source
  rw [tokens] at tiled
  obtain ⟨_, _, _, -, rest⟩ := tiled.append
  obtain ⟨refusal, refused, told⟩ :=
    Template.Reading.run_fault (Template.Reading.start name) earlier later kind
  refine ⟨kind, ?_, refusal, ?_, told⟩
  -- Nothing follows a fault.
  · cases rest with
    | token _ _ _ final _ _ => exact (final _ kind).2
  · rw [Template.nodesOfSource, Template.nodesOfStream, tokens, refused]

/-- Without its sign the least number is above the greatest. So the tag that it is put out as is
refused for its digits. -/
theorem render_least (bindings : Layer) :
    renderText (outputTag (toString Int64.minValue.toInt)) bindings =
      .error (.malformed ⟨.fault (.tooLarge "9223372036854775808"), 1, 5⟩) := by
  have least : toString Int64.minValue.toInt =
      String.ofList ('-' :: "9223372036854775808".toList) := by decide +kernel
  have all : ∀ d ∈ "9223372036854775808".toList, d.isDigit = true := by simp
  have refused := render_large (by decide) all (by decide +kernel) true bindings
  rw [String.ofList_toList] at refused
  rw [least]
  exact refused

/-- A whole number is written in a tag as it is put out, unless it is the least number, and what is
above the greatest number is refused where it stands. The least number is refused as well: behind
its sign there are digits for a number above the greatest. -/
theorem whole_numbers_written (n : Int64) (bindings : Layer) :
    (renderText (outputTag (toString n.toInt)) bindings = .ok (toString n.toInt) ↔
      n ≠ .minValue) ∧
    (n = .minValue → renderText (outputTag (toString n.toInt)) bindings =
      .error (.malformed ⟨.fault (.tooLarge "9223372036854775808"), 1, 5⟩)) ∧
    ∀ digits : List Char, digits ≠ [] → (∀ d ∈ digits, d.isDigit = true) →
      Int64.maxValue.toInt < (Nat.ofDigitChars 10 digits 0 : Nat) →
      renderText (outputTag (String.ofList digits)) bindings =
        .error (.malformed ⟨.fault (.tooLarge (String.ofList digits)), 1, 4⟩) ∧
      ∀ name trim source earlier token later before behind,
        (Token.Stream.ofSource trim source).tokens = earlier ++ token :: later →
        token.kind.isInside = true → (∀ x, token.kind ≠ .decimal x) →
        source.toList = before ++ digits ++ behind → token.start = Place.behind before →
        (∀ d ∈ behind.head?, d.isDigit = false) →
        token.kind = .fault (.tooLarge (String.ofList digits)) ∧ later = [] ∧
          ∃ refusal, Template.nodesOfSource name trim source = .error refusal ∧
            (refusal = .atToken token (.fault (.tooLarge (String.ofList digits))) ∨
              ∃ prior ∈ earlier, refusal.IsAt prior.start) := by
  refine ⟨⟨?_, fun other => render_whole other bindings⟩, ?_, ?_⟩
  · rintro written rfl
    rw [render_least] at written
    cases written
  · rintro rfl
    exact render_least bindings
  · intro digits present all large
    refine ⟨render_large present all large false bindings, ?_⟩
    intro name trim source earlier token later before behind tokens inside whole parts start stops
    exact fault_large name tokens inside whole parts start present all stops large

/-- The greatest number, the one above it, and the one above it with a zero in front in a condition.
Only the first can be written, and zeros in front do not help the others. -/
theorem whole_numbers_written_greatest :
    let source := "\x7b% if a + 09223372036854775808 %\x7d"
    let opening : List Token := [⟨.opening .statement, ⟨0, 1, 1⟩, 2⟩, ⟨.keyword .if, ⟨3, 1, 4⟩, 5⟩,
      ⟨.name "a", ⟨6, 1, 7⟩, 7⟩, ⟨.sign .plus, ⟨8, 1, 9⟩, 9⟩]
    let literal : Token := ⟨.fault (.tooLarge "09223372036854775808"), ⟨10, 1, 11⟩, 33⟩
    renderText (outputTag "9223372036854775807") [] = .ok "9223372036854775807" ∧
      renderText (outputTag "9223372036854775808") [] =
        .error (.malformed ⟨.fault (.tooLarge "9223372036854775808"), 1, 4⟩) ∧
      (Token.Stream.ofSource true source).tokens = opening ++ [literal] ∧
      ∃ refusal, Template.nodesOfSource none true source = .error refusal ∧
        (refusal = .atToken literal (.fault (.tooLarge "09223372036854775808")) ∨
          ∃ prior ∈ opening, refusal.IsAt prior.start) := by
  intro source opening literal
  have tokens : (Token.Stream.ofSource true source).tokens = opening ++ [literal] := by
    decide +kernel
  have parts : source.toList = "\x7b% if a + ".toList ++ "09223372036854775808".toList ++
      " %\x7d".toList := by simp [source]
  have start : literal.start = Place.behind "\x7b% if a + ".toList := by decide +kernel
  have whole : ∀ x, literal.kind ≠ .decimal x := by simp [literal]
  obtain ⟨written, -, large⟩ := whole_numbers_written .maxValue []
  obtain ⟨alone, -⟩ :=
    large "9223372036854775808".toList (by decide) (by simp) (by decide +kernel)
  obtain ⟨-, anywhere⟩ :=
    large "09223372036854775808".toList (by decide) (by simp) (by decide +kernel)
  obtain ⟨-, -, refused⟩ := anywhere none true source opening literal [] _ _ tokens rfl whole parts
    start (by simp)
  rw [String.ofList_toList] at alone refused
  exact ⟨written.mpr (by decide), alone, tokens, refused⟩

/-- The least number is put out as a text that cannot be read. -/
theorem least_number_not_written :
    ¬∀ (n : Int64) (bindings : Layer),
      renderText (outputTag (toString n.toInt)) bindings = .ok (toString n.toInt) := by
  intro written
  have read := written .minValue []
  rw [render_least] at read
  cases read

end Stencil
