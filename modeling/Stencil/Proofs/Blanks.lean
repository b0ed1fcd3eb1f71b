import Stencil.Proofs.Joining
import Stencil.Proofs.Lookahead

/-!
# Blanks inside tags

Blanks may stand in front of every token of a tag and mean nothing there: the source has the same
tokens with them as without, and reads as the same nodes or not at all.

No piece in front of the blanks looks across them, and behind a piece that is a token reading begins
anew. Where the piece in front is blank itself, it grows.
-/

namespace Stencil

namespace Token

/-- Whether a token is read inside a tag. The fault of a comment without an end is not; all other
faults are. -/
def Kind.isInside : Kind → Bool
  | .text _ | .opening _ | .fault .openComment => false
  | _ => true

/-- A piece is no token inside a tag: it is a gap, a text, an opening, or the fault of a comment.
What stands between the tokens of a tag is a gap as well, so blanks there are on this side too. -/
def Step.Outside : Step → Prop
  | .token kind _ _ => kind.isInside = false
  | .gap .. => True
  | .fault f => (Kind.fault f).isInside = false

/-- Whatever comes first outside tags, it is not inside one: it is a text, a marker, a comment or a
line end. The cases are those of what a source may begin with there, in the order in which they are
tried. -/
theorem textStep_outside (trimming : Bool) (c : Char) (rest : List Char) :
    (textStep trimming c rest).Outside := by
  rw [textStep_trimming, textStep_eq]
  split
  · trivial
  · split
    · trivial
    · split
      · rfl
      · split
        · rfl
        · split
          · split
            · trivial
            · rfl
          · rfl

/-- Gaps in a tag are blank. Nothing else is skipped there, not even a comment, and the mode stays
as it is. -/
theorem tagStep_gap {trim : Bool} {tag : Tag} {afterDot : Bool} {c : Char} {rest : List Char}
    {gap : Gap} {more : Nat} {next : Mode}
    (read : tagStep trim tag afterDot c rest = .gap gap more next) :
    next = .tag tag afterDot ∧ ∀ d ∈ c :: rest.take more, Text.isBlank d = true := by
  by_cases blank : Text.isBlank c = true
  · rw [tagStep_eq, if_pos blank] at read
    cases read
    have taken : rest.take (rest.takeWhile Text.isBlank).length = rest.takeWhile Text.isBlank :=
      (List.prefix_iff_eq_take.mp (List.takeWhile_prefix _)).symm
    rw [taken]
    exact ⟨rfl, List.forall_mem_cons.mpr ⟨blank, List.all_eq_true.mp List.all_takeWhile⟩⟩
  · have follows := tagStep_follows trim tag afterDot (Bool.eq_false_iff.mpr blank) rest
    rw [read] at follows
    exact follows.elim

/-- The kinds of the tokens of a source, from the given mode on, with line ends behind statements
dropped or not. Places are left out, since blanks change them. -/
def kindsRead (trim : Bool) (mode : Mode) (source : List Char) : List Kind :=
  (pieces trim mode source).filterMap Piece.kind?

section Kinds

variable {trim : Bool} {mode next : Mode} {c : Char} {rest : List Char} {more : Nat}

/-- A token at the front is the first of the kinds, and the others are read behind it. -/
theorem kindsRead_of_token {kind : Kind} (read : step trim mode c rest = .token kind more next) :
    kindsRead trim mode (c :: rest) = kind :: kindsRead trim next (rest.drop more) := by
  rw [kindsRead, pieces_of_token read]
  rfl

/-- A gap at the front gives no token. -/
theorem kindsRead_of_gap {gap : Gap} (read : step trim mode c rest = .gap gap more next) :
    kindsRead trim mode (c :: rest) = kindsRead trim next (rest.drop more) := by
  rw [kindsRead, pieces_of_gap read]
  rfl

variable {tag : Tag} {afterDot : Bool}

/-- In a tag reading begins behind the blanks. They are one gap, which leaves the mode as it is, so
what is read behind them is the same with them and without them. -/
theorem kindsRead_unblank (source : List Char) :
    kindsRead trim (.tag tag afterDot) source =
      kindsRead trim (.tag tag afterDot) (source.dropWhile Text.isBlank) := by
  cases source with
  | nil => rfl
  | cons c rest =>
    by_cases blank : Text.isBlank c = true
    · have read : step trim (.tag tag afterDot) c rest =
          .gap .blank (rest.takeWhile Text.isBlank).length (.tag tag afterDot) := if_pos blank
      have passed : rest.drop (rest.takeWhile Text.isBlank).length =
          rest.dropWhile Text.isBlank := by
        conv => lhs; arg 2; rw [← List.takeWhile_append_dropWhile (p := Text.isBlank) (l := rest)]
        exact List.drop_left
      rw [kindsRead_of_gap read, passed, List.dropWhile_cons_of_pos blank]
    · rw [List.dropWhile_cons_of_neg blank]

/-- In a tag blanks in front mean nothing: with them or without, reading begins at the same
character. -/
theorem kindsRead_blanks {blanks : List Char} (blank : ∀ c ∈ blanks, Text.isBlank c = true)
    (source : List Char) :
    kindsRead trim (.tag tag afterDot) (blanks ++ source) =
      kindsRead trim (.tag tag afterDot) source := by
  rw [kindsRead_unblank, List.dropWhile_append_of_pos blank, ← kindsRead_unblank]

end Kinds

/-- Blanks can be put into a source behind some of it, and mean nothing there. Outside tags the
place is inside a tag further on, so there is a marker in front of it that a step outside may look
at. -/
structure Loose (trim : Bool) (mode : Mode) (source before behind : List Char) : Prop where
  whole : source = before ++ behind
  lead : mode.lead ≤ before.length
  same : ∀ blanks : List Char, (∀ c ∈ blanks, Text.isBlank c = true) →
    kindsRead trim mode (before ++ (blanks ++ behind)) = kindsRead trim mode source

section Loosening

variable {trim : Bool} {mode next : Mode} {c : Char} {rest before behind : List Char} {more : Nat}

/-- Inside a tag they can be put right there, with nothing in front. -/
theorem loose_here (trim : Bool) (tag : Tag) (afterDot : Bool) (source : List Char) :
    Loose trim (.tag tag afterDot) source [] source :=
  ⟨rfl, Nat.zero_le _, fun _ blank => kindsRead_blanks blank source⟩

/-- Outside tags a piece is in front of a tag, so that a place inside one is further on than any
marker. -/
theorem lead_of_within (within : (step trim mode c rest).Within before) :
    mode.lead ≤ (c :: before).length := by
  cases mode with
  | text trimming =>
    have positive : 0 < before.length := List.length_pos_iff.mpr (textStep_filled within)
    exact Nat.succ_le_succ positive
  | tag tag afterDot => exact Nat.zero_le _

/-- A piece that is no blank is read as before if blanks are put further behind. It looks at a
bounded number of characters, and none of the blanks is among them; what is left behind it is the
same source with the blanks in it. -/
theorem step_further (leads : (step trim mode c rest).Leads more next)
    (solid : ∀ tag afterDot, mode = .tag tag afterDot → Text.isBlank c = false)
    (later : Loose trim next (rest.drop more) before behind) :
    ∃ front, rest.take more ++ before = front ∧ rest = front ++ behind ∧
      mode.lead ≤ (c :: front).length ∧
      ∀ blanks : List Char, (∀ c ∈ blanks, Text.isBlank c = true) →
        step trim mode c (front ++ (blanks ++ behind)) = step trim mode c rest ∧
          (front ++ (blanks ++ behind)).drop more = before ++ (blanks ++ behind) := by
  obtain ⟨fits, spans⟩ := spans_of_leads leads
  have taken : (rest.take more).length = more := List.length_take_of_le fits
  obtain ⟨front, parts⟩ : ∃ front, rest.take more ++ before = front := ⟨_, rfl⟩
  have whole : rest = front ++ behind := by
    rw [← parts, List.append_assoc, ← later.whole, List.take_append_drop]
  have length : more + before.length = front.length := by
    rw [← parts, List.length_append, taken]
  have within : (step trim mode c rest).Within front :=
    spans front ((Nat.add_le_add_left later.lead more).trans_eq length)
  refine ⟨front, parts, whole, lead_of_within within, fun blanks blank => ⟨?_, ?_⟩⟩
  · rw [whole] at within ⊢
    exact step_blanks blank solid within
  · rw [← parts, List.append_assoc]
    exact List.drop_left' taken

/-- So a token stays, and the blanks go with what is behind it. Where the token ends is decided by
what is in front of the blanks, so it is read in the same way with them. -/
theorem loose_token {kind : Kind} (read : step trim mode c rest = .token kind more next)
    (later : Loose trim next (rest.drop more) before behind) :
    Loose trim mode (c :: rest) (c :: (rest.take more ++ before)) behind := by
  have leads : (step trim mode c rest).Leads more next := by
    rw [read]
    exact ⟨rfl, rfl⟩
  have solid : ∀ tag afterDot, mode = .tag tag afterDot → Text.isBlank c = false := by
    rintro tag afterDot rfl
    rw [Bool.eq_false_iff]
    intro blank
    cases (if_pos blank).symm.trans read
  obtain ⟨front, parts, whole, lead, same⟩ := step_further leads solid later
  rw [parts]
  refine ⟨congrArg (c :: ·) whole, lead, fun blanks blank => ?_⟩
  obtain ⟨reread, dropped⟩ := same blanks blank
  rw [List.cons_append, kindsRead_of_token (reread.trans read), dropped, later.same blanks blank,
    kindsRead_of_token read]

/-- So does a gap, and the blanks may become part of it. A gap in a tag is blank itself, so it is
dropped with them; any other gap is a piece like a token and is read as before. -/
theorem loose_gap {gap : Gap} (read : step trim mode c rest = .gap gap more next)
    (later : Loose trim next (rest.drop more) before behind) :
    Loose trim mode (c :: rest) (c :: (rest.take more ++ before)) behind := by
  cases mode with
  | text trimming =>
    have leads : (step trim (.text trimming) c rest).Leads more next := by
      rw [read]
      exact ⟨rfl, rfl⟩
    obtain ⟨front, parts, whole, lead, same⟩ := step_further leads (by simp) later
    rw [parts]
    refine ⟨congrArg (c :: ·) whole, lead, fun blanks blank => ?_⟩
    obtain ⟨reread, dropped⟩ := same blanks blank
    rw [List.cons_append, kindsRead_of_gap (reread.trans read), dropped, later.same blanks blank,
      kindsRead_of_gap read]
  | tag tag afterDot =>
    obtain ⟨rfl, allBlank⟩ := tagStep_gap read
    have parts (text : List Char) : c :: (rest.take more ++ before) ++ text =
        (c :: rest.take more) ++ (before ++ text) := by simp
    refine ⟨?_, Nat.zero_le _, fun blanks blank => ?_⟩
    · rw [parts, ← later.whole, List.cons_append, List.take_append_drop]
    · rw [parts, kindsRead_blanks allBlank, later.same blanks blank, kindsRead_of_gap read]

end Loosening

/-- A source can be parted where a token inside a tag starts. The induction goes along its pieces:
the token is the first of them, or the place is in what is left behind the first. -/
theorem loose_at_token {trim : Bool} {mode : Mode} {source : List Char} {place : Place}
    {token : Token} (member : token ∈ tokensFrom place (pieces trim mode source))
    (inside : token.kind.isInside = true) :
    ∃ before behind, Loose trim mode source before behind ∧ token.start = place.past before := by
  fun_induction pieces trim mode source generalizing place with
  | case1 => cases member
  | case2 tag =>
    obtain rfl := List.mem_singleton.mp member
    exact ⟨[], [], loose_here trim tag _ [], rfl⟩
  | case3 mode c rest kind more next read inductionHypothesis =>
    rcases List.mem_cons.mp member with rfl | behind
    · cases mode with
      | text trimming =>
        have outside := textStep_outside trimming c rest
        rw [show textStep trimming c rest = _ from read] at outside
        cases outside.symm.trans inside
      | tag tag afterDot => exact ⟨[], c :: rest, loose_here trim tag afterDot _, rfl⟩
    · obtain ⟨before, left, loose, start⟩ := inductionHypothesis behind
      refine ⟨_, left, loose_token read loose, ?_⟩
      rw [start, ← Place.past_append]
      rfl
  | case4 mode c rest gap more next read inductionHypothesis =>
    obtain ⟨before, left, loose, start⟩ := inductionHypothesis member
    refine ⟨_, left, loose_gap read loose, ?_⟩
    rw [start, ← Place.past_append]
    rfl
  | case5 mode c rest f read =>
    obtain rfl := List.mem_singleton.mp member
    cases mode with
    | text trimming =>
      have outside := textStep_outside trimming c rest
      rw [show textStep trimming c rest = _ from read] at outside
      cases outside.symm.trans inside
    | tag tag afterDot => exact ⟨[], c :: rest, loose_here trim tag afterDot _, rfl⟩

end Token

namespace Template

open Token (Stream)

/-- Two sources that have the same tokens, places apart, and read as the same nodes under every
name, or neither can be read. -/
structure ReadAlike (trim : Bool) (source other : String) : Prop where
  kinds : (Stream.ofSource trim source).tokens.map Token.kind =
    (Stream.ofSource trim other).tokens.map Token.kind
  nodes : ∀ name nodes,
    nodesOfSource name trim source = .ok nodes ↔ nodesOfSource name trim other = .ok nodes

/-- What the nodes of a source are hangs on the kinds of its tokens. Places are only used to say
where a source is refused. -/
theorem nodes_of_kinds {trim : Bool} {source other : String}
    (kinds : (Stream.ofSource trim source).tokens.map Token.kind =
      (Stream.ofSource trim other).tokens.map Token.kind) {name : Option String}
    {nodes : List Node} (read : nodesOfSource name trim other = .ok nodes) :
    nodesOfSource name trim source = .ok nodes := by
  obtain ⟨reached, ran, ended⟩ := nodesOfSource_ok.mp read
  obtain ⟨reading, ranAlike, alike⟩ := Reading.run_alike rfl kinds ran
  exact nodesOfSource_ok.mpr ⟨reading, ranAlike, Reading.ended_alike alike ended⟩

/-- Blanks in front of a token inside a tag mean nothing, whichever blanks they are and however
many. The token may be the end of the tag, and it may be the fault of a tag that cannot be read to
its end. -/
theorem blanks_mean_nothing (trim : Bool) (source : String) {token : Token}
    (member : token ∈ (Stream.ofSource trim source).tokens)
    (inside : token.kind.isInside = true) :
    ∃ before behind : String, source = before ++ behind ∧
      before.utf8ByteSize = token.start.offset ∧
      ∀ blanks : String, (∀ c ∈ blanks.toList, Text.isBlank c = true) →
        ReadAlike trim (before ++ blanks ++ behind) source := by
  obtain ⟨before, behind, loose, start⟩ := Token.loose_at_token member inside
  have whole : source = String.ofList before ++ String.ofList behind := by
    rw [← String.ofList_append, ← loose.whole, String.ofList_toList]
  refine ⟨.ofList before, .ofList behind, whole, ?_, fun blanks blank => ?_⟩
  · rw [start, Place.past_first]
    rfl
  · have told (text : String) : (Stream.ofSource trim text).tokens.map Token.kind =
        Token.kindsRead trim (.text false) text.toList := Token.kinds_tokensFrom _ _
    have kinds : (Stream.ofSource trim
          (String.ofList before ++ blanks ++ String.ofList behind)).tokens.map Token.kind =
        (Stream.ofSource trim source).tokens.map Token.kind := by
      rw [told, told, ← loose.same blanks.toList blank]
      simp
    exact ⟨kinds, fun name nodes => ⟨nodes_of_kinds kinds.symm, nodes_of_kinds kinds⟩⟩

/-- The dot in a path, behind digits that would be a number with a fraction elsewhere. Blanks are
put in front of it, which part it from these digits. -/
theorem blanks_mean_nothing_path :
    let source := "\x7b\x7b rows.0.1 \x7d\x7d"
    let dot : Token := ⟨.sign .dot, ⟨9, 1, 10⟩, 10⟩
    dot ∈ (Stream.ofSource false source).tokens ∧ dot.kind.isInside = true ∧
      ∃ before behind : String, source = before ++ behind ∧ before.utf8ByteSize = 9 ∧
        ∀ blanks : String, (∀ c ∈ blanks.toList, Text.isBlank c = true) →
          ReadAlike false (before ++ blanks ++ behind) source := by
  intro source dot
  have tokens : (Stream.ofSource false source).tokens =
      [⟨.opening .output, ⟨0, 1, 1⟩, 2⟩, ⟨.name "rows", ⟨3, 1, 4⟩, 7⟩,
        ⟨.sign .dot, ⟨7, 1, 8⟩, 8⟩, ⟨.integer 0, ⟨8, 1, 9⟩, 9⟩, dot,
        ⟨.integer 1, ⟨10, 1, 11⟩, 11⟩, ⟨.closing .output, ⟨12, 1, 13⟩, 14⟩] := by decide +kernel
  have member : dot ∈ (Stream.ofSource false source).tokens := by simp [tokens]
  exact ⟨member, rfl, blanks_mean_nothing false source member rfl⟩

end Template

end Stencil
