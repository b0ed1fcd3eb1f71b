import Stencil.Proofs.Coverage
import Stencil.Proofs.RoundTrip

/-!
# Where a source is refused

Reading goes on as long as tokens fit, and the first token that does not decides. Whether a token
fits depends on the kinds of the tokens in front of it. Places are only kept for messages: if they
are left out of a state, reading a token and leaving them out come to the same in either order. A
fault fits nowhere, so reading never passes one. What is left to be complained about when all tokens
fit is that the source ends too early, and then it has been gone through to its end.
-/

namespace Stencil

/-- A refusal is about a place, as far as a reader is told: by its line and its column. The offset
of the place is not told. -/
def Malformed.IsAt (refusal : Malformed) (place : Place) : Prop :=
  refusal.line = place.line ∧ refusal.column = place.column

/-- A refusal is not about a later place as well, since it has one line and one column. -/
theorem Malformed.IsAt.not_before {refusal : Malformed} {place later : Place}
    (isAt : refusal.IsAt place) (before : place.Before later) : ¬refusal.IsAt later := by
  rintro ⟨line, column⟩
  rcases before with above | ⟨-, left⟩
  · exact Nat.ne_of_lt above (isAt.1.symm.trans line)
  · exact Nat.ne_of_lt left (isAt.2.symm.trans column)

namespace Expr.Reading

/-- A fault never goes on an expression, in whatever stage reading is. The cases are those of the
stages. It is no operand, and a complete operand it can only end. -/
theorem step_fault (reading : Reading) (f : Token.Fault) (further : Reading) :
    reading.step (.fault f) ≠ .ok (.more further) := by
  obtain ⟨waiting, brackets, stage⟩ := reading
  have ended (e : Expr) : endOperand e brackets (.fault f) ≠ .ok (.more further) := by
    unfold endOperand
    split <;> simp
  have extended (e : Expr) : extend waiting brackets e (.fault f) ≠ .ok (.more further) :=
    ended (collapse e waiting)
  have started : startOperand waiting brackets (.fault f) ≠ .ok (.more further) := by
    have refused : startOperand waiting brackets (.fault f) = .error .expression := rfl
    rw [refused]
    exact nofun
  -- No stage is gone on from by a fault; a complete operand it can only end.
  cases stage with
  | operand => exact started
  | item => simpa only [step, startItem] using started
  | negative => exact nofun
  | member of => exact nofun
  | filter of => exact nofun
  | filtered of named =>
    simp only [step, reduceCtorEq, if_false]
    exact extended _
  | complete e => exact extended e

end Expr.Reading

namespace Template

open Token (Kind)

/-- The same level without its place, which is kept for the message about a construct that has no
end. -/
def Level.unplaced (level : Level) : Level := { level with place := .first }

/-- The same purpose without its place. -/
def Purpose.unplaced : Purpose → Purpose
  | .output => .output
  | .loop _ target => .loop .first target
  | .case _ cases => .case .first cases

/-- The same ending without its place. -/
def Ending.unplaced : Ending → Ending
  | .add node => .add node
  | .descend opened _ => .descend opened .first

/-- The same stage without its place. -/
def Stage.unplaced : Stage → Stage
  | .loopTarget _ => .loopTarget .first
  | .loopIn _ target => .loopIn .first target
  | .blockName _ => .blockName .first
  | .expression purpose inner => .expression purpose.unplaced inner
  | .close ending => .close ending.unplaced
  | stage => stage

namespace Reading

/-- The same state without any place in it. Places are kept for messages alone, so what is read next
does not depend on them. -/
def unplaced (reading : Reading) : Reading :=
  { reading with levels := reading.levels.map Level.unplaced, stage := reading.stage.unplaced }

variable (reading : Reading)

/-- What the end of a tag completes does not depend on places. -/
theorem complete_unplaced (ending : Ending) :
    (reading.complete ending).unplaced = reading.unplaced.complete ending.unplaced := by
  cases ending <;> rfl

/-- How a construct is ended or continued does not depend on places. The place where it was opened
is kept for a message at the end of the source. -/
theorem terminate_unplaced (word : Keyword) :
    (reading.terminate word).map unplaced = reading.unplaced.terminate word := by
  unfold terminate
  cases around : reading.levels with
  | nil => simp [unplaced, around, Except.map]
  | cons level outer =>
    obtain ⟨opened, place, before⟩ := level
    cases opened <;> simp only [unplaced, around, List.map_cons, Level.unplaced]
    · split <;> rfl
    · split <;> rfl
    · split <;> rfl
    · split <;> rfl

/-- The place of the word that begins a statement is kept, and does nothing else. The cases are
those of the words; only a construct that is left unfinished is ever told by its place. -/
theorem statement_unplaced (place : Place) (kind : Kind) :
    (reading.statement place kind).map unplaced = reading.unplaced.statement .first kind := by
  unfold statement
  split
  · rfl
  · rfl
  · rfl
  · have outermost : reading.unplaced.levels.isEmpty = reading.levels.isEmpty := by
      simp [unplaced]
    rw [outermost]
    show Except.map unplaced _ = if reading.inherited = true then _ else
      if (reading.levels.isEmpty && reading.nodes.isEmpty) = true then _ else _
    split
    · rfl
    · split <;> rfl
  · rfl
  · split
    · exact terminate_unplaced reading _
    · rfl
  · rfl

/-- Reading a token and leaving places out come to the same in either order. The cases are those of
the stages; a place that goes into the next state is left out there. -/
theorem next_unplaced (token : Token) :
    (reading.next token).map unplaced = reading.unplaced.next ⟨token.kind, .first, 0⟩ := by
  have same : reading.unplaced.stage = reading.stage.unplaced := rfl
  unfold next
  rw [same]
  cases stage : reading.stage with
  | content =>
    simp only [Stage.unplaced]
    split <;> rfl
  | statement =>
    simp only [Stage.unplaced]
    exact statement_unplaced reading token.start token.kind
  | loopTarget place =>
    simp only [Stage.unplaced]
    split <;> rfl
  | loopIn place target =>
    simp only [Stage.unplaced]
    split <;> rfl
  | blockName place =>
    simp only [Stage.unplaced]
    split
    · show Except.map unplaced (if _ ∈ reading.blocks then _ else _) =
        if _ ∈ reading.blocks then _ else _
      split <;> rfl
    · rfl
  | reference link =>
    simp only [Stage.unplaced]
    split
    · next target _ =>
      -- The name of the template is no place, so references lead where they led.
      rw [show reading.unplaced.name = reading.name from rfl]
      cases Reference.resolve? reading.name target <;> rfl
    · rfl
  | expression purpose inner =>
    have tag : purpose.unplaced.tag = purpose.tag := by cases purpose <;> rfl
    have ending (e : Expr) : purpose.unplaced.ending e = (purpose.ending e).unplaced := by
      cases purpose <;> rfl
    simp only [Stage.unplaced, tag, ending]
    split
    · rfl
    · rfl
    · split
      · exact congrArg Except.ok (complete_unplaced reading _)
      · rfl
  | blockEnd name body =>
    simp only [Stage.unplaced]
    split
    · split <;> rfl
    · split <;> rfl
  | close ending =>
    simp only [Stage.unplaced]
    split
    · exact congrArg Except.ok (complete_unplaced reading ending)
    · rfl

/-- A fault is refused for what it is, however far reading has come. No stage has a use for one; an
expression cannot go on with it either. -/
theorem next_fault {reading : Reading} {token : Token} {f : Token.Fault}
    (fault : token.kind = .fault f) : reading.next token = .error (.fault f) := by
  unfold next
  rw [fault]
  cases stage : reading.stage with
  | expression purpose inner =>
    simp only
    split
    · rfl
    · next goesOn => exact absurd goesOn (inner.step_fault f _)
    · rfl
  | _ => rfl

section Alike

variable {reading other : Reading}

/-- States that differ in places only make the same of tokens of one kind. -/
theorem next_alike (alike : other.unplaced = reading.unplaced) {token otherToken : Token}
    (kinds : otherToken.kind = token.kind) :
    (other.next otherToken).map unplaced = (reading.next token).map unplaced := by
  rw [next_unplaced, next_unplaced, alike, kinds]

/-- So runs over tokens of the same kinds lead to states that differ in places only. The
induction is on the tokens; a token that fits in the one state fits in the other, for the kind
alone decides. -/
theorem run_alike (alike : other.unplaced = reading.unplaced) {tokens others : List Token}
    (kinds : others.map Token.kind = tokens.map Token.kind) {after : Reading}
    (ran : reading.run tokens = .ok after) :
    ∃ reached, other.run others = .ok reached ∧ reached.unplaced = after.unplaced := by
  induction tokens generalizing reading other others with
  | nil =>
    cases ran
    rw [List.map_eq_nil_iff.mp kinds]
    exact ⟨other, rfl, alike⟩
  | cons token rest inductionHypothesis =>
    obtain ⟨otherToken, otherRest, rfl, kind, kindsBehind⟩ := List.map_eq_cons_iff.mp kinds
    have same := next_alike alike kind
    obtain ⟨between, fits, ran⟩ := run_cons_ok ran
    rw [fits] at same
    cases outcome : other.next otherToken with
    | error reason =>
      rw [outcome] at same
      cases same
    | ok otherBetween =>
      rw [outcome] at same
      rw [run_step outcome]
      exact inductionHypothesis (Except.ok.inj same) kindsBehind ran

end Alike

/-- A run that is refused has come to a token that does not fit. The tokens in front of it have led
to a state, and the reason is given there. The induction is on the tokens. -/
theorem run_refused {reading : Reading} {tokens : List Token} {refusal : Malformed}
    (refused : reading.run tokens = .error refusal) :
    ∃ earlier token later between reason, tokens = earlier ++ token :: later ∧
      reading.run earlier = .ok between ∧ between.next token = .error reason ∧
      refusal = .atToken token reason := by
  induction tokens generalizing reading with
  | nil => cases refused
  | cons token rest inductionHypothesis =>
    unfold run at refused
    split at refused
    · next next fits =>
      obtain ⟨earlier, last, later, between, reason, rfl, ran, misfit, told⟩ :=
        inductionHypothesis refused
      exact ⟨token :: earlier, last, later, between, reason, rfl, (run_step fits earlier).trans ran,
        misfit, told⟩
    · next reason misfit =>
      exact ⟨[], token, rest, reading, reason, rfl, rfl, misfit, (Except.error.inj refused).symm⟩

/-- Where a token does not fit the run is refused, whatever comes behind it. -/
theorem run_misfit {reading between : Reading} {earlier : List Token} {token : Token}
    {reason : Malformed.Reason} (ran : reading.run earlier = .ok between)
    (misfit : between.next token = .error reason) (later : List Token) :
    reading.run (earlier ++ token :: later) = .error (.atToken token reason) := by
  rw [run_append ran]
  simp only [run, misfit]

/-- A fault among the tokens is refused, unless a token in front of it is. In both cases the place
of the refusal is that of a token up to the fault. -/
theorem run_fault (reading : Reading) (earlier later : List Token) {token : Token}
    {f : Token.Fault} (fault : token.kind = .fault f) :
    ∃ refusal, reading.run (earlier ++ token :: later) = .error refusal ∧
      (refusal = .atToken token (.fault f) ∨ ∃ prior ∈ earlier, refusal.IsAt prior.start) := by
  cases ran : reading.run earlier with
  | ok between => exact ⟨_, run_misfit ran (next_fault fault) later, .inl rfl⟩
  | error refusal =>
    obtain ⟨before, prior, between, reached, reason, rfl, reaches, misfit, rfl⟩ := run_refused ran
    rw [List.append_assoc, List.cons_append]
    exact ⟨_, run_misfit reaches misfit _, .inr ⟨prior, by simp, rfl, rfl⟩⟩

/-- Where all tokens fit, none is a fault. -/
theorem run_sound {reading reached : Reading} {tokens : List Token}
    (ran : reading.run tokens = .ok reached) : ∀ token ∈ tokens, ∀ f, token.kind ≠ .fault f := by
  intro token member f fault
  obtain ⟨earlier, later, rfl⟩ := List.append_of_mem member
  obtain ⟨refusal, refused, -⟩ := run_fault reading earlier later fault
  rw [ran] at refused
  cases refused

end Reading

open Token (Stream)

variable {name : Option String} {stream : Stream} {refusal : Malformed}

/-- A refusal comes from the first token that does not fit, or all tokens fit and it is made where
reading ended. These are the two ways in which a source is refused. -/
theorem refused_cases (refused : nodesOfStream name stream = .error refusal) :
    (∃ earlier token later between reason, stream.tokens = earlier ++ token :: later ∧
      (Reading.start name).run earlier = .ok between ∧ between.next token = .error reason ∧
      refusal = .atToken token reason) ∨
    ∃ reading, (Reading.start name).run stream.tokens = .ok reading ∧
      refusal.IsAt stream.finish := by
  unfold nodesOfStream at refused
  split at refused
  · next ran =>
    cases refused
    exact .inl (Reading.run_refused ran)
  · next reading ran =>
    split at refused <;> cases refused
    exact .inr ⟨reading, ran, rfl, rfl⟩

/-- The first token that does not fit decides. What comes behind it is not read at all. -/
theorem refused_of_misfit {between : Reading} {earlier later : List Token} {token : Token}
    {reason : Malformed.Reason} (parts : stream.tokens = earlier ++ token :: later)
    (ran : (Reading.start name).run earlier = .ok between)
    (misfit : between.next token = .error reason) :
    nodesOfStream name stream = .error (.atToken token reason) := by
  rw [nodesOfStream, parts, Reading.run_misfit ran misfit later]

/-- No two tokens are at one place, so the place of a refusal tells the token. The premise orders
the tokens by line and column, which is what a refusal has. -/
theorem token_at {tokens earlier later before behind : List Token} {token other : Token}
    (advancing : tokens.Pairwise fun earlier later => earlier.start.Before later.start)
    (here : tokens = earlier ++ token :: later) (there : tokens = before ++ other :: behind)
    (atToken : refusal.IsAt token.start) (atOther : refusal.IsAt other.start) :
    before = earlier ∧ other = token := by
  have first {earlier later before behind : List Token} {token other : Token}
      (advancing : (earlier ++ token :: later).Pairwise
        fun earlier later => earlier.start.Before later.start)
      (atToken : refusal.IsAt token.start) (atOther : refusal.IsAt other.start)
      {more : List Token} (longer : before = earlier ++ more)
      (same : token :: later = more ++ other :: behind) : before = earlier ∧ other = token := by
    cases more with
    | nil => exact ⟨longer.trans (List.append_nil _), (List.cons.inj same).1.symm⟩
    | cons head more =>
      have member : other ∈ later := by
        rw [(List.cons.inj same).2]
        exact List.mem_append_right more List.mem_cons_self
      have ordered := (List.pairwise_cons.mp (List.pairwise_append.mp advancing).2.1).1
      exact absurd atOther (atToken.not_before (ordered other member))
  rcases List.append_eq_append_iff.mp (here.symm.trans there) with
    ⟨more, longer, same⟩ | ⟨more, longer, same⟩
  · exact first (here ▸ advancing) atToken atOther longer same
  · obtain ⟨same, equal⟩ := first (there ▸ advancing) atOther atToken longer same
    exact ⟨same.symm, equal.symm⟩

/-- Whatever stands behind the token that is refused, and wherever the tokens in front of it are,
the refusal is the same if it is at the same place. It is made of the kind of the token and of the
state, in which places play no part. -/
theorem refused_alike {earlier before behind : List Token} {token other : Token}
    {between : Reading} {reason : Malformed.Reason} {otherStream : Stream}
    (ran : (Reading.start name).run earlier = .ok between)
    (misfit : between.next token = .error reason)
    (parts : otherStream.tokens = before ++ other :: behind)
    (kinds : before.map Token.kind = earlier.map Token.kind) (kind : other.kind = token.kind)
    (isAt : (Malformed.atToken token reason).IsAt other.start) :
    nodesOfStream name otherStream = .error (.atToken token reason) := by
  obtain ⟨reached, reaches, alike⟩ := Reading.run_alike rfl kinds ran
  have same := Reading.next_alike alike kind
  rw [misfit] at same
  cases outcome : reached.next other with
  | ok further =>
    rw [outcome] at same
    cases same
  | error otherReason =>
    rw [outcome] at same
    cases same
    rw [refused_of_misfit parts reaches outcome, Malformed.atToken, ← isAt.1, ← isAt.2]
    rfl

/-- Only the first thing that is wrong with a source counts. A source is refused at one of its
tokens, or, if no token is a fault and all of them fit, behind its last character. A refusal at a
token does not depend on anything behind that token: whatever source has tokens of the same kinds up
to it, and has it at the same line and column, is refused in the same words. A source with a fault
is always refused, for the fault if not for a token in front of it. -/
theorem first_refusal (name : Option String) (trim : Bool) (source : String) :
    let tokens := (Stream.ofSource trim source).tokens
    (∀ refusal, nodesOfSource name trim source = .error refusal →
      ((∃ token ∈ tokens, refusal.IsAt token.start) ∨
        (∀ token ∈ tokens, ∀ f, token.kind ≠ .fault f) ∧
        (∃ reading, (Reading.start name).run tokens = .ok reading) ∧
        refusal.IsAt (Place.behind source.toList)) ∧
      ∀ earlier token later, tokens = earlier ++ token :: later → refusal.IsAt token.start →
        ∀ otherTrim otherSource before other behind,
          (Stream.ofSource otherTrim otherSource).tokens = before ++ other :: behind →
          before.map Token.kind = earlier.map Token.kind → other.kind = token.kind →
          other.start.line = token.start.line → other.start.column = token.start.column →
          nodesOfSource name otherTrim otherSource = .error refusal) ∧
    ∀ earlier token later f, tokens = earlier ++ token :: later → token.kind = .fault f →
      ∃ refusal, nodesOfSource name trim source = .error refusal ∧
        (refusal = .atToken token (.fault f) ∨ ∃ prior ∈ earlier, refusal.IsAt prior.start) := by
  intro tokens
  have tiled : Token.Tiled trim [] none source.toList tokens := Token.tiled_tokens trim source
  refine ⟨fun refusal refused => ?_, fun earlier token later f parts fault => ?_⟩
  · rcases refused_cases refused with
      ⟨before, first, behind, between, reason, here, ran, misfit, rfl⟩ | ⟨reading, ran, isAt⟩
    · have atFirst : (Malformed.atToken first reason).IsAt first.start := ⟨rfl, rfl⟩
      refine ⟨.inl ⟨first, by simp [tokens, here], atFirst⟩, ?_⟩
      intro earlier token later there atToken _ _ _ _ _ parts kinds kind line column
      obtain ⟨rfl, rfl⟩ := token_at tiled.advancing here there atFirst atToken
      exact refused_alike ran misfit parts kinds kind ⟨line.symm, column.symm⟩
    · have sound := Reading.run_sound ran
      rw [Token.finish_eq sound] at isAt
      refine ⟨.inr ⟨sound, ⟨reading, ran⟩, isAt⟩, ?_⟩
      -- The end of the source is at another place than any token.
      intro earlier token later there atToken
      have member : token ∈ tokens := by simp [there]
      obtain ⟨more, left, parts, starts, ends⟩ := tiled.starts token member
      have present : left ≠ [] := fun none => (ends none).elim (sound token member)
      have before : token.start.Before (Place.behind source.toList) := by
        rw [parts, starts]
        exact Place.behind_before more present
      exact absurd isAt (atToken.not_before before)
  · obtain ⟨refusal, refused, told⟩ :=
      Reading.run_fault (Reading.start name) earlier later fault
    refine ⟨refusal, ?_, told⟩
    rw [nodesOfSource, nodesOfStream, show (Stream.ofSource trim source).tokens = _ from parts,
      refused]

/-- The end of a loop inside a choice. What stands behind it does not matter, even if it cannot be
read: the second source has a stray sign there. -/
theorem first_refusal_mixed :
    let refusal : Malformed := ⟨.expected (.token (.keyword .endif)) (.keyword .endfor), 2, 4⟩
    nodesOfSource none false "\x7b% if x %\x7d\n\x7b% endfor %\x7d" = .error refusal ∧
      nodesOfSource none false "\x7b% if x %\x7d\n\x7b% endfor ?" = .error refusal := by
  intro refusal
  let earlier : List Token := [⟨.opening .statement, ⟨0, 1, 1⟩, 2⟩, ⟨.keyword .if, ⟨3, 1, 4⟩, 5⟩,
    ⟨.name "x", ⟨6, 1, 7⟩, 7⟩, ⟨.closing .statement, ⟨8, 1, 9⟩, 10⟩, ⟨.text "\n", ⟨10, 1, 11⟩, 11⟩,
    ⟨.opening .statement, ⟨11, 2, 1⟩, 13⟩]
  let last : Token := ⟨.keyword .endfor, ⟨14, 2, 4⟩, 20⟩
  have read : (Stream.ofSource false "\x7b% if x %\x7d\n\x7b% endfor %\x7d").tokens =
      earlier ++ last :: [⟨.closing .statement, ⟨21, 2, 11⟩, 23⟩] := by decide +kernel
  have cut : (Stream.ofSource false "\x7b% if x %\x7d\n\x7b% endfor ?").tokens =
      earlier ++ last :: [⟨.fault (.stray '?'), ⟨21, 2, 11⟩, 22⟩] := by decide +kernel
  have refused : nodesOfSource none false "\x7b% if x %\x7d\n\x7b% endfor %\x7d" =
      .error refusal := by
    rw [nodesOfSource, nodesOfStream, read]
    rfl
  refine ⟨refused, ?_⟩
  exact ((first_refusal none false _).1 refusal refused).2 earlier last _ read ⟨rfl, rfl⟩ false _
    earlier last _ cut rfl rfl rfl rfl

end Template

end Stencil
