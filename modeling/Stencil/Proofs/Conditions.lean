import Stencil.Proofs.Splicing
import Stencil.Proofs.Unrolling

/-!
# Conditions

A condition is an expression that is asked for nothing but whether it holds. What asks for it looks
at no more than it must: a connective leaves its right operand alone where the left one settles the
result, and a choice leaves the conditions alone behind the first one that holds. An operand that
fails counts only where it is reached. So the laws of the connectives hold with the failures in
them, and a choice of several cases is a choice of the first one, with a choice of the others in the
place for no case.
-/

namespace Stencil

namespace Expr

variable (escaping : Bool) (scope : Scope)

/-- Whether an expression holds as a condition, unless it fails. Any value can be asked for that, so
the only way to fail is that the value cannot be had. -/
def holds (e : Expr) : Except Mistyped Bool :=
  (e.eval escaping scope).map Value.isTruthy

/-- Two expressions have the same truth value, or fail for the same cause. Both are truth values, so
they can stand for each other anywhere. -/
def DecideAlike (e other : Expr) : Prop :=
  ∃ outcome : Except Mistyped Bool,
    e.eval escaping scope = outcome.map .bool ∧ other.eval escaping scope = outcome.map .bool

variable {escaping scope}

/-- A truth value holds as a condition if it is true. So what is shown of values can be used of
conditions. -/
theorem holds_of_eval {e : Expr} {outcome : Except Mistyped Bool}
    (evaluated : e.eval escaping scope = outcome.map .bool) : e.holds escaping scope = outcome := by
  rw [holds, evaluated]
  cases outcome <;> rfl

variable (escaping scope) (left right : Expr)

/-- A negation looks at its operand and turns around whether it holds. -/
theorem eval_not (e : Expr) : (Expr.not e).eval escaping scope =
    Except.map .bool (do return !(← e.holds escaping scope)) := by
  rw [eval, holds]
  cases e.eval escaping scope <;> rfl

/-- The right operand of a conjunction is looked at only where the left one holds. Where it fails
and is not looked at, nothing fails. -/
theorem eval_and : (binary .and left right).eval escaping scope =
    Except.map .bool (do
      if ← left.holds escaping scope then right.holds escaping scope else return false) := by
  rw [eval, holds, holds]
  cases left.eval escaping scope with
  | error cause => rfl
  | ok value =>
    cases truthy : value.isTruthy <;> cases right.eval escaping scope <;>
      simp [truthy, Except.map, bind, Except.bind, pure, Except.pure]

/-- The right operand of a disjunction is looked at only where the left one does not hold. The
result is a truth value, not one of the operands. -/
theorem eval_or : (binary .or left right).eval escaping scope =
    Except.map .bool (do
      if ← left.holds escaping scope then return true else right.holds escaping scope) := by
  rw [eval, holds, holds]
  cases left.eval escaping scope with
  | error cause => rfl
  | ok value =>
    cases truthy : value.isTruthy <;> cases right.eval escaping scope <;>
      simp [truthy, Except.map, bind, Except.bind, pure, Except.pure]

/-- Where not both hold, one does not; and where the left one does not hold or fails, the right one
is looked at on neither side. The cases are those of the left operand and then of the right one. -/
theorem not_both : DecideAlike escaping scope (.not (.binary .and left right))
    (.binary .or (.not left) (.not right)) := by
  refine ⟨_, eval_not escaping scope _, ?_⟩
  rw [eval_or, holds_of_eval (eval_and escaping scope left right),
    holds_of_eval (eval_not escaping scope left), holds_of_eval (eval_not escaping scope right)]
  cases left.holds escaping scope with
  | error cause => rfl
  | ok held => cases held <;> cases right.holds escaping scope <;> rfl

/-- Where neither holds, both do not. The cases are the same as before: what the first side does,
and what the second side does if it is asked. -/
theorem neither : DecideAlike escaping scope (.not (.binary .or left right))
    (.binary .and (.not left) (.not right)) := by
  refine ⟨_, eval_not escaping scope _, ?_⟩
  rw [eval_and, holds_of_eval (eval_or escaping scope left right),
    holds_of_eval (eval_not escaping scope left), holds_of_eval (eval_not escaping scope right)]
  cases left.holds escaping scope with
  | error cause => rfl
  | ok held => cases held <;> cases right.holds escaping scope <;> rfl

/-- What is unequal is not equal, and to compare fails either way or neither. -/
theorem unequal_not_equal : DecideAlike escaping scope (.binary .unequal left right)
    (.not (.binary .equal left right)) := by
  refine ⟨_, ?_, eval_not escaping scope _⟩
  rw [holds, eval, eval]
  cases left.eval escaping scope with
  | error cause => rfl
  | ok value => cases right.eval escaping scope <;> rfl

end Expr

namespace Rendering

variable {σ : Type}

section Activities

variable (embed : String → Rendering σ String) (escaping : Bool)

/-- Nodes behind nodes are rendered behind them. The induction is on those in front; if one of them
fails, those behind are not rendered. -/
theorem body_append (first second : List Node) :
    renderBody embed escaping (first ++ second) = do
      let text ← renderBody embed escaping first
      return text ++ (← renderBody embed escaping second) := by
  induction first with
  | nil =>
    rw [renderBody]
    simp only [List.nil_append, pure_bind, String.empty_append, bind_pure]
  | cons node rest inductionHypothesis =>
    simp only [List.cons_append, renderBody, inductionHypothesis, bind_assoc, pure_bind,
      String.append_assoc]

/-- A choice is a choice of its first case, with a choice of the others in the place for no case.
This holds as activities, before anything is said of a session. -/
theorem choice_cons (condition : Expr) (body : List Node) (rest : List (Expr × List Node))
    (otherwise : Option (List Node)) :
    renderNode embed escaping (.choice ((condition, body) :: rest) otherwise) =
      renderNode embed escaping
        (.choice [(condition, body)] (some [.choice rest otherwise])) := by
  simp only [renderNode, renderCases, renderOption, body_single]

variable {embed escaping} {first second : List Node}

/-- A node is rendered alike around bodies that are. The cases are the nodes that a body can be
in. -/
theorem close_alike (alike : renderBody embed escaping first = renderBody embed escaping second)
    (shell : Node.Shell) : renderNode embed escaping (shell.close first) =
      renderNode embed escaping (shell.close second) := by
  cases shell with
  | loop target sequence => simp only [Node.Shell.close, renderNode, alike]
  | block name => simp only [Node.Shell.close, renderNode, alike]
  | case before condition behind otherwise =>
    simp only [Node.Shell.close, renderNode]
    induction before with
    | nil => simp only [List.nil_append, renderCases, alike]
    | cons case rest inductionHypothesis =>
      simp only [List.cons_append, renderCases, inductionHypothesis]
  | other cases => simp only [Node.Shell.close, renderNode, renderOption, alike]

/-- Nodes that are rendered alike, are so in any gap. The induction is on the nodes around it, from
the gap outwards. -/
theorem fill_alike (alike : renderBody embed escaping first = renderBody embed escaping second)
    (context : Node.Context) : renderBody embed escaping (context.fill first) =
      renderBody embed escaping (context.fill second) := by
  induction context with
  | here behind => simp only [Node.Context.fill, body_append, alike]
  | after node rest inductionHypothesis =>
    simp only [Node.Context.fill, renderBody, inductionHypothesis]
  | inside shell inner behind inductionHypothesis =>
    simp only [Node.Context.fill, renderBody, close_alike inductionHypothesis shell]

end Activities

section Choices

variable (shelf : Shelf σ) (limit : Nat) {escaping : Bool} {session : Session σ}
  (otherwise : Option (List Node))

/-- A choice looks at the condition of its first case, and at the others only where this one does
not hold. Conditions leave the session as it is. -/
theorem render_choice_cons (condition : Expr) (body : List Node)
    (rest : List (Expr × List Node)) :
    render shelf limit escaping [.choice ((condition, body) :: rest) otherwise] session =
      match condition.holds escaping session.scope with
      | .error cause => (.error (.mistyped cause), session)
      | .ok true => render shelf limit escaping body session
      | .ok false => render shelf limit escaping [.choice rest otherwise] session := by
  rw [render_single, render_single, renderNode, renderNode, renderCases, Expr.holds]
  cases evaluated : condition.eval escaping session.scope with
  | error cause => exact run_bind_error (in_scope_error evaluated) _
  | ok value =>
    refine (run_bind_ok (in_scope_ok evaluated) _).trans ?_
    cases truthy : value.isTruthy <;> simp [Except.map, truthy, render]

/-- Cases whose conditions do not hold may be left out in front. The induction is on them; the
conditions must have values, since one that fails would end the choice. -/
theorem render_choice_append {before : List (Expr × List Node)}
    (passed : ∀ case ∈ before, case.1.holds escaping session.scope = .ok false)
    (behind : List (Expr × List Node)) :
    render shelf limit escaping [.choice (before ++ behind) otherwise] session =
      render shelf limit escaping [.choice behind otherwise] session := by
  induction before with
  | nil => rfl
  | cons case rest inductionHypothesis =>
    obtain ⟨first, others⟩ := List.forall_mem_cons.mp passed
    rw [List.cons_append, render_choice_cons, first]
    exact inductionHypothesis others

end Choices

/-- Conditions are short circuits. In every scope, the right operand of a conjunction counts only
where the left one holds, and that of a disjunction only where it does not. The negation of a
conjunction and the disjunction of the negations have the same truth value or fail for the same
cause, and so have the negation of a disjunction and the conjunction of the negations, and what is
unequal and what is not equal. A choice of several cases is rendered, wherever it stands, as a
choice of its first case with a choice of the others in the place for no case. If the conditions of
the first cases do not hold, the next one decides: if it holds, the body of its case is all there
is, whatever the conditions behind it are; if it fails, so does the choice; and if it does not hold
either, it is left to the cases behind it. -/
theorem conditions_short_circuit (shelf : Shelf σ) (limit : Nat) (escaping : Bool)
    (session : Session σ) :
    (∀ (scope : Scope) (left right : Expr),
      (Expr.binary .and left right).eval escaping scope = Except.map .bool (do
        if ← left.holds escaping scope then right.holds escaping scope else return false) ∧
      (Expr.binary .or left right).eval escaping scope = Except.map .bool (do
        if ← left.holds escaping scope then return true else right.holds escaping scope) ∧
      Expr.DecideAlike escaping scope (.not (.binary .and left right))
        (.binary .or (.not left) (.not right)) ∧
      Expr.DecideAlike escaping scope (.not (.binary .or left right))
        (.binary .and (.not left) (.not right)) ∧
      Expr.DecideAlike escaping scope (.binary .unequal left right)
        (.not (.binary .equal left right))) ∧
    ∀ (condition : Expr) (body : List Node) (rest : List (Expr × List Node))
      (otherwise : Option (List Node)),
      (∀ context : Node.Context,
        render shelf limit escaping
            (context.fill [.choice ((condition, body) :: rest) otherwise]) session =
          render shelf limit escaping
            (context.fill [.choice [(condition, body)] (some [.choice rest otherwise])])
            session) ∧
      ∀ before : List (Expr × List Node),
        (∀ case ∈ before, case.1.holds escaping session.scope = .ok false) →
        render shelf limit escaping
            [.choice (before ++ (condition, body) :: rest) otherwise] session =
          match condition.holds escaping session.scope with
          | .error cause => (.error (.mistyped cause), session)
          | .ok true => render shelf limit escaping body session
          | .ok false => render shelf limit escaping [.choice rest otherwise] session := by
  constructor
  · intro scope left right
    refine ⟨?_, ?_, ?_, ?_, ?_⟩
    · exact Expr.eval_and escaping scope left right
    · exact Expr.eval_or escaping scope left right
    · exact Expr.not_both escaping scope left right
    · exact Expr.neither escaping scope left right
    · exact Expr.unequal_not_equal escaping scope left right
  · intro condition body rest otherwise
    constructor
    · intro context
      have alike : renderBody (renderEmbedded shelf escaping (limit - session.embedding.length))
          escaping [.choice ((condition, body) :: rest) otherwise] =
            renderBody (renderEmbedded shelf escaping (limit - session.embedding.length)) escaping
              [.choice [(condition, body)] (some [.choice rest otherwise])] := by
        rw [body_single, body_single, choice_cons]
      exact congrArg (run · session) (fill_alike alike context)
    · intro before passed
      rw [render_choice_append shelf limit otherwise passed, render_choice_cons]

/-- The part of a number, which cannot be had. -/
def partOfCount : Expr :=
  .attribute (.variable "count") "part"

/-- Two cases that are passed over: the second asks for what cannot be had, but only after what is
missing. -/
def passedCases : List (Expr × List Node) :=
  [(.variable "missing", [.text "first"]),
    (.binary .and (.variable "missing") partOfCount, [.text "second"])]

/-- A condition that would fail is not looked at behind one that holds, and makes the choice fail
where it is reached. The failing one asks for a part of a number. -/
theorem conditions_short_circuit_count :
    let shelf := Store.shelf ⟨[], 0, false⟩ 4
    let session : Session Unit := ⟨⟨[[("count", .int 2)]]⟩, [], ()⟩
    let cause : Mistyped := .noAttributes "part" .integer (.variable "count")
    let rendering (condition : Expr) := render shelf 4 true
      [.choice (passedCases ++ (condition, [.output (.variable "count")]) ::
        [(partOfCount, [.text "last"])]) none] session
    (∀ case ∈ passedCases, case.1.holds true session.scope = .ok false) ∧
      (Expr.variable "count").holds true session.scope = .ok true ∧
      rendering (.variable "count") =
        render shelf 4 true [.output (.variable "count")] session ∧
      partOfCount.holds true session.scope = .error cause ∧
      rendering partOfCount = (.error (.mistyped cause), session) := by
  intro shelf session cause rendering
  have passed : ∀ case ∈ passedCases, case.1.holds true session.scope = .ok false := by
    simp only [passedCases, session, List.forall_mem_cons]
    exact ⟨rfl, rfl, fun _ member => absurd member List.not_mem_nil⟩
  have holds : (Expr.variable "count").holds true session.scope = .ok true := by
    simp only [session]
    rfl
  have failed : partOfCount.holds true session.scope = .error cause := by
    simp only [session]
    rfl
  have law (condition : Expr) := ((conditions_short_circuit shelf 4 true session).2 condition
    [.output (.variable "count")] [(partOfCount, [.text "last"])] none).2 passedCases passed
  have counted := law (.variable "count")
  have refused := law partOfCount
  rw [holds] at counted
  rw [failed] at refused
  exact ⟨passed, holds, counted, failed, refused⟩

end Rendering

end Stencil
