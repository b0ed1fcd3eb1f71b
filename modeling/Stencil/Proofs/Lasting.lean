import Mathlib.Data.List.Forall2
import Stencil.Flattening
import Stencil.Proofs.Wording

/-!
# Outcomes that last

How long a lineage may be is limited, and so is how deep templates may be embedded in each other.
Where a limit stops a walk or a rendering, the outcome is a cycle. So an outcome that is not a
cycle has not met the limit, and with a larger one it would have been the same: faults that come
before the limit is met come all the same.

The proof keeps two outcomes side by side. The first of them lasts if it is a cycle or the second
one is the same, and whatever is put together of outcomes that last, lasts.
-/

namespace Stencil

section Outcomes

variable {α β : Type}

/-- An outcome that tells of a chain of templates that is too long or comes back to itself. Both are
told by the same fault, with the chain of names in it. -/
def IsCycle (outcome : Except Fault α) : Prop := ∃ chain, outcome = .error (.cycle chain)

/-- The second outcome is the same as the first, unless the first one is a cycle. It is not
symmetric: the second one has met a larger limit, or none. -/
def Lasts (first second : Except Fault α) : Prop := IsCycle first ∨ second = first

/-- An outcome that is the same with both limits lasts. -/
theorem lasts_refl (outcome : Except Fault α) : Lasts outcome outcome := .inr rfl

/-- What follows a success is left out on both sides if the first part fails. If the first part is a
cycle, so is the whole, and nothing has to be known of the second. -/
theorem lasts_bind {first second : Except Fault α} {next other : α → Except Fault β}
    (before : Lasts first second) (behind : ∀ a, Lasts (next a) (other a)) :
    Lasts (first >>= next) (second >>= other) := by
  rcases before with ⟨chain, rfl⟩ | rfl
  · exact .inl ⟨chain, rfl⟩
  · cases second with
    | error fault => exact .inr rfl
    | ok a => exact behind a

/-- What is made of an outcome lasts if the outcome does. -/
theorem lasts_map {first second : Except Fault α} (f : α → β) (lasts : Lasts first second) :
    Lasts (first.map f) (second.map f) := by
  rcases lasts with ⟨chain, rfl⟩ | rfl
  · exact .inl ⟨chain, rfl⟩
  · exact .inr rfl

/-- Nothing that is made of an outcome is a cycle unless the outcome is. A function that is applied
to a success makes another success. -/
theorem cycle_of_map {outcome : Except Fault α} {f : α → β} (cycle : IsCycle (outcome.map f)) :
    IsCycle outcome := by
  obtain ⟨chain, same⟩ := cycle
  cases outcome with
  | error fault =>
    obtain rfl : fault = .cycle chain := Except.error.inj same
    exact ⟨chain, rfl⟩
  | ok a => cases same

/-- Two texts one behind the other last if both do. -/
theorem lasts_append {first second later other : Except Fault String}
    (before : Lasts first second) (behind : Lasts later other) :
    Lasts (do let text ← first; return text ++ (← later))
      (do let text ← second; return text ++ (← other)) :=
  lasts_bind before fun _ => lasts_bind behind fun _ => lasts_refl _

end Outcomes

section Speech

/-- The turns of a loop last if each does in its scope. The induction is on the items. -/
theorem lasts_turns {target : String} {count : Nat} {turn other : Scope → Except Fault String}
    (lasts : ∀ scope, Lasts (turn scope) (other scope)) (scope : Scope) (index : Nat)
    (items : List Value) :
    Lasts (sayTurns target count turn scope index items)
      (sayTurns target count other scope index items) := by
  induction items generalizing index with
  | nil => exact lasts_refl _
  | cons item rest inductionHypothesis =>
    exact lasts_append (lasts _) (inductionHypothesis (index + 1))

variable {embed other : Scope → String → Except Fault String} (escaping : Bool)

/-- A choice lasts if its conditions are the same and its bodies last. Conditions are evaluated in
the same scope on both sides, so the same case is taken. The induction goes along the two lists of
cases. -/
theorem lasts_cases {otherwise otherOtherwise : Except Fault String}
    (inOther : Lasts otherwise otherOtherwise) (scope : Scope)
    {cases otherCases : List (Expr × List Node)}
    (inCases : List.Forall₂ (fun case otherCase => otherCase.1 = case.1 ∧
      Lasts (sayBody embed escaping case.2 scope) (sayBody other escaping otherCase.2 scope))
      cases otherCases) :
    Lasts (sayCases embed escaping otherwise cases scope)
      (sayCases other escaping otherOtherwise otherCases scope) := by
  induction inCases with
  | nil => exact inOther
  | @cons case otherCase rest otherRest here later inductionHypothesis =>
    obtain ⟨condition, body⟩ := case
    obtain ⟨_, otherBody⟩ := otherCase
    obtain ⟨rfl, inBody⟩ := here
    refine lasts_bind (lasts_refl _) fun value => ?_
    by_cases holds : value.isTruthy
    · simp only [holds, if_true]
      exact inBody
    · simp only [holds]
      exact inductionHypothesis

/-- What nodes say lasts if what embedded templates say does. The induction is on the nodes, with
the bodies inside of them, for all scopes; the first part that does not last is a cycle, and the
whole is one with it. -/
theorem lasts_body (embedded : ∀ scope name, Lasts (embed scope name) (other scope name))
    (nodes : List Node) (scope : Scope) :
    Lasts (sayBody embed escaping nodes scope) (sayBody other escaping nodes scope) := by
  induction nodes using Node.body_induction generalizing scope with
  | nil => exact lasts_refl _
  | text s rest behind => exact lasts_append (lasts_refl _) (behind scope)
  | output e rest behind => exact lasts_append (lasts_refl _) (behind scope)
  | loop target sequence body rest inner behind =>
    refine lasts_append ?_ (behind scope)
    exact lasts_bind (lasts_refl _) fun items => lasts_turns inner scope 0 items
  | choice cases otherwise rest inCases inOther behind =>
    refine lasts_append ?_ (behind scope)
    refine lasts_cases escaping ?_ scope ?_
    · cases otherwise with
      | none => exact lasts_refl _
      | some body => exact inOther body rfl scope
    · exact List.forall₂_same.mpr fun case member => ⟨rfl, inCases case member scope⟩
  | block name body rest inner behind => exact lasts_append (inner scope) (behind scope)
  | inherits parent rest behind => exact lasts_append (lasts_refl _) (behind scope)
  | embed template rest behind => exact lasts_append (embedded scope template) (behind scope)

/-- What an embedded template says lasts if templates may be embedded deeper. The names around it do
not matter: they are told by cycles alone. The induction is on the smaller allowance, and where it
is used up the first outcome is a cycle. -/
theorem lasts_embedded {library otherLibrary : Library}
    (libraries : ∀ name, Lasts (library name) (otherLibrary name)) {allowance more : Nat}
    (deeper : allowance ≤ more) (around otherAround : List String) (scope : Scope)
    (name : String) :
    Lasts (sayEmbedded library escaping allowance around scope name)
      (sayEmbedded otherLibrary escaping more otherAround scope name) := by
  induction allowance generalizing more around otherAround scope name with
  | zero => exact .inl ⟨around ++ [name], rfl⟩
  | succ allowance inductionHypothesis =>
    obtain ⟨rest, rfl⟩ : ∃ rest, more = rest + 1 := ⟨more - 1, by omega⟩
    have inside : allowance ≤ rest := by omega
    refine lasts_bind (libraries name) fun template => ?_
    exact lasts_body escaping (inductionHypothesis inside _ _) template.nodes scope

/-- What nodes say lasts if templates may be embedded deeper. -/
theorem lasts_say {library otherLibrary : Library}
    (libraries : ∀ name, Lasts (library name) (otherLibrary name)) {limit more : Nat}
    (deeper : limit ≤ more) (around : List String) (nodes : List Node) (scope : Scope) :
    Lasts (say library limit escaping around nodes scope)
      (say otherLibrary more escaping around nodes scope) := by
  have allowed : limit - around.length ≤ more - around.length := by omega
  exact lasts_body escaping (lasts_embedded escaping libraries allowed around around) nodes scope

end Speech

/-- A walk up lasts if the lineage may be longer. The induction is that of the walk; a step that the
smaller limit stops is a cycle, and every step that it allows is allowed by the larger one. -/
theorem Lineage.lasts_climb (registry : Registry) {limit more : Nat} (deeper : limit ≤ more)
    (passed : List String) (current : String) :
    Lasts (climb registry limit passed current) (climb registry more passed current) := by
  have stillFree {passed : List String} {current : String}
      (free : ¬(current ∈ passed ∨ limit ≤ passed.length)) :
      ¬(current ∈ passed ∨ more ≤ passed.length) := by
    rw [not_or] at free ⊢
    exact ⟨free.1, by omega⟩
  induction passed, current using climb.induct registry limit with
  | case1 passed current stopped =>
    rw [climb, if_pos stopped]
    exact .inl ⟨passed ++ [current], rfl⟩
  | case2 passed current free absent =>
    rw [climb, climb, if_neg free, if_neg (stillFree free), absent]
    exact lasts_refl _
  | case3 passed current free entry kept ends =>
    rw [climb, climb, if_neg free, if_neg (stillFree free)]
    simp only [kept, ends]
    exact lasts_refl _
  | case4 passed current free entry kept parent inherits inductionHypothesis =>
    rw [climb, climb, if_neg free, if_neg (stillFree free)]
    simp only [kept, inherits]
    exact lasts_map _ inductionHypothesis

/-- So does flattening, which fails only where the walk up does. -/
theorem Flattened.lasts_ofLeaf (registry : Registry) {limit more : Nat} (deeper : limit ≤ more)
    (leaf : String) : Lasts (ofLeaf registry limit leaf) (ofLeaf registry more leaf) :=
  lasts_map _ (Lineage.lasts_climb registry deeper [] leaf)

end Stencil
