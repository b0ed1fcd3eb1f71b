import Stencil.Proofs.Nodes
import Stencil.Rendering

/-!
# What a rendering says

Rendering puts layers and names on a session and takes them off again, and it fetches
templates from a shelf whose state changes on the way. Nothing of this shows in the text: what
nodes say depends on the scope, on the names of the templates around them and on what the shelf
answers. Here the text is given by plain functions, which know no session. Rendering gives that
text and leaves the session as it was, but for the state of the shelf.
-/

namespace Stencil

/-- Flattened templates by name, in no state that could change. A template that cannot be had is a
fault. -/
abbrev Library := String → Except Fault Flattened

/-- What the turns of a loop say, one behind the other; `index` turns came before. Each turn has a
layer of its own on the scope of the loop. -/
def sayTurns (target : String) (count : Nat) (turn : Scope → Except Fault String)
    (scope : Scope) : Nat → List Value → Except Fault String
  | _, [] => .ok ""
  | index, item :: rest => do
    let text ← turn (scope.push (turnLayer target item index count))
    return text ++ (← sayTurns target count turn scope (index + 1) rest)

mutual

/-- What a node says in a scope, where `embed` says what an embedded template says. There is no
session: the scope is handed in, so that what a node says depends on nothing else. -/
def sayNode (embed : Scope → String → Except Fault String) (escaping : Bool) :
    Node → Scope → Except Fault String
  | .text s, _ => .ok s
  | .output e, scope =>
    Except.mapError .mistyped do (← e.eval escaping scope).emit escaping e
  | .loop target sequence body, scope => do
    let items ← Except.mapError Fault.mistyped do
      match ← sequence.eval escaping scope with
      | .seq items => return items
      | other => throw (.notSequence other.kind sequence)
    sayTurns target items.length (sayBody embed escaping body) scope 0 items
  | .choice cases otherwise, scope =>
    sayCases embed escaping (sayOption embed escaping otherwise scope) cases scope
  | .block _ body, scope => sayBody embed escaping body scope
  | .inherits _, _ => .ok ""
  | .embed template, scope => embed scope template

/-- What nodes say one behind the other. The first that fails ends it, and what was said before is
lost. -/
def sayBody (embed : Scope → String → Except Fault String) (escaping : Bool) :
    List Node → Scope → Except Fault String
  | [], _ => .ok ""
  | node :: rest, scope => do
    let text ← sayNode embed escaping node scope
    return text ++ (← sayBody embed escaping rest scope)

/-- What a body says that may be absent. -/
def sayOption (embed : Scope → String → Except Fault String) (escaping : Bool) :
    Option (List Node) → Scope → Except Fault String
  | none, _ => .ok ""
  | some body, scope => sayBody embed escaping body scope

/-- What the first case says whose condition holds, or `otherwise`. Conditions behind it are not
asked for, and one that fails in front of it ends the choice. -/
def sayCases (embed : Scope → String → Except Fault String) (escaping : Bool)
    (otherwise : Except Fault String) : List (Expr × List Node) → Scope → Except Fault String
  | [], _ => otherwise
  | (condition, body) :: rest, scope => do
    let value ← Except.mapError .mistyped (condition.eval escaping scope)
    if value.isTruthy then sayBody embed escaping body scope
    else sayCases embed escaping otherwise rest scope

end

/-- What an embedded template says inside the templates called `around`, where templates may be
embedded `allowance` deep from here on. -/
def sayEmbedded (library : Library) (escaping : Bool) :
    Nat → List String → Scope → String → Except Fault String
  | 0, around, _, name => .error (.cycle (around ++ [name]))
  | allowance + 1, around, scope, name => do
    let template ← library name
    sayBody (sayEmbedded library escaping allowance (around ++ [name])) escaping template.nodes
      scope

/-- What nodes say inside the templates called `around`, where at most `limit` templates may be
embedded in each other, those included. -/
def say (library : Library) (limit : Nat) (escaping : Bool) (around : List String)
    (nodes : List Node) (scope : Scope) : Except Fault String :=
  sayBody (sayEmbedded library escaping (limit - around.length) around) escaping nodes scope

/-- A body of one node says what the node says. -/
theorem say_single (embed : Scope → String → Except Fault String) (escaping : Bool) (node : Node)
    (scope : Scope) : sayBody embed escaping [node] scope = sayNode embed escaping node scope := by
  rw [sayBody, sayBody]
  show (do return (← sayNode embed escaping node scope) ++ "") = _
  simp only [String.append_empty, bind_pure]

/-- A shelf answers like a library as long as its state is in order, and stays in order. The
condition on states is a parameter, so that it can be the soundness of a cache. -/
def Shelf.Answers {σ : Type} (shelf : Shelf σ) (InOrder : σ → Prop) (library : Library) : Prop :=
  ∀ name state, InOrder state →
    (shelf name state).1 = library name ∧ InOrder (shelf name state).2

namespace Rendering

variable {σ : Type} {InOrder : σ → Prop}

/-- An activity means a function of the scope and of the names around it: in a session with its
shelf in order it gives the value of the function, and leaves the session as it was, with the shelf
in order. Nothing else of the state of the shelf is said. -/
def Means {α : Type} (InOrder : σ → Prop) (activity : Rendering σ α)
    (meaning : Scope → List String → Except Fault α) : Prop :=
  ∀ session, InOrder session.shelf → ∃ shelf, InOrder shelf ∧
    activity.run session = (meaning session.scope session.embedding, { session with shelf })

/-- An activity that does nothing means its result. -/
theorem means_pure {α : Type} (a : α) :
    Means InOrder (pure a : Rendering σ α) fun _ _ => .ok a := by
  intro session inOrder
  exact ⟨session.shelf, inOrder, rfl⟩

/-- What an activity and then another one make of a session: the second is left out if the first
fails. -/
theorem run_bind {α β : Type} (first : Rendering σ α) (next : α → Rendering σ β)
    (session : Session σ) : (first >>= next).run session =
      match first.run session with
      | (.ok a, after) => (next a).run after
      | (.error fault, after) => (.error fault, after) := by
  show (ExceptT.bindCont next (first.run session).1) (first.run session).2 = _
  generalize first.run session = outcome
  obtain ⟨result, after⟩ := outcome
  cases result <;> rfl

/-- What follows an activity that fails is left out; else it finds the session as it was. Only the
state of the shelf may have changed, and the shelf is in order still. -/
theorem means_bind {α β : Type} {first : Rendering σ α} {next : α → Rendering σ β}
    {meaning : Scope → List String → Except Fault α}
    {meaningNext : α → Scope → List String → Except Fault β}
    (before : Means InOrder first meaning) (behind : ∀ a, Means InOrder (next a) (meaningNext a)) :
    Means InOrder (first >>= next) fun scope around =>
      meaning scope around >>= fun a => meaningNext a scope around := by
  intro session inOrder
  obtain ⟨shelf, stillInOrder, ran⟩ := before session inOrder
  beta_reduce
  rw [run_bind, ran]
  cases meaning session.scope session.embedding with
  | error fault => exact ⟨shelf, stillInOrder, rfl⟩
  | ok a =>
    obtain ⟨later, laterInOrder, ranNext⟩ := behind a { session with shelf } stillInOrder
    exact ⟨later, laterInOrder, ranNext⟩

/-- A layer is put on for an activity, and the scope is the one from before when the activity has
ended. -/
theorem run_with_layer {α : Type} (layer : Layer) (activity : Rendering σ α)
    (session : Session σ) : (withLayer layer activity).run session =
      let inside := activity.run { session with scope := session.scope.push layer }
      (inside.1, { inside.2 with scope := inside.2.scope.pop }) := rfl

/-- So it is with the name of an embedded template. -/
theorem run_with_name {α : Type} (name : String) (activity : Rendering σ α)
    (session : Session σ) : (withName name activity).run session =
      let inside := activity.run { session with embedding := session.embedding ++ [name] }
      (inside.1, { inside.2 with embedding := inside.2.embedding.dropLast }) := rfl

/-- A layer that is put on for an activity is seen by it and is gone afterwards. So its meaning is
that of the activity in a scope with one layer more. -/
theorem means_with_layer {α : Type} {activity : Rendering σ α}
    {meaning : Scope → List String → Except Fault α} (layer : Layer)
    (means : Means InOrder activity meaning) :
    Means InOrder (withLayer layer activity) fun scope around =>
      meaning (scope.push layer) around := by
  intro session inOrder
  obtain ⟨shelf, stillInOrder, ran⟩ :=
    means { session with scope := session.scope.push layer } inOrder
  refine ⟨shelf, stillInOrder, ?_⟩
  simp only [run_with_layer]
  rw [ran]
  rfl

/-- So is the name of an embedded template. The meaning of the activity is then told with the name
behind those that are around it. -/
theorem means_with_name {α : Type} {activity : Rendering σ α}
    {meaning : Scope → List String → Except Fault α} (name : String)
    (means : Means InOrder activity meaning) :
    Means InOrder (withName name activity) fun scope around =>
      meaning scope (around ++ [name]) := by
  intro session inOrder
  obtain ⟨shelf, stillInOrder, ran⟩ :=
    means { session with embedding := session.embedding ++ [name] } inOrder
  refine ⟨shelf, stillInOrder, ?_⟩
  simp only [run_with_name]
  rw [ran]
  simp only [List.dropLast_concat]

/-- A computation in the scope means its value, and its failure is a fault. -/
theorem means_in_scope {α : Type} (compute : Scope → Except Mistyped α) :
    Means InOrder (inScope compute : Rendering σ α) fun scope _ =>
      (compute scope).mapError .mistyped := by
  intro session inOrder
  exact ⟨session.shelf, inOrder, rfl⟩

/-- To fetch a template means to look it up in the library that the shelf answers like. -/
theorem means_fetch {shelf : Shelf σ} {library : Library} (answers : shelf.Answers InOrder library)
    (name : String) : Means InOrder (fetch shelf name) fun _ _ => library name := by
  intro session inOrder
  obtain ⟨answered, stillInOrder⟩ := answers name session.shelf inOrder
  refine ⟨(shelf name session.shelf).2, stillInOrder, ?_⟩
  rw [← answered]
  rfl

/-- Two texts one behind the other mean what the first means and then what the second means. -/
theorem means_append {first second : Rendering σ String}
    {meaning meaningNext : Scope → List String → Except Fault String}
    (before : Means InOrder first meaning) (behind : Means InOrder second meaningNext) :
    Means InOrder (do let text ← first; return text ++ (← second)) fun scope around => do
      let text ← meaning scope around
      return text ++ (← meaningNext scope around) :=
  means_bind before fun text => means_bind behind fun later => means_pure (text ++ later)

/-- The turns of a loop mean what is said in the scope of each turn. The induction is on the
items. -/
theorem means_turns {target : String} {count : Nat} {turn : Rendering σ String}
    {meaning : Scope → List String → Except Fault String} (means : Means InOrder turn meaning)
    (index : Nat) (items : List Value) :
    Means InOrder (renderTurns target count turn index items) fun scope around =>
      sayTurns target count (meaning · around) scope index items := by
  induction items generalizing index with
  | nil => exact means_pure ""
  | cons item rest inductionHypothesis =>
    exact means_append (means_with_layer (turnLayer target item index count) means)
      (inductionHypothesis (index + 1))

section Nodes

variable {embed : String → Rendering σ String}
  {sayEmbed : List String → Scope → String → Except Fault String} (escaping : Bool)

/-- The cases of a choice mean what the first case says whose condition holds. The induction is on
the cases. -/
theorem means_cases {otherwise : Rendering σ String}
    {sayOtherwise : Scope → List String → Except Fault String}
    (inOther : Means InOrder otherwise sayOtherwise) (cases : List (Expr × List Node))
    (inCases : ∀ case ∈ cases, Means InOrder (renderBody embed escaping case.2)
      fun scope around => sayBody (sayEmbed around) escaping case.2 scope) :
    Means InOrder (renderCases embed escaping otherwise cases) fun scope around =>
      sayCases (sayEmbed around) escaping (sayOtherwise scope around) cases scope := by
  induction cases with
  | nil => exact inOther
  | cons case rest inductionHypothesis =>
    obtain ⟨condition, body⟩ := case
    have later := inductionHypothesis fun other member =>
      inCases other (List.mem_cons_of_mem _ member)
    have here := inCases (condition, body) List.mem_cons_self
    refine means_bind (means_in_scope fun scope => condition.eval escaping scope) fun value => ?_
    by_cases holds : value.isTruthy
    · simp only [holds, if_true]
      exact here
    · simp only [holds]
      exact later

/-- Nodes mean what they say, if embedded templates do. The induction is on the nodes, with the
bodies inside of them. -/
theorem means_body (means : ∀ name, Means InOrder (embed name) fun scope around =>
      sayEmbed around scope name) (nodes : List Node) :
    Means InOrder (renderBody embed escaping nodes) fun scope around =>
      sayBody (sayEmbed around) escaping nodes scope := by
  induction nodes using Node.body_induction with
  | nil => exact means_pure ""
  | text s rest behind => exact means_append (means_pure s) behind
  | output e rest behind =>
    refine means_append ?_ behind
    exact means_in_scope fun scope => do (← e.eval escaping scope).emit escaping e
  | loop target sequence body rest inner behind =>
    refine means_append ?_ behind
    exact means_bind (means_in_scope _) fun items => means_turns inner 0 items
  | choice cases otherwise rest inCases inOther behind =>
    refine means_append (means_cases escaping ?_ cases inCases) behind
    cases otherwise with
    | none => exact means_pure ""
    | some body => exact inOther body rfl
  | block name body rest inner behind => exact means_append inner behind
  | inherits parent rest behind => exact means_append (means_pure "") behind
  | embed template rest behind => exact means_append (means template) behind

/-- An embedded template means what it says. The induction is on the allowance of embedding, and
where it is used up both are the same cycle. -/
theorem means_embedded {shelf : Shelf σ} {library : Library}
    (answers : shelf.Answers InOrder library) (allowance : Nat) (name : String) :
    Means InOrder (renderEmbedded shelf escaping allowance name) fun scope around =>
      sayEmbedded library escaping allowance around scope name := by
  induction allowance generalizing name with
  | zero =>
    intro session inOrder
    exact ⟨session.shelf, inOrder, rfl⟩
  | succ allowance inductionHypothesis =>
    refine means_bind (means_fetch answers name) fun template => ?_
    exact means_with_name name (means_body escaping inductionHypothesis template.nodes)

end Nodes

/-- Rendering gives what the nodes say, and leaves the session as it was, with the shelf in order.
From here on what is rendered can be told without sessions. -/
theorem render_wording {shelf : Shelf σ} {library : Library}
    (answers : shelf.Answers InOrder library) (limit : Nat) (escaping : Bool)
    (nodes : List Node) (session : Session σ) (inOrder : InOrder session.shelf) :
    ∃ state, InOrder state ∧ render shelf limit escaping nodes session =
      (say library limit escaping session.embedding nodes session.scope,
        { session with shelf := state }) :=
  means_body escaping (means_embedded escaping answers (limit - session.embedding.length)) nodes
    session inOrder

end Rendering

end Stencil
