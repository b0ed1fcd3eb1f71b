import Stencil.Proofs.Rounds
import Stencil.Proofs.Wording
import Stencil.Store

/-!
# What rendering leaves behind

Loops put layers on the scope and embedded templates put their names on the session, at any depth
and in any order, and an expression, a missing template or the bound on embedding can end all of
this at any point. Whatever was put on is off again when rendering returns. This holds of every
shelf, also of one whose answers change from one request to the next; only the state of the shelf
itself may be another one. So a second rendering in the session that the first one left starts
from the same scope and the same names, and if the shelf answers by name alone, it gives the same
answer.
-/

namespace Stencil

/-- The shelf of a store answers like flattening, whose answer hangs on the name alone. -/
theorem Store.shelf_answers (registry : Registry) (limit : Nat) :
    (shelf registry limit).Answers (fun _ => True) (Flattened.ofLeaf registry limit) :=
  fun _ _ _ => ⟨rfl, trivial⟩

namespace Rendering

variable {σ : Type}

/-- An activity that leaves no trace: whether it fails or not, the layers and the names are the ones
that were there before. Only the state of the shelf may be another one, and which is left open. -/
def Traceless {α : Type} (activity : Rendering σ α) : Prop :=
  ∀ session, ∃ shelf, (activity.run session).2 = { session with shelf }

/-- An activity that does nothing leaves no trace. -/
theorem traceless_pure {α : Type} (a : α) : Traceless (pure a : Rendering σ α) :=
  fun session => ⟨session.shelf, rfl⟩

/-- Two activities leave no trace if neither does; a failure of the first one is the end. -/
theorem traceless_bind {α β : Type} {first : Rendering σ α} {next : α → Rendering σ β}
    (before : Traceless first) (behind : ∀ a, Traceless (next a)) :
    Traceless (first >>= next) := by
  intro session
  obtain ⟨shelf, left⟩ := before session
  rw [run_bind]
  generalize first.run session = outcome at left ⊢
  obtain ⟨result, after⟩ := outcome
  obtain rfl : after = { session with shelf } := left
  cases result with
  | error fault => exact ⟨shelf, rfl⟩
  | ok a => exact behind a { session with shelf }

/-- A layer that an activity is given is taken off again, also if the activity fails. The activity
itself has left the layers as it has found them, so the outermost one is the one that was put on. -/
theorem traceless_with_layer {α : Type} {activity : Rendering σ α} (layer : Layer)
    (traceless : Traceless activity) : Traceless (withLayer layer activity) := by
  intro session
  obtain ⟨shelf, left⟩ := traceless { session with scope := session.scope.push layer }
  refine ⟨shelf, ?_⟩
  simp only [run_with_layer]
  rw [left]
  rfl

/-- So is the name of an embedded template. It is taken off again at the end of the list, where it
was put on, and it is the activity that leaves the list as it found it. -/
theorem traceless_with_name {α : Type} {activity : Rendering σ α} (name : String)
    (traceless : Traceless activity) : Traceless (withName name activity) := by
  intro session
  obtain ⟨shelf, left⟩ := traceless { session with embedding := session.embedding ++ [name] }
  refine ⟨shelf, ?_⟩
  simp only [run_with_name]
  rw [left]
  simp only [List.dropLast_concat]

/-- To evaluate something in the scope changes nothing, whether it fails or not. -/
theorem traceless_in_scope {α : Type} (compute : Scope → Except Mistyped α) :
    Traceless (inScope compute : Rendering σ α) :=
  fun session => ⟨session.shelf, rfl⟩

/-- To ask the shelf changes the state of the shelf alone, whatever it answers. -/
theorem traceless_fetch (shelf : Shelf σ) (name : String) : Traceless (fetch shelf name) :=
  fun session => ⟨(shelf name session.shelf).2, rfl⟩

/-- Two texts one behind the other leave no trace if neither part does. -/
theorem traceless_append {first second : Rendering σ String} (before : Traceless first)
    (behind : Traceless second) :
    Traceless (do let text ← first; return text ++ (← second)) :=
  traceless_bind before fun text =>
    traceless_bind behind fun later => traceless_pure (text ++ later)

/-- The turns of a loop leave no layer behind, also if one of them fails. The induction is on the
items that are left. -/
theorem traceless_turns {target : String} {count : Nat} {turn : Rendering σ String}
    (traceless : Traceless turn) (index : Nat) (items : List Value) :
    Traceless (renderTurns target count turn index items) := by
  induction items generalizing index with
  | nil => exact traceless_pure ""
  | cons item rest inductionHypothesis =>
    exact traceless_append (traceless_with_layer (turnLayer target item index count) traceless)
      (inductionHypothesis (index + 1))

section Nodes

variable {embed : String → Rendering σ String} (escaping : Bool)

/-- A choice leaves no trace if its bodies do not. The induction is on the cases; a condition that
fails ends it there. To evaluate a condition changes nothing, so only the body that is taken
matters. -/
theorem traceless_cases {otherwise : Rendering σ String} (inOther : Traceless otherwise)
    (cases : List (Expr × List Node))
    (inCases : ∀ case ∈ cases, Traceless (renderBody embed escaping case.2)) :
    Traceless (renderCases embed escaping otherwise cases) := by
  induction cases with
  | nil => exact inOther
  | cons case rest inductionHypothesis =>
    obtain ⟨condition, body⟩ := case
    have here := inCases (condition, body) List.mem_cons_self
    have later := inductionHypothesis fun other member =>
      inCases other (List.mem_cons_of_mem _ member)
    refine traceless_bind (traceless_in_scope fun scope => condition.eval escaping scope) ?_
    intro value
    by_cases holds : value.isTruthy
    · simp only [holds, if_true]
      exact here
    · simp only [holds]
      exact later

/-- Nodes leave no trace, if embedded templates do not. The induction is on the nodes, with the
bodies inside of them, and embedding is a parameter here so that it needs an induction of its own
only once. -/
theorem traceless_body (traceless : ∀ name, Traceless (embed name)) (nodes : List Node) :
    Traceless (renderBody embed escaping nodes) := by
  induction nodes using Node.body_induction with
  | nil => exact traceless_pure ""
  | text s rest behind => exact traceless_append (traceless_pure s) behind
  | output e rest behind =>
    refine traceless_append ?_ behind
    exact traceless_in_scope fun scope => do (← e.eval escaping scope).emit escaping e
  | loop target sequence body rest inner behind =>
    refine traceless_append ?_ behind
    exact traceless_bind (traceless_in_scope _) fun items => traceless_turns inner 0 items
  | choice cases otherwise rest inCases inOther behind =>
    refine traceless_append (traceless_cases escaping ?_ cases inCases) behind
    cases otherwise with
    | none => exact traceless_pure ""
    | some body => exact inOther body rfl
  | block name body rest inner behind => exact traceless_append inner behind
  | inherits parent rest behind => exact traceless_append (traceless_pure "") behind
  | embed template rest behind => exact traceless_append (traceless template) behind

/-- An embedded template leaves no trace: neither one that is missing, nor one too deep. The
induction is on the allowance of embedding, which is less by one for what the template embeds
itself. -/
theorem traceless_embedded (shelf : Shelf σ) (allowance : Nat) (name : String) :
    Traceless (renderEmbedded shelf escaping allowance name) := by
  induction allowance generalizing name with
  | zero => exact fun session => ⟨session.shelf, rfl⟩
  | succ allowance inductionHypothesis =>
    refine traceless_bind (traceless_fetch shelf name) fun template => ?_
    exact traceless_with_name name (traceless_body escaping inductionHypothesis template.nodes)

end Nodes

/-- Whatever the shelf answers, rendering leaves the scope and the names as they were. -/
theorem render_traceless (shelf : Shelf σ) (limit : Nat) (escaping : Bool) (nodes : List Node)
    (session : Session σ) :
    ∃ state, (render shelf limit escaping nodes session).2 = { session with shelf := state } :=
  traceless_body escaping (traceless_embedded escaping shelf _) nodes session

/-- Where the shelf answers by name alone, rendering in the session that a rendering left gives the
same answer once more. Both renderings start from one scope and one list of names, and the shelf
stays in order, so both say what the library does. -/
theorem render_again {shelf : Shelf σ} {InOrder : σ → Prop} {library : Library}
    (answers : shelf.Answers InOrder library) (limit : Nat) (escaping : Bool) (nodes : List Node)
    (session : Session σ) (inOrder : InOrder session.shelf) :
    (render shelf limit escaping nodes (render shelf limit escaping nodes session).2).1 =
      (render shelf limit escaping nodes session).1 := by
  obtain ⟨state, stillInOrder, once⟩ :=
    render_wording answers limit escaping nodes session inOrder
  obtain ⟨later, -, twice⟩ :=
    render_wording answers limit escaping nodes { session with shelf := state } stillInOrder
  rw [once, twice]

/-- A resolver is a shelf whose answer is a function of the name. It may keep a state and change it
with every request, as a cache does, but no answer shows it. Rendering through a resolver again
gives the same answer, and nothing has to be assumed of the resolver for it: it answers like the
function that it is, in every state. -/
theorem resolver_again (library : Library) (change : String → σ → σ) (limit : Nat)
    (escaping : Bool) (nodes : List Node) (session : Session σ) :
    let resolver : Shelf σ := fun name state => (library name, change name state)
    (render resolver limit escaping nodes (render resolver limit escaping nodes session).2).1 =
      (render resolver limit escaping nodes session).1 := by
  intro resolver
  have answers : resolver.Answers (fun _ => True) library := by
    intro name state _
    exact ⟨rfl, trivial⟩
  exact render_again answers limit escaping nodes session trivial

/-- Rendering leaves no trace. Whatever the shelf is and whatever it answers, rendering nodes in a
session without names around it returns, with a text or with a fault, to the very layers that
were there before and to no names. So the same nodes rendered again in the session left behind
give the same answer, as long as the shelf gives the same answers: one whose templates are
replaced between the two renderings has no reason to.

The premise of the last part is met by every resolver, that is by every shelf that answers by name
alone, whatever becomes of its state: this is `resolver_again`. It is stated for more than that, so
that it covers a cache, which answers like a library as long as its copies are right. -/
theorem leaves_no_trace (shelf : Shelf σ) (limit : Nat) (escaping : Bool) (nodes : List Node)
    (scope : Scope) (state : σ) :
    let once := render shelf limit escaping nodes ⟨scope, [], state⟩
    once.2.scope.layers = scope.layers ∧ once.2.embedding = [] ∧
      ∀ (InOrder : σ → Prop) (library : Library), shelf.Answers InOrder library → InOrder state →
        (render shelf limit escaping nodes once.2).1 = once.1 := by
  intro once
  obtain ⟨later, left⟩ := render_traceless shelf limit escaping nodes ⟨scope, [], state⟩
  have after : once.2 = ⟨scope, [], later⟩ := left
  refine ⟨?_, ?_, ?_⟩
  · rw [after]
  · rw [after]
  · intro InOrder library answers inOrder
    exact render_again answers limit escaping nodes ⟨scope, [], state⟩ inOrder

/-- A cell of a table, which puts out the text of the cell. -/
def cellTemplate : Template :=
  ⟨"cell", "\x7b\x7b cell.text \x7d\x7d", [.output (.attribute (.variable "cell") "text")]⟩

/-- A table whose cells are templates of their own. -/
def tableNodes : List Node :=
  [.loop "row" (.variable "rows") [.loop "cell" (.variable "row") [.embed "cell"]]]

/-- A table fails at its second cell, inside two loops and an embedded template. The layers and the
name that were put on by then are gone behind it, and rendering again fails in the same way. -/
theorem leaves_no_trace_table :
    let shelf := Store.shelf ⟨[("cell", ⟨cellTemplate, 1⟩)], 1, false⟩ 4
    let library := Flattened.ofLeaf ⟨[("cell", ⟨cellTemplate, 1⟩)], 1, false⟩ 4
    let scope : Scope := ⟨[[("rows", .seq [.seq [.map [("text", .text "a")], .int 1]])]]⟩
    let once := render shelf 4 true tableNodes ⟨scope, [], ()⟩
    once.1 = .error (.mistyped (.noAttributes "text" .integer (.variable "cell"))) ∧
      once.2.scope.layers = scope.layers ∧ once.2.embedding = [] ∧
      shelf.Answers (fun _ => True) library ∧
      (render shelf 4 true tableNodes once.2).1 = once.1 := by
  intro shelf library scope once
  have failed : once.1 = .error (.mistyped (.noAttributes "text" .integer (.variable "cell"))) := by
    simp only [once, shelf, scope]
    rw [Store.shelf_eq_inRounds]
    decide +kernel
  have answers : shelf.Answers (fun _ => True) library := Store.shelf_answers _ 4
  obtain ⟨layers, names, again⟩ := leaves_no_trace shelf 4 true tableNodes scope ()
  exact ⟨failed, layers, names, answers, again (fun _ => True) library answers trivial⟩

end Rendering

namespace Store

/-- Rendering twice in a store gives one answer two times and leaves the store as it was. The second
rendering finds the layers of the first one's start. -/
theorem renderTwice_eq (store : Store) (limit : Nat) (escaping : Bool) (name : String) :
    store.renderTwice limit escaping name =
      (Flattened.ofLeaf store.registry limit name).map fun template =>
        let answer := say (Flattened.ofLeaf store.registry limit) limit escaping []
          template.nodes store.scope
        ((answer, answer), store) := by
  unfold renderTwice
  cases Flattened.ofLeaf store.registry limit name with
  | error fault => rfl
  | ok template =>
    have answers := shelf_answers store.registry limit
    obtain ⟨_, -, once⟩ := Rendering.render_wording answers limit escaping template.nodes
      ⟨store.scope, [], ()⟩ trivial
    simp only [Except.map, once]

end Store

end Stencil
