import Stencil.Proofs.Agreement
import Stencil.Proofs.Footprint
import Stencil.Proofs.Running

/-!
# Loops turn by turn

A loop is its body rendered once for each item, each time in a scope of its own: the scope that the
loop stands in, with one layer on top for the turn. What makes the turns independent of each other
is that no body leaves a trace, whatever is in it, so each turn starts from the scope of the loop
and not from what the turn before has made of it. All that is handed on from turn to turn is the
state of the shelf.
-/

namespace Stencil

/-- What `loop` stands for in the turn with `index` turns before it, of `count` in all. The entries
are in the order of their names, as those of every mapping. -/
def turnEntries (index count : Nat) : List (String × Value) :=
  [("first", .bool (index = 0)), ("index", .ofNat (index + 1)), ("index0", .ofNat index),
    ("last", .bool (index + 1 = count)), ("length", .ofNat count)]

/-- This is what the turn is given. The names are put in one after the other there, and come out in
this order. -/
theorem turnFacts_eq (index count : Nat) :
    turnFacts index count = .map (turnEntries index count) := by
  have ordered (position before first last all : Value) :
      Dict.ofList [("index", position), ("index0", before), ("first", first), ("last", last),
        ("length", all)] = [("first", first), ("index", position), ("index0", before),
          ("last", last), ("length", all)] := by
    simp +decide only [Dict.ofList, List.foldl, Dict.insert, ↓reduceIte]
  rw [turnFacts, ordered, turnEntries, beq_eq_decide, beq_eq_decide]

namespace Scope

/-- The scope of a turn: one layer more, with `loop` and the target. `loop` is put on last, so that
it wins over a target of the same name. -/
def inTurn (scope : Scope) (target : String) (count index : Nat) (item : Value) : Scope :=
  scope.push (Dict.insert (Dict.insert [] target item) "loop" (.map (turnEntries index count)))

/-- This is the scope that rendering makes for the turn. -/
theorem inTurn_eq (scope : Scope) (target : String) (count index : Nat) (item : Value) :
    scope.inTurn target count index item = scope.push (turnLayer target item index count) := by
  rw [turnLayer, turnFacts_eq, inTurn]

/-- The scopes of the turns of a loop in their order. Each is the scope of the loop with one layer
more, and none sees what another was given. -/
def turns (scope : Scope) (target : String) (items : List Value) : List Scope :=
  items.mapIdx (scope.inTurn target items.length)

/-- What a name stands for in a turn: `loop` tells about the turn, also where the target has this
name, the target is the item, and every other name is what it is outside the loop. -/
theorem lookup_turn (scope : Scope) (target : String) (count index : Nat) (item : Value)
    (name : String) :
    (scope.inTurn target count index item).lookup? name =
      if name = "loop" then some (.map (turnEntries index count))
      else if name = target then some item
      else scope.lookup? name := by
  rw [inTurn, lookup?_push, Dict.get?_insert, Dict.get?_insert, Dict.get?_nil]
  by_cases about : name = "loop"
  · rw [if_pos about.symm, if_pos about]
    rfl
  · rw [if_neg (Ne.symm about), if_neg about]
    by_cases here : name = target
    · rw [if_pos here.symm, if_pos here]
      rfl
    · rw [if_neg (Ne.symm here), if_neg here]
      rfl

end Scope

namespace Rendering

variable {σ : Type}

/-- A rendering in a scope and among names that are given, so that only the shelf is left to change
from one rendering to the next. What the rendering makes of its scope is dropped. -/
def placed {α : Type} (run : Session σ → Except Fault α × Session σ) (around : List String)
    (scope : Scope) : ExceptT Fault (StateM σ) α :=
  ExceptT.mk fun state =>
    let (result, after) := run ⟨scope, around, state⟩
    (result, after.shelf)

/-- The text of a rendering in several scopes, one behind the other, and the state that the shelf
is left in. The first fault is the end. -/
def renderAll (run : Session σ → Except Fault String × Session σ) (around : List String)
    (scopes : List Scope) (state : σ) : Except Fault String × σ :=
  let (texts, left) := (scopes.mapM (placed run around)).run.run state
  (texts.map String.join, left)

/-- Two activities on the shelf: the second is left out if the first fails, and finds what the first
has left if it does not. -/
theorem shelf_bind {α β : Type} (first : ExceptT Fault (StateM σ) α)
    (next : α → ExceptT Fault (StateM σ) β) (state : σ) :
    (first >>= next).run.run state =
      match first.run.run state with
      | (.error fault, left) => (.error fault, left)
      | (.ok a, left) => (next a).run.run left := by
  show (ExceptT.bindCont next (first.run.run state).1) (first.run.run state).2 = _
  obtain ⟨result, left⟩ := first.run.run state
  cases result <;> rfl

/-- The first of several scopes comes before the others, which are left out if it fails. The state
of the shelf goes from one to the next, and is kept also where one fails. -/
theorem render_all_cons (run : Session σ → Except Fault String × Session σ)
    (around : List String) (scope : Scope) (rest : List Scope) (state : σ) :
    renderAll run around (scope :: rest) state =
      match run ⟨scope, around, state⟩ with
      | (.error fault, after) => (.error fault, after.shelf)
      | (.ok text, after) =>
        let (later, left) := renderAll run around rest after.shelf
        (later.map (text ++ ·), left) := by
  have first : (placed run around scope).run.run state =
      ((run ⟨scope, around, state⟩).1, (run ⟨scope, around, state⟩).2.shelf) := rfl
  simp only [renderAll, List.mapM_cons, shelf_bind, first]
  obtain ⟨result, after⟩ := run ⟨scope, around, state⟩
  cases result with
  | error fault => rfl
  | ok text =>
    dsimp only
    obtain ⟨later, left⟩ := (rest.mapM (placed run around)).run.run after.shelf
    cases later with
    | error fault => rfl
    | ok texts =>
      show (Except.ok (String.join (text :: texts)), left) =
        (Except.ok (text ++ String.join texts), left)
      rw [String.join_cons]

/-- The turns of a loop whose body leaves no trace are renderings of the body in the scopes of the
turns: each finds the layer of its turn on the scope of the loop and nothing else. The induction is
on the items, with the number of turns before them left open. -/
theorem run_turns {turn : Rendering σ String} (traceless : Traceless turn) (target : String)
    (count : Nat) (scope : Scope) (around : List String) (items : List Value) (index : Nat)
    (state : σ) :
    (renderTurns target count turn index items).run ⟨scope, around, state⟩ =
      let rendered := renderAll turn.run around
        (items.mapIdx fun before item => scope.inTurn target count (index + before) item) state
      (rendered.1, ⟨scope, around, rendered.2⟩) := by
  induction items generalizing index state with
  | nil => rfl
  | cons item rest inductionHypothesis =>
    obtain ⟨left, back⟩ := traceless ⟨scope.inTurn target count index item, around, state⟩
    have later (before : Nat) (other : Value) :
        scope.inTurn target count (index + (before + 1)) other =
          scope.inTurn target count (index + 1 + before) other := by
      rw [Nat.add_right_comm, Nat.add_assoc]
    -- The layer of the turn is off again, whatever the turn has done.
    have here : (withLayer (turnLayer target item index count) turn).run
        ⟨scope, around, state⟩ =
          ((turn.run ⟨scope.inTurn target count index item, around, state⟩).1,
            ⟨scope, around, left⟩) := by
      rw [run_with_layer, ← Scope.inTurn_eq]
      dsimp only
      rw [back]
      rfl
    rw [List.mapIdx_cons, render_all_cons]
    simp only [later, Nat.add_zero]
    generalize outcome : turn.run ⟨scope.inTurn target count index item, around, state⟩ = ran
      at here back
    obtain ⟨result, after⟩ := ran
    obtain rfl : after = _ := back
    cases result with
    | error fault => exact run_bind_error here _
    | ok text => exact run_append here (inductionHypothesis (index + 1) left)

/-- A body of one node is rendered as the node is. -/
theorem body_single (embed : String → Rendering σ String) (escaping : Bool) (node : Node) :
    renderBody embed escaping [node] = renderNode embed escaping node := by
  rw [renderBody, renderBody]
  simp only [pure_bind, String.append_empty, bind_pure]

section Loops

variable (shelf : Shelf σ) (limit : Nat) (escaping : Bool)

/-- A node by itself is all there is to render. -/
theorem render_single (node : Node) (session : Session σ) :
    render shelf limit escaping [node] session =
      (renderNode (renderEmbedded shelf escaping (limit - session.embedding.length)) escaping
        node).run session := by
  rw [render, body_single]

/-- Nodes behind a node start in the scope that the node started in. Rendering the node leaves no
trace, so only the state of the shelf has to be handed on. -/
theorem render_cons (node : Node) (rest : List Node) (session : Session σ) :
    render shelf limit escaping (node :: rest) session =
      match render shelf limit escaping [node] session with
      | (.error fault, after) => (.error fault, after)
      | (.ok text, after) =>
        let (later, left) :=
          render shelf limit escaping rest { session with shelf := after.shelf }
        (later.map (text ++ ·), left) := by
  obtain ⟨state, back⟩ := render_traceless shelf limit escaping [node] session
  rw [render_single] at back ⊢
  generalize alone : (renderNode _ escaping node).run session = outcome at back ⊢
  obtain ⟨result, after⟩ := outcome
  obtain rfl : after = { session with shelf := state } := back
  cases result with
  | error fault => exact run_bind_error alone _
  | ok text => exact run_append alone rfl

variable (target : String) {sequence : Expr} (body : List Node) {session : Session σ}

/-- A loop over items renders its body once for each of them. Its sequence has been evaluated in the
scope of the loop, before the first turn. The scope of each turn is told beforehand, because no turn
leaves anything in it. -/
theorem render_loop {items : List Value}
    (evaluated : sequence.eval escaping session.scope = .ok (.seq items)) :
    render shelf limit escaping [.loop target sequence body] session =
      let unrolled := renderAll (render shelf limit escaping body) session.embedding
        (session.scope.turns target items) session.shelf
      (unrolled.1, { session with shelf := unrolled.2 }) := by
  rw [render_single, renderNode]
  have found : itemsOf escaping sequence session.scope = .ok items := by
    rw [itemsOf, evaluated]
    rfl
  refine (run_bind_ok (in_scope_ok found) _).trans ?_
  refine (run_turns (traceless_body escaping (traceless_embedded escaping shelf _) body)
    target items.length session.scope session.embedding items 0 session.shelf).trans ?_
  simp only [Nat.zero_add]
  rfl

/-- A loop whose items cannot be had ends before its first turn, whether its expression fails or has
another value. -/
theorem render_loop_mistyped {cause : Mistyped}
    (refused : itemsOf escaping sequence session.scope = .error cause) :
    render shelf limit escaping [.loop target sequence body] session =
      (.error (.mistyped cause), session) := by
  rw [render_single, renderNode]
  exact run_bind_error (in_scope_error refused) _

end Loops

/-- A loop is its unrolling in fresh scopes. The sequence is evaluated once, in the scope of the
loop. If it is a sequence of items, the body is rendered once for each of them, one behind the
other, each time in the scope of the loop with a single layer more; in that layer `loop` tells about
the turn, and wins over a target that is called `loop` itself, the target is the item, and nothing
else is another thing than outside. The texts are put together, or the first fault is the result.
If it is anything else, or cannot be evaluated, the loop fails before its first turn. Whatever the
body is, what stands behind the loop starts in the scope that the loop started in, so a loop inside
a loop takes neither `loop` nor a name that it shadows from the outer one. -/
theorem loop_is_unrolled (shelf : Shelf σ) (limit : Nat) (escaping : Bool) (target : String)
    (sequence : Expr) (body : List Node) (session : Session σ) :
    let rendered := render shelf limit escaping [.loop target sequence body] session
    (∀ items, sequence.eval escaping session.scope = .ok (.seq items) →
      let unrolled := renderAll (render shelf limit escaping body) session.embedding
        (session.scope.turns target items) session.shelf
      rendered = (unrolled.1, { session with shelf := unrolled.2 }) ∧
      (session.scope.turns target items).length = items.length ∧
      ∀ index item, items[index]? = some item → ∃ layer : Layer,
        (session.scope.turns target items)[index]? = some (session.scope.push layer) ∧
        ∀ name, (session.scope.push layer).lookup? name =
          if name = "loop" then some (.map (turnEntries index items.length))
          else if name = target then some item
          else session.scope.lookup? name) ∧
    (∀ value, sequence.eval escaping session.scope = .ok value → value.kind ≠ .sequence →
      rendered = (.error (.mistyped (.notSequence value.kind sequence)), session)) ∧
    (∀ cause, sequence.eval escaping session.scope = .error cause →
      rendered = (.error (.mistyped cause), session)) ∧
    ∀ rest, render shelf limit escaping (.loop target sequence body :: rest) session =
      match rendered with
      | (.error fault, after) => (.error fault, after)
      | (.ok text, after) =>
        let (later, left) :=
          render shelf limit escaping rest { session with shelf := after.shelf }
        (later.map (text ++ ·), left) := by
  intro rendered
  refine ⟨?_, ?_, ?_, ?_⟩
  · intro items evaluated
    refine ⟨render_loop shelf limit escaping target body evaluated, List.length_mapIdx, ?_⟩
    intro index item present
    refine ⟨_, ?_, session.scope.lookup_turn target items.length index item⟩
    rw [Scope.turns, List.getElem?_mapIdx, present]
    rfl
  · intro value evaluated other
    -- Neither a value of another kind nor a fault gives items to go through.
    refine render_loop_mistyped shelf limit escaping target body ?_
    rw [itemsOf, evaluated]
    cases value with
    | seq items => exact absurd rfl other
    | _ => rfl
  · intro cause failed
    refine render_loop_mistyped shelf limit escaping target body ?_
    rw [itemsOf, failed]
    rfl
  · exact fun rest => render_cons shelf limit escaping _ rest session

/-- The items of a row, which go by the name of the row, and behind them the number of the row and
its first item. -/
def rowNodes : List Node :=
  [.loop "x" (.variable "x") [.output (.variable "x")],
    .output (.attribute (.variable "loop") "index"), .output (.index (.variable "x") (.int 0))]

/-- Behind the loop over a row, `loop` and `x` are those of the loop over the rows again. A loop
over a number has no turn, nor has one over a part that a number does not have. -/
theorem loop_is_unrolled_rows :
    let shelf := Store.shelf ⟨[], 0, false⟩ 4
    let rows : List Value := [.seq [.text "a", .text "b"], .seq [.text "c"]]
    let session : Session Unit := ⟨⟨[[("count", .int 2), ("rows", .seq rows)]]⟩, [], ()⟩
    let rendering (sequence : Expr) := render shelf 4 true [.loop "x" sequence rowNodes] session
    let unrolled := renderAll (render shelf 4 true rowNodes) session.embedding
      (session.scope.turns "x" rows) session.shelf
    (Expr.variable "rows").eval true session.scope = .ok (.seq rows) ∧
      (rendering (.variable "rows")).1 = .ok "ab1ac2c" ∧
      rendering (.variable "rows") = (unrolled.1, { session with shelf := unrolled.2 }) ∧
      (Expr.variable "count").eval true session.scope = .ok (.int 2) ∧
      rendering (.variable "count") =
        (.error (.mistyped (.notSequence .integer (.variable "count"))), session) ∧
      (Expr.attribute (.variable "count") "x").eval true session.scope =
        .error (.noAttributes "x" .integer (.variable "count")) ∧
      rendering (.attribute (.variable "count") "x") =
        (.error (.mistyped (.noAttributes "x" .integer (.variable "count"))), session) := by
  intro shelf rows session rendering unrolled
  have found : (Expr.variable "rows").eval true session.scope = .ok (.seq rows) := by
    simp only [session, rows]
    rfl
  have counted : (Expr.variable "count").eval true session.scope = .ok (.int 2) := by
    simp only [session, rows]
    rfl
  have failed : (Expr.attribute (.variable "count") "x").eval true session.scope =
      .error (.noAttributes "x" .integer (.variable "count")) := by
    simp only [session, rows]
    rfl
  have rendered : (rendering (.variable "rows")).1 = .ok "ab1ac2c" := by
    simp only [rendering, shelf, session, rows]
    decide +kernel
  have law (sequence : Expr) := loop_is_unrolled shelf 4 true "x" sequence rowNodes session
  have turns := (law (.variable "rows")).1 rows found
  have refused := (law (.variable "count")).2.1 (.int 2) counted (by decide)
  have absent := (law (.attribute (.variable "count") "x")).2.2.1 _ failed
  exact ⟨found, rendered, turns.1, counted, refused, failed, absent⟩

end Rendering
end Stencil
