import Stencil.Proofs.Wording

/-!
# Rendering step by step

A run tells a rendering step by step, as it goes on without knowing beforehand how deep it may still
go: only the names on the session are looked at, and only where a template is embedded. It also
tells what happens to these names. Runs are finite, so that to have one is to come to an end. Every
rendering has one: wherever a template is embedded there is less room for names, and everywhere else
there is less left to render. What a run leads to is what the rendering gives.
-/

namespace Stencil

namespace Rendering

/-- What there is to be rendered. The turns and the cases that are left are tasks of their own, so
that a run can stand between two of them. -/
inductive Task where
  | nodes (nodes : List Node)
  | node (node : Node)
  /-- The turns of a loop that are left, for these items. -/
  | turns (target : String) (body : List Node) (count index : Nat) (items : List Value)
  /-- The cases of a choice whose conditions have not been looked at. -/
  | cases (cases : List (Expr × List Node)) (otherwise : Option (List Node))

/-- What happens to the names of the templates being embedded. A run is told with the events in
their order, from which it can be seen how deep it ever went. -/
inductive Event where
  /-- The nodes of a template are begun inside the others; its own name is the last one. -/
  | entered (names : List String)
  /-- A template is refused inside the others, since they are as many as are allowed. -/
  | refused (chain : List String)

/-- The items that a loop goes over, or the fault that the expression fails with or is no
sequence. -/
def itemsOf (escaping : Bool) (sequence : Expr) (scope : Scope) : Except Mistyped (List Value) := do
  match ← sequence.eval escaping scope with
  | .seq items => return items
  | other => throw (.notSequence other.kind sequence)

section Runs

variable {σ : Type} (shelf : Shelf σ) (limit : Nat) (escaping : Bool)

/-- A task is run in a session: the events on the way, the result, and the session afterwards. There
is one rule for each way in which a task may end, and no allowance that is used up: a run of any
length may be told. -/
inductive Runs : Task → Session σ → List Event → Except Fault String → Session σ → Prop
  | nothing (session : Session σ) : Runs (.nodes []) session [] (.ok "") session
  | stops {node : Node} {rest : List Node} {session after : Session σ} {events : List Event}
    {fault : Fault} (first : Runs (.node node) session events (.error fault) after) :
    Runs (.nodes (node :: rest)) session events (.error fault) after
  | goesOn {node : Node} {rest : List Node} {session between after : Session σ}
    {events later : List Event} {text : String} {result : Except Fault String}
    (first : Runs (.node node) session events (.ok text) between)
    (behind : Runs (.nodes rest) between later result after) :
    Runs (.nodes (node :: rest)) session (events ++ later) (result.map (text ++ ·)) after
  | text (s : String) (session : Session σ) : Runs (.node (.text s)) session [] (.ok s) session
  | output (e : Expr) (session : Session σ) :
    Runs (.node (.output e)) session []
      (Except.mapError .mistyped do (← e.eval escaping session.scope).emit escaping e) session
  | noItems {target : String} {sequence : Expr} {body : List Node} {session : Session σ}
    {cause : Mistyped} (failed : itemsOf escaping sequence session.scope = .error cause) :
    Runs (.node (.loop target sequence body)) session [] (.error (.mistyped cause)) session
  | loop {target : String} {sequence : Expr} {body : List Node} {session after : Session σ}
    {items : List Value} {events : List Event} {result : Except Fault String}
    (found : itemsOf escaping sequence session.scope = .ok items)
    (turns : Runs (.turns target body items.length 0 items) session events result after) :
    Runs (.node (.loop target sequence body)) session events result after
  | choice {cases : List (Expr × List Node)} {otherwise : Option (List Node)}
    {session after : Session σ} {events : List Event} {result : Except Fault String}
    (chosen : Runs (.cases cases otherwise) session events result after) :
    Runs (.node (.choice cases otherwise)) session events result after
  | block {name : String} {body : List Node} {session after : Session σ} {events : List Event}
    {result : Except Fault String} (inside : Runs (.nodes body) session events result after) :
    Runs (.node (.block name body)) session events result after
  | inherits (parent : String) (session : Session σ) :
    Runs (.node (.inherits parent)) session [] (.ok "") session
  /-- Only here the number of names counts. -/
  | refused {name : String} {session : Session σ} (full : limit ≤ session.embedding.length) :
    Runs (.node (.embed name)) session [.refused (session.embedding ++ [name])]
      (.error (.cycle (session.embedding ++ [name]))) session
  | missing {name : String} {session : Session σ} {fault : Fault} {state : σ}
    (free : session.embedding.length < limit)
    (answered : shelf name session.shelf = (.error fault, state)) :
    Runs (.node (.embed name)) session [] (.error fault) { session with shelf := state }
  | embed {name : String} {session after : Session σ} {template : Flattened} {state : σ}
    {events : List Event} {result : Except Fault String}
    (free : session.embedding.length < limit)
    (answered : shelf name session.shelf = (.ok template, state))
    (inside : Runs (.nodes template.nodes)
      { session with shelf := state, embedding := session.embedding ++ [name] } events result
      after) :
    Runs (.node (.embed name)) session (.entered (session.embedding ++ [name]) :: events) result
      { after with embedding := after.embedding.dropLast }
  | noTurn {target : String} {body : List Node} {count index : Nat} (session : Session σ) :
    Runs (.turns target body count index []) session [] (.ok "") session
  | turnStops {target : String} {body : List Node} {count index : Nat} {item : Value}
    {rest : List Value} {session after : Session σ} {events : List Event} {fault : Fault}
    (turn : Runs (.nodes body)
      { session with scope := session.scope.push (turnLayer target item index count) } events
      (.error fault) after) :
    Runs (.turns target body count index (item :: rest)) session events (.error fault)
      { after with scope := after.scope.pop }
  | turn {target : String} {body : List Node} {count index : Nat} {item : Value}
    {rest : List Value} {session between after : Session σ} {events later : List Event}
    {text : String} {result : Except Fault String}
    (turn : Runs (.nodes body)
      { session with scope := session.scope.push (turnLayer target item index count) } events
      (.ok text) between)
    (behind : Runs (.turns target body count (index + 1) rest)
      { between with scope := between.scope.pop } later result after) :
    Runs (.turns target body count index (item :: rest)) session (events ++ later)
      (result.map (text ++ ·)) after
  | noCase (session : Session σ) : Runs (.cases [] none) session [] (.ok "") session
  | otherwise {body : List Node} {session after : Session σ} {events : List Event}
    {result : Except Fault String} (inside : Runs (.nodes body) session events result after) :
    Runs (.cases [] (some body)) session events result after
  | noCondition {condition : Expr} {body : List Node} {rest : List (Expr × List Node)}
    {otherwise : Option (List Node)} {session : Session σ} {cause : Mistyped}
    (failed : condition.eval escaping session.scope = .error cause) :
    Runs (.cases ((condition, body) :: rest) otherwise) session [] (.error (.mistyped cause))
      session
  | holds {condition : Expr} {body : List Node} {rest : List (Expr × List Node)}
    {otherwise : Option (List Node)} {session after : Session σ} {events : List Event}
    {result : Except Fault String} {value : Value}
    (found : condition.eval escaping session.scope = .ok value) (truthy : value.isTruthy = true)
    (inside : Runs (.nodes body) session events result after) :
    Runs (.cases ((condition, body) :: rest) otherwise) session events result after
  | fails {condition : Expr} {body : List Node} {rest : List (Expr × List Node)}
    {otherwise : Option (List Node)} {session after : Session σ} {events : List Event}
    {result : Except Fault String} {value : Value}
    (found : condition.eval escaping session.scope = .ok value) (falsy : value.isTruthy = false)
    (behind : Runs (.cases rest otherwise) session events result after) :
    Runs (.cases ((condition, body) :: rest) otherwise) session events result after

end Runs

/-- What rendering does for a task, where `embed` renders embedded templates. It ties the steps to
the functions that render. -/
def activity {σ : Type} (embed : String → Rendering σ String) (escaping : Bool) :
    Task → Rendering σ String
  | .nodes nodes => renderBody embed escaping nodes
  | .node node => renderNode embed escaping node
  | .turns target body count index items =>
    renderTurns target count (renderBody embed escaping body) index items
  | .cases cases otherwise =>
    renderCases embed escaping (renderOption embed escaping otherwise) cases

section Results

variable {σ : Type}

/-- What comes behind a part that fails is left out, and the session is the one that the part has
left. -/
theorem run_bind_error {α β : Type} {first : Rendering σ α} {session after : Session σ}
    {fault : Fault} (failed : first.run session = (.error fault, after))
    (next : α → Rendering σ β) : (first >>= next).run session = (.error fault, after) := by
  rw [run_bind, failed]

/-- What comes behind another part starts where that part ends. -/
theorem run_bind_ok {α β : Type} {first : Rendering σ α} {session between : Session σ} {a : α}
    (done : first.run session = (.ok a, between)) (next : α → Rendering σ β) :
    (first >>= next).run session = (next a).run between := by
  rw [run_bind, done]

/-- Two texts come one behind the other. If the second one fails, so does the whole, and the session
is the one that it has left. -/
theorem run_append {first second : Rendering σ String} {session between after : Session σ}
    {text : String} {result : Except Fault String}
    (before : first.run session = (.ok text, between))
    (behind : second.run between = (result, after)) :
    (do let text ← first; return text ++ (← second)).run session =
      (result.map (text ++ ·), after) := by
  rw [run_bind_ok before, run_bind, behind]
  cases result <;> rfl

/-- An expression that fails is a fault, and leaves the session as it was. -/
theorem in_scope_error {α : Type} {compute : Scope → Except Mistyped α} {session : Session σ}
    {cause : Mistyped} (failed : compute session.scope = .error cause) :
    (inScope compute : Rendering σ α).run session = (.error (.mistyped cause), session) := by
  show ((compute session.scope).mapError Fault.mistyped, session) = _
  rw [failed]
  rfl

/-- An expression that has a value leaves the session as it was as well. -/
theorem in_scope_ok {α : Type} {compute : Scope → Except Mistyped α} {session : Session σ} {a : α}
    (found : compute session.scope = .ok a) :
    (inScope compute : Rendering σ α).run session = (.ok a, session) := by
  show ((compute session.scope).mapError Fault.mistyped, session) = _
  rw [found]
  rfl

/-- To ask the shelf gives its answer and leaves its new state. -/
theorem run_fetch (shelf : Shelf σ) {name : String} {session : Session σ}
    {answer : Except Fault Flattened} {state : σ}
    (answered : shelf name session.shelf = (answer, state)) :
    (fetch shelf name).run session = (answer, { session with shelf := state }) := by
  show ((shelf name session.shelf).1, { session with shelf := (shelf name session.shelf).2 }) = _
  rw [answered]

/-- A layer is put on for a part, and taken off behind it. Whether the part fails makes no
difference to that. -/
theorem with_layer {α : Type} {layer : Layer} {part : Rendering σ α} {session after : Session σ}
    {result : Except Fault α}
    (ran : part.run { session with scope := session.scope.push layer } = (result, after)) :
    (withLayer layer part).run session =
      (result, { after with scope := after.scope.pop }) := by
  rw [run_with_layer, ran]

/-- So is a name. -/
theorem with_name {α : Type} {name : String} {part : Rendering σ α} {session after : Session σ}
    {result : Except Fault α}
    (ran : part.run { session with embedding := session.embedding ++ [name] } = (result, after)) :
    (withName name part).run session =
      (result, { after with embedding := after.embedding.dropLast }) := by
  rw [run_with_name, ran]

/-- Where there is room for another name, an embedded template is fetched and rendered with one name
less of room. Room is the limit without the names on the session, which is how the allowance is told
from the session alone. -/
theorem embedded_free {shelf : Shelf σ} {limit : Nat} {session : Session σ}
    (free : session.embedding.length < limit) (escaping : Bool) (name : String) :
    renderEmbedded shelf escaping (limit - session.embedding.length) name =
      fetch shelf name >>= fun template => withName name (renderBody
        (renderEmbedded shelf escaping (limit - (session.embedding ++ [name]).length)) escaping
        template.nodes) := by
  have room : limit - session.embedding.length =
      limit - (session.embedding ++ [name]).length + 1 := by
    rw [List.length_append, List.length_singleton]
    omega
  rw [room, renderEmbedded]

variable {shelf : Shelf σ} {limit : Nat} {escaping : Bool} {task : Task}
  {session after : Session σ} {events : List Event} {result : Except Fault String}

/-- A run takes the names off that it puts on. The induction is on the run; only an embedded
template puts a name on. -/
theorem runs_names (runs : Runs shelf limit escaping task session events result after) :
    after.embedding = session.embedding := by
  induction runs with
  | goesOn first behind inFirst inBehind => exact inBehind.trans inFirst
  | embed free answered inside inductionHypothesis =>
    simp only [inductionHypothesis, List.dropLast_concat]
  | turn turn behind inTurn inBehind => exact inBehind.trans inTurn
  | stops _ inductionHypothesis | loop _ _ inductionHypothesis | choice _ inductionHypothesis
  | block _ inductionHypothesis | turnStops _ inductionHypothesis
  | otherwise _ inductionHypothesis | holds _ _ _ inductionHypothesis
  | fails _ _ _ inductionHypothesis => exact inductionHypothesis
  | _ => rfl

/-- A run leads to what the rendering gives, where as many templates may be embedded as there is
room for names. The induction is on the run, with one lemma above for each way in which parts are
put together. -/
theorem runs_render (runs : Runs shelf limit escaping task session events result after) :
    (activity (renderEmbedded shelf escaping (limit - session.embedding.length)) escaping
      task).run session = (result, after) := by
  induction runs with
  | nothing session => rfl
  | stops first inductionHypothesis => exact run_bind_error inductionHypothesis _
  | goesOn first behind inFirst inBehind =>
    rw [runs_names first] at inBehind
    exact run_append inFirst inBehind
  | text s session => rfl
  | output e session => rfl
  | noItems failed => exact run_bind_error (in_scope_error failed) _
  | loop found turns inductionHypothesis =>
    exact (run_bind_ok (in_scope_ok found) _).trans inductionHypothesis
  | choice chosen inductionHypothesis => exact inductionHypothesis
  | block inside inductionHypothesis => exact inductionHypothesis
  | inherits parent session => rfl
  | @refused name session full =>
    -- As many names as are allowed are there, so no allowance is left.
    show (renderEmbedded shelf escaping (limit - session.embedding.length) name).run session = _
    rw [Nat.sub_eq_zero_of_le full]
    rfl
  | missing free answered =>
    refine (congrArg (run · _) (embedded_free free escaping _)).trans ?_
    exact run_bind_error (run_fetch shelf answered) _
  | embed free answered inside inductionHypothesis =>
    refine (congrArg (run · _) (embedded_free free escaping _)).trans ?_
    exact (run_bind_ok (run_fetch shelf answered) _).trans (with_name inductionHypothesis)
  | noTurn session => rfl
  | turnStops turn inductionHypothesis =>
    exact run_bind_error (with_layer inductionHypothesis) _
  | turn turn behind inTurn inBehind =>
    have same := congrArg List.length (runs_names turn)
    dsimp only at same inBehind
    rw [same] at inBehind
    exact run_append (with_layer inTurn) inBehind
  | noCase session => rfl
  | otherwise inside inductionHypothesis => exact inductionHypothesis
  | noCondition failed => exact run_bind_error (in_scope_error failed) _
  | holds found truthy inside inductionHypothesis =>
    refine (run_bind_ok (in_scope_ok found) _).trans ?_
    rw [if_pos truthy]
    exact inductionHypothesis
  | fails found falsy behind inductionHypothesis =>
    refine (run_bind_ok (in_scope_ok found) _).trans ?_
    rw [if_neg (by simp [falsy])]
    exact inductionHypothesis

end Results

section Ending

variable {σ : Type} (shelf : Shelf σ) (limit : Nat) (escaping : Bool)

/-- A task has a run in a session, wherever it leads. A run is finite, so this says that the task
comes to an end. -/
def Ends (task : Task) (session : Session σ) : Prop :=
  ∃ events result after, Runs shelf limit escaping task session events result after

variable {shelf limit escaping} {depth : Nat}

/-- Nodes have a run if the first one has, and the others have wherever it leads. A run leaves the
names as they are, so the others start inside as many templates as the first. -/
theorem ends_cons {node : Node} {rest : List Node} {session : Session σ}
    (here : session.embedding.length = depth)
    (first : Ends shelf limit escaping (.node node) session)
    (behind : ∀ session : Session σ, session.embedding.length = depth →
      Ends shelf limit escaping (.nodes rest) session) :
    Ends shelf limit escaping (.nodes (node :: rest)) session := by
  obtain ⟨events, result, between, run⟩ := first
  cases result with
  | error fault => exact ⟨_, _, _, .stops run⟩
  | ok text =>
    have still : between.embedding.length = depth := by rw [runs_names run, here]
    obtain ⟨later, result, after, runBehind⟩ := behind between still
    exact ⟨_, _, _, .goesOn run runBehind⟩

/-- The turns of a loop have a run if its body has. The induction is on the items that are left. The
body may be run in any session with as many names as there are now, since every turn gives back
those that it has found. -/
theorem ends_turns {target : String} {body : List Node} {count : Nat}
    (inner : ∀ session : Session σ, session.embedding.length = depth →
      Ends shelf limit escaping (.nodes body) session) (items : List Value) (index : Nat)
    {session : Session σ} (here : session.embedding.length = depth) :
    Ends shelf limit escaping (.turns target body count index items) session := by
  induction items generalizing index session with
  | nil => exact ⟨_, _, _, .noTurn session⟩
  | cons item rest inductionHypothesis =>
    obtain ⟨events, result, between, run⟩ :=
      inner { session with scope := session.scope.push (turnLayer target item index count) } here
    cases result with
    | error fault => exact ⟨_, _, _, .turnStops run⟩
    | ok text =>
      have still : between.embedding.length = depth := by rw [runs_names run, here]
      have behind : Ends shelf limit escaping (.turns target body count (index + 1) rest)
          { between with scope := between.scope.pop } := inductionHypothesis (index + 1) still
      obtain ⟨later, result, after, runBehind⟩ := behind
      exact ⟨_, _, _, .turn run runBehind⟩

/-- A choice has a run if the bodies in it have. The induction is on the cases, up to the first
whose condition is true or fails. Conditions leave the session as it is, so all bodies may be taken
to start in the same one. -/
theorem ends_cases {cases : List (Expr × List Node)} {otherwise : Option (List Node)}
    {session : Session σ}
    (inCases : ∀ case ∈ cases, Ends shelf limit escaping (.nodes case.2) session)
    (inOther : ∀ body ∈ otherwise, Ends shelf limit escaping (.nodes body) session) :
    Ends shelf limit escaping (.cases cases otherwise) session := by
  induction cases with
  | nil =>
    cases otherwise with
    | none => exact ⟨_, _, _, .noCase session⟩
    | some body =>
      obtain ⟨events, result, after, run⟩ := inOther body rfl
      exact ⟨_, _, _, .otherwise run⟩
  | cons case rest inductionHypothesis =>
    obtain ⟨condition, body⟩ := case
    obtain ⟨inBody, inRest⟩ := List.forall_mem_cons.mp inCases
    cases found : condition.eval escaping session.scope with
    | error cause => exact ⟨_, _, _, .noCondition found⟩
    | ok value =>
      cases holds : value.isTruthy with
      | true =>
        obtain ⟨events, result, after, run⟩ := inBody
        exact ⟨_, _, _, .holds found holds run⟩
      | false =>
        obtain ⟨events, result, after, run⟩ := inductionHypothesis inRest
        exact ⟨_, _, _, .fails found holds run⟩

/-- Nodes have a run if embedded templates have, inside as many others. The induction is on the
nodes, with the bodies inside of them; no body is rendered inside more templates than the node that
it belongs to. -/
theorem ends_nodes (embeds : ∀ name (session : Session σ), session.embedding.length = depth →
      Ends shelf limit escaping (.node (.embed name)) session)
    (nodes : List Node) {session : Session σ} (here : session.embedding.length = depth) :
    Ends shelf limit escaping (.nodes nodes) session := by
  induction nodes using Node.body_induction generalizing session with
  | nil => exact ⟨_, _, _, .nothing session⟩
  | text s rest behind =>
    exact ends_cons here ⟨_, _, _, .text s session⟩ fun _ => behind
  | output e rest behind =>
    exact ends_cons here ⟨_, _, _, .output e session⟩ fun _ => behind
  | loop target sequence body rest inner behind =>
    refine ends_cons here ?_ fun _ => behind
    cases found : itemsOf escaping sequence session.scope with
    | error cause => exact ⟨_, _, _, .noItems found⟩
    | ok items =>
      obtain ⟨events, result, after, run⟩ := ends_turns (fun _ => inner) items 0 here
      exact ⟨_, _, _, .loop found run⟩
  | choice cases otherwise rest inCases inOther behind =>
    refine ends_cons here ?_ fun _ => behind
    obtain ⟨events, result, after, run⟩ := ends_cases (fun case member => inCases case member here)
      fun body present => inOther body present here
    exact ⟨_, _, _, .choice run⟩
  | block name body rest inner behind =>
    obtain ⟨events, result, after, run⟩ := inner here
    exact ends_cons here ⟨_, _, _, .block run⟩ fun _ => behind
  | inherits parent rest behind =>
    exact ends_cons here ⟨_, _, _, .inherits parent session⟩ fun _ => behind
  | embed name rest behind => exact ends_cons here (embeds name session here) fun _ => behind

/-- An embedded template has a run. The induction is on the room for names that is left: a template
that is begun takes one of it, and without room there is a run that refuses. -/
theorem ends_embedded (name : String) {room : Nat} {session : Session σ}
    (left : limit - session.embedding.length = room) :
    Ends shelf limit escaping (.node (.embed name)) session := by
  induction room generalizing name session with
  | zero => exact ⟨_, _, _, .refused (Nat.sub_eq_zero_iff_le.mp left)⟩
  | succ room inductionHypothesis =>
    have free : session.embedding.length < limit := by omega
    cases answered : shelf name session.shelf with
    | mk answer state =>
      cases answer with
      | error fault => exact ⟨_, _, _, .missing free answered⟩
      | ok template =>
        have embeds (inner : String) (inside : Session σ)
            (deeper : inside.embedding.length = (session.embedding ++ [name]).length) :
            Ends shelf limit escaping (.node (.embed inner)) inside := by
          refine inductionHypothesis inner ?_
          rw [deeper, List.length_append, List.length_singleton]
          omega
        have inside : Ends shelf limit escaping (.nodes template.nodes)
            ⟨session.scope, session.embedding ++ [name], state⟩ :=
          ends_nodes embeds template.nodes rfl
        obtain ⟨events, result, after, run⟩ := inside
        exact ⟨_, _, _, .embed free answered run⟩

/-- Every rendering of nodes has a run, which leads to what the rendering gives. A run exists in any
case, and there is no other outcome that it could have. -/
theorem run_of_render (nodes : List Node) (session : Session σ) :
    ∃ events, Runs shelf limit escaping (.nodes nodes) session events
      (render shelf limit escaping nodes session).1
      (render shelf limit escaping nodes session).2 := by
  obtain ⟨events, result, after, run⟩ : Ends shelf limit escaping (.nodes nodes) session :=
    ends_nodes (fun name _ _ => ends_embedded name rfl) nodes rfl
  have same : render shelf limit escaping nodes session = (result, after) := runs_render run
  rw [same]
  exact ⟨events, run⟩

end Ending

end Rendering

end Stencil
