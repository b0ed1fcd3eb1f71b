import Mathlib.Data.List.Chain
import Stencil.Proofs.Footprint
import Stencil.Proofs.Running

/-!
# How deep templates are embedded

Nothing keeps a template from embedding itself, on its own or by way of others, in a loop or in a
block that another template overrides. What ends such a rendering is the number of names on the
session: a template that is to be embedded inside as many others as are allowed is refused. The
names in the complaint then are a way through the templates, each of which embeds the next one, and
so there is a refusal only where there is such a way that is longer than allowed.
-/

namespace Stencil

namespace Rendering

/-- Names of templates, the first of which is embedded somewhere in the nodes, and each other one in
the template before it. -/
structure Nested (library : Library) (nodes : List Node) (names : List String) : Prop where
  first : ∀ name ∈ names.head?, .embed name ∈ Node.allOf nodes
  next : names.IsChain fun outer inner =>
    ∃ template, library outer = .ok template ∧ .embed inner ∈ Node.allOf template.nodes

/-- The names that an event is about, the outermost first. They are those on the stack when the
event takes place. -/
def Event.names : Event → List String
  | .entered names | .refused names => names

/-- No more names than are allowed, but for the one that is refused. That one is the name that would
have been one too many, so its chain has exactly one name more. -/
def Event.Fits (limit : Nat) : Event → Prop
  | .entered names => names.length ≤ limit
  | .refused chain => chain.length = limit + 1

/-- The nodes that a task may come to, at any depth. What its embedded templates hold is not among
them. -/
def Task.all : Task → List Node
  | .nodes body => Node.allOf body
  | .node one => Node.all one
  | .turns _ body _ _ _ => Node.allOf body
  | .cases branches otherwise => Node.allOfCases branches ++ Node.allOfOption otherwise

section Events

variable {σ : Type} {shelf : Shelf σ} {limit : Nat} {escaping : Bool} {task : Task}
  {session after : Session σ} {events : List Event} {result : Except Fault String}

/-- A refusal ends the whole run. The induction is on the run: whatever was to come behind the
refusal is left out, and the fault is passed on as it is, out of all that the refused template is
in. -/
theorem refused_ends (runs : Runs shelf limit escaping task session events result after)
    {chain : List String} (refused : .refused chain ∈ events) :
    result = .error (.cycle chain) := by
  induction runs with
  | goesOn first behind inFirst inBehind =>
    rcases List.mem_append.mp refused with early | late
    · cases inFirst early
    · rw [inBehind late]
      rfl
  | turn turn behind inTurn inBehind =>
    rcases List.mem_append.mp refused with early | late
    · cases inTurn early
    · rw [inBehind late]
      rfl
  | refused full =>
    cases List.mem_singleton.mp refused
    rfl
  | embed free answered inside inductionHypothesis =>
    rcases List.mem_cons.mp refused with same | within
    · cases same
    · exact inductionHypothesis within
  | stops _ inductionHypothesis | loop _ _ inductionHypothesis | choice _ inductionHypothesis
  | block _ inductionHypothesis | turnStops _ inductionHypothesis
  | otherwise _ inductionHypothesis | holds _ _ _ inductionHypothesis
  | fails _ _ _ inductionHypothesis => exact inductionHypothesis refused
  | _ => cases refused

/-- There are never too many names. The induction is on the run; a name is put on only where there
is room, and taken off again. A refusal names one more than there is room for, the one that was not
put on. -/
theorem events_fit (runs : Runs shelf limit escaping task session events result after)
    (within : session.embedding.length ≤ limit) : ∀ event ∈ events, event.Fits limit := by
  induction runs with
  | goesOn first behind inFirst inBehind =>
    refine List.forall_mem_append.mpr ⟨inFirst within, inBehind ?_⟩
    rwa [runs_names first]
  | turn turn behind inTurn inBehind =>
    refine List.forall_mem_append.mpr ⟨inTurn within, inBehind ?_⟩
    have same := runs_names turn
    dsimp only at same ⊢
    rwa [same]
  | @refused name session full =>
    have length : (session.embedding ++ [name]).length = limit + 1 := by
      rw [List.length_append, List.length_singleton, Nat.le_antisymm within full]
    exact List.forall_mem_singleton.mpr length
  | @embed name session after template state events result free answered inside
      inductionHypothesis =>
    have length : (session.embedding ++ [name]).length ≤ limit := by
      rwa [List.length_append, List.length_singleton]
    exact List.forall_mem_cons.mpr ⟨length, inductionHypothesis length⟩
  | stops _ inductionHypothesis | loop _ _ inductionHypothesis | choice _ inductionHypothesis
  | block _ inductionHypothesis | turnStops _ inductionHypothesis
  | otherwise _ inductionHypothesis | holds _ _ _ inductionHypothesis
  | fails _ _ _ inductionHypothesis => exact inductionHypothesis within
  | _ => exact List.forall_mem_nil _

/-- Where a template is embedded that is found, what is embedded in it is nested in the same way.
The chain of names gets one longer at its end. -/
theorem nested_deeper {library : Library} {nodes : List Node} {names : List String} {name : String}
    (nested : Nested library nodes (names ++ [name])) {template : Flattened}
    (found : library name = .ok template) {inner : String}
    (embedded : .embed inner ∈ Node.allOf template.nodes) :
    Nested library nodes (names ++ [name] ++ [inner]) := by
  refine ⟨?_, ?_⟩
  · rw [List.head?_append_of_ne_nil _ (by simp)]
    exact nested.first
  · refine nested.next.append (.singleton inner) ?_
    simp only [List.getLast?_concat, List.head?_cons, Option.mem_some_iff]
    rintro _ rfl _ rfl
    exact ⟨template, found, embedded⟩

variable {InOrder : σ → Prop} {library : Library} {entry : List Node}

/-- Wherever names are looked at, they are nested in each other, if those around the task are. The
induction is on the run, which also has to keep the shelf in order, since the templates that it
hands out are those of the library only then. -/
theorem events_nested (answers : shelf.Answers InOrder library)
    (runs : Runs shelf limit escaping task session events result after)
    (inOrder : InOrder session.shelf)
    (reach : ∀ name, .embed name ∈ task.all → Nested library entry (session.embedding ++ [name])) :
    InOrder after.shelf ∧ ∀ event ∈ events, Nested library entry event.names := by
  induction runs with
  | stops first inductionHypothesis =>
    exact inductionHypothesis inOrder fun name member => reach name (List.mem_append_left _ member)
  | goesOn first behind inFirst inBehind =>
    obtain ⟨still, early⟩ :=
      inFirst inOrder fun name member => reach name (List.mem_append_left _ member)
    obtain ⟨ordered, late⟩ := inBehind still fun name member =>
      runs_names first ▸ reach name (List.mem_append_right _ member)
    exact ⟨ordered, List.forall_mem_append.mpr ⟨early, late⟩⟩
  | loop found turns inductionHypothesis =>
    exact inductionHypothesis inOrder fun name member => reach name (List.mem_cons_of_mem _ member)
  | choice chosen inductionHypothesis =>
    exact inductionHypothesis inOrder fun name member => reach name (List.mem_cons_of_mem _ member)
  | block inside inductionHypothesis =>
    exact inductionHypothesis inOrder fun name member => reach name (List.mem_cons_of_mem _ member)
  | @refused name session full =>
    exact ⟨inOrder, List.forall_mem_singleton.mpr (reach name List.mem_cons_self)⟩
  | @missing name session fault state free answered =>
    -- The name is not there, so nothing is looked at; the shelf is in order all the same.
    have still := (answers name session.shelf inOrder).2
    rw [answered] at still
    exact ⟨still, List.forall_mem_nil _⟩
  | @embed name session after template state events result free answered inside
      inductionHypothesis =>
    -- The task changes here to the nodes of the template, so the premise is made anew: what they
    -- embed is nested in the name that is on top now.
    have here : Nested library entry (session.embedding ++ [name]) := reach name List.mem_cons_self
    obtain ⟨found, still⟩ := answers name session.shelf inOrder
    rw [answered] at found still
    obtain ⟨ordered, deeper⟩ := inductionHypothesis still fun inner embedded =>
      nested_deeper here found.symm embedded
    exact ⟨ordered, List.forall_mem_cons.mpr ⟨here, deeper⟩⟩
  | turnStops turn inductionHypothesis => exact inductionHypothesis inOrder reach
  | turn turn behind inTurn inBehind =>
    obtain ⟨still, early⟩ := inTurn inOrder reach
    have same := runs_names turn
    dsimp only at same
    obtain ⟨ordered, late⟩ := inBehind still fun name member => same ▸ reach name member
    exact ⟨ordered, List.forall_mem_append.mpr ⟨early, late⟩⟩
  | otherwise inside inductionHypothesis => exact inductionHypothesis inOrder reach
  | holds found truthy inside inductionHypothesis =>
    refine inductionHypothesis inOrder fun name member => reach name ?_
    exact List.mem_append_left _ (List.mem_append_left _ member)
  | fails found falsy behind inductionHypothesis =>
    refine inductionHypothesis inOrder fun name member => reach name ?_
    rcases List.mem_append.mp member with early | late
    · exact List.mem_append_left _ (List.mem_append_right _ early)
    · exact List.mem_append_right _ late
  | _ => exact ⟨inOrder, List.forall_mem_nil _⟩

end Events

/-- What a run tells about the limit: there are never more names than it allows; a refusal is the
result and gives names that are nested in each other, one more than are allowed; and there is none
where no names that are nested in each other are so many. -/
structure Bounded (library : Library) (limit : Nat) (nodes : List Node) (events : List Event)
    (result : Except Fault String) : Prop where
  room : ∀ names, .entered names ∈ events → names.length ≤ limit
  report : ∀ chain, .refused chain ∈ events →
    result = .error (.cycle chain) ∧ chain.length = limit + 1 ∧ Nested library nodes chain
  spared : (∀ names, Nested library nodes names → names.length ≤ limit) →
    ∀ chain, .refused chain ∉ events

/-- Every rendering comes to an end, however the templates of a registry embed each other: there is
a run of it, and whatever run there is leads to what the rendering gives and keeps to the limit. The
shelf may be one with a cache or without. -/
theorem embedding_comes_to_an_end {σ : Type} {registry : Registry} {depth : Nat} {shelf : Shelf σ}
    {InOrder : σ → Prop} (answers : shelf.Answers InOrder (Flattened.ofLeaf registry depth))
    (limit : Nat) (escaping : Bool) (nodes : List Node) (scope : Scope) {state : σ}
    (inOrder : InOrder state) :
    let session : Session σ := ⟨scope, [], state⟩
    let outcome := render shelf limit escaping nodes session
    (∃ events, Runs shelf limit escaping (.nodes nodes) session events outcome.1 outcome.2) ∧
      ∀ events result after,
        Runs shelf limit escaping (.nodes nodes) session events result after →
          outcome = (result, after) ∧
            Bounded (Flattened.ofLeaf registry depth) limit nodes events result := by
  intro session outcome
  refine ⟨run_of_render nodes session, fun events result after runs => ⟨runs_render runs, ?_⟩⟩
  have fit := events_fit runs (Nat.zero_le limit)
  have first (name : String) (member : .embed name ∈ Node.allOf nodes) :
      Nested (Flattened.ofLeaf registry depth) nodes [name] := by
    refine ⟨?_, .singleton name⟩
    rintro _ ⟨⟩
    exact member
  obtain ⟨-, nested⟩ := events_nested answers runs inOrder first
  refine ⟨fun names entered => fit _ entered, ?_, ?_⟩
  · intro chain refused
    exact ⟨refused_ends runs refused, fit _ refused, nested _ refused⟩
  · intro short chain refused
    have long : chain.length = limit + 1 := fit _ refused
    have allowed : chain.length ≤ limit := short chain (nested _ refused)
    omega

/-- A sheet with room for a body. -/
def blankTemplate : Template :=
  ⟨"blank", "\x7b% block body %\x7d\x7b% endblock %\x7d", [.block "body" []]⟩

/-- A tree is a sheet with a tree for each branch. -/
def treeTemplate : Template :=
  ⟨"tree", "\x7b% extends 'blank' %\x7d\x7b% block body %\x7d" ++
      "\x7b% for branch in branches %\x7d\x7b% include 'tree' %\x7d\x7b% endfor %\x7d" ++
      "\x7b% endblock %\x7d",
    [.inherits "blank", .block "body" [.loop "branch" (.variable "branches") [.embed "tree"]]]⟩

/-- A tree that embeds itself in a loop, in a block of the sheet that it inherits from. It would
never end, if the names were not counted. -/
theorem embedding_comes_to_an_end_tree :
    let registry : Registry :=
      ⟨[("blank", ⟨blankTemplate, 1⟩), ("tree", ⟨treeTemplate, 2⟩)], 2, false⟩
    let shelf := Store.shelf registry 2
    let nodes : List Node := [.text "roots ", .embed "tree"]
    let session : Session Unit := ⟨⟨[[("branches", .seq [.bool true])]]⟩, [], ()⟩
    let outcome := render shelf 2 true nodes session
    shelf.Answers (fun _ => True) (Flattened.ofLeaf registry 2) ∧
      outcome.1 = .error (.cycle ["tree", "tree", "tree"]) ∧
      (∃ events, Runs shelf 2 true (.nodes nodes) session events outcome.1 outcome.2) ∧
      ∀ events result after, Runs shelf 2 true (.nodes nodes) session events result after →
        outcome = (result, after) ∧
          Bounded (Flattened.ofLeaf registry 2) 2 nodes events result := by
  intro registry shelf nodes session outcome
  have failed : outcome.1 = .error (.cycle ["tree", "tree", "tree"]) := by
    simp only [outcome, shelf, registry, nodes, session]
    rw [Store.shelf_eq_inRounds]
    decide +kernel
  have answers := Store.shelf_answers registry 2
  exact ⟨answers, failed,
    embedding_comes_to_an_end answers 2 true nodes session.scope trivial⟩

end Rendering

end Stencil
