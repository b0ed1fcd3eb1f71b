import Stencil.Proofs.Phrases
import Stencil.Proofs.Pieces
import Stencil.Proofs.Wording

/-!
# What the text of nodes depends on

The value of an expression depends on the variables in it and on nothing else in the scope. So what
nodes say depends on the variables in their expressions and on what the templates say that they
embed, directly or through others. Two scopes may have any number of layers, as long as they agree
about those variables: the layers that loops put on come on top of both.

Which variables and which templates matter is left open here. It is enough that they are closed: a
template that matters has only variables that matter in it and embeds only templates that do.
-/

namespace Stencil

namespace Expr

mutual

/-- The variables in an expression, at any depth. The name of a part is none of them, since it is
looked up in a value and not in the scope. -/
def reads : Expr → List String
  | .text _ | .int _ | .float _ | .bool _ | .none => []
  | .variable name => [name]
  | .list items => readsOf items
  | .attribute of _ | .not of => reads of
  | .index of key => reads of ++ reads key
  | .binary _ left right => reads left ++ reads right
  | .filter of _ arguments => reads of ++ readsOf arguments

/-- The variables in a list of expressions. -/
def readsOf : List Expr → List String
  | [] => []
  | e :: rest => reads e ++ readsOf rest

end

/-- The variables in a list are those in its expressions. -/
theorem reads_of_eq_flatMap (items : List Expr) : readsOf items = items.flatMap reads := by
  induction items with
  | nil => rfl
  | cons e rest inductionHypothesis =>
    rw [readsOf, inductionHypothesis, List.flatMap_cons]

end Expr

/-- Two scopes agree about some of the variables. How many layers they have, and in which of them a
variable is bound, is left open. -/
def Scope.Agree (matters : String → Prop) (scope other : Scope) : Prop :=
  ∀ name, matters name → other.lookup name = scope.lookup name

namespace Scope

/-- What a layer on top binds hides what is below, and everything else is seen through it. -/
theorem lookup?_push (scope : Scope) (layer : Layer) (name : String) :
    (scope.push layer).lookup? name = (Dict.get? layer name).or (scope.lookup? name) := by
  rw [lookup?, push, List.findSome?_cons]
  cases Dict.get? layer name <;> rfl

/-- So it is where a name that is bound nowhere stands for a value as well. -/
theorem lookup_push (scope : Scope) (layer : Layer) (name : String) :
    (scope.push layer).lookup name = (Dict.get? layer name).getD (scope.lookup name) := by
  rw [lookup, lookup?_push]
  cases Dict.get? layer name <;> rfl

/-- A layer on top of both scopes keeps them in agreement. Where it binds a name both now have its
value. -/
theorem Agree.push {matters : String → Prop} {scope other : Scope}
    (agree : Agree matters scope other) (layer : Layer) :
    Agree matters (scope.push layer) (other.push layer) := by
  intro name counts
  rw [lookup_push, lookup_push, agree name counts]

end Scope

section Values

variable {scope other : Scope} (escaping : Bool)

/-- Expressions in a list have the same values in two scopes if each of them has. The first one that
fails is then the same as well, and fails in the same way. -/
theorem Expr.evalAll_agree {items : List Expr}
    (each : ∀ item ∈ items, item.eval escaping other = item.eval escaping scope) :
    Expr.evalAll escaping other items = Expr.evalAll escaping scope items := by
  induction items with
  | nil => rfl
  | cons e rest inductionHypothesis =>
    obtain ⟨here, later⟩ := List.forall_mem_cons.mp each
    rw [Expr.evalAll, Expr.evalAll, here, inductionHypothesis later]

/-- The value of an expression depends on the variables in it, and failures are the same as well.
The induction is on the expression. Each part has only some of the variables, so the premise is
handed down to the parts that are evaluated. -/
theorem Expr.eval_agree (e : Expr) (agree : scope.Agree (· ∈ e.reads) other) :
    e.eval escaping other = e.eval escaping scope := by
  have items {list : List Expr} (agree : scope.Agree (· ∈ readsOf list) other)
      (each : ∀ item ∈ list, scope.Agree (· ∈ item.reads) other →
        item.eval escaping other = item.eval escaping scope) :
      evalAll escaping other list = evalAll escaping scope list := by
    refine evalAll_agree escaping fun item member => each item member fun name found => ?_
    exact agree name (reads_of_eq_flatMap list ▸ List.mem_flatMap.mpr ⟨item, member, found⟩)
  have left {first second : List String} (agree : scope.Agree (· ∈ first ++ second) other) :
      scope.Agree (· ∈ first) other := fun name found => agree name (List.mem_append_left _ found)
  have right {first second : List String} (agree : scope.Agree (· ∈ first ++ second) other) :
      scope.Agree (· ∈ second) other := fun name found => agree name (List.mem_append_right _ found)
  induction e using expr_induction with
  | text s => rfl
  | int n => rfl
  | float x => rfl
  | bool b => rfl
  | none => rfl
  | list list each => rw [eval, eval, items agree each]
  | named name => exact congrArg Except.ok (agree name List.mem_cons_self)
  | part of name inner => rw [eval, eval, inner agree]
  | index of key inOperand inKey => rw [eval, eval, inOperand (left agree), inKey (right agree)]
  | not of inner => rw [eval, eval, inner agree]
  | binary op first second inFirst inSecond =>
    cases op <;> rw [eval, eval, inFirst (left agree), inSecond (right agree)]
  | filter of name arguments inOperand inArguments =>
    rw [eval, eval, inOperand (left agree), items (right agree) inArguments]

end Values

namespace Node

/-- A piece has nothing in it but variables and templates that matter. Which do is a parameter, so
that it can be chosen to be closed. -/
def Piece.Within (matters reaches : String → Prop) : Piece → Prop
  | .text _ => True
  | .expression e => ∀ name ∈ e.reads, matters name
  | .embedded template => reaches template

/-- The variables in the expressions of a body, at any depth. -/
def reads (nodes : List Node) : List String :=
  (pieces nodes).flatMap fun
    | .expression e => e.reads
    | .text _ | .embedded _ => []

end Node

section Speech

variable {matters reaches : String → Prop} {embed otherEmbed : Scope → String → Except Fault String}
  (escaping : Bool)

/-- The turns of a loop say the same if each does. The layers of the turns are the same on both
sides, since they do not depend on the scope. -/
theorem turns_agree {target : String} {count : Nat} {turn otherTurn : Scope → Except Fault String}
    (same : ∀ scope other, scope.Agree matters other → otherTurn other = turn scope)
    {scope other : Scope} (agree : scope.Agree matters other) (index : Nat) (items : List Value) :
    sayTurns target count otherTurn other index items =
      sayTurns target count turn scope index items := by
  induction items generalizing index with
  | nil => rfl
  | cons item rest inductionHypothesis =>
    rw [sayTurns, sayTurns, same _ _ (agree.push _), inductionHypothesis]

/-- A choice says the same if its conditions have the same values and its bodies say the same. The
induction is on the cases. -/
theorem cases_agree {otherwise : Except Fault String} {scope other : Scope}
    {cases : List (Expr × List Node)}
    (same : ∀ case ∈ cases, case.1.eval escaping other = case.1.eval escaping scope ∧
      sayBody otherEmbed escaping case.2 other = sayBody embed escaping case.2 scope) :
    sayCases otherEmbed escaping otherwise cases other =
      sayCases embed escaping otherwise cases scope := by
  induction cases with
  | nil => rfl
  | cons case rest inductionHypothesis =>
    obtain ⟨condition, body⟩ := case
    obtain ⟨⟨value, text⟩, later⟩ := List.forall_mem_cons.mp same
    rw [sayCases, sayCases, value, text, inductionHypothesis later]

/-- Nodes say the same if the variables in them and the templates they embed do. The induction is on
the nodes, with the bodies inside of them, and for all scopes at once, since a loop changes the
scope in the same way on both sides. -/
theorem body_agree
    (embedded : ∀ name, reaches name → ∀ scope there, scope.Agree matters there →
      otherEmbed there name = embed scope name)
    {nodes : List Node} (within : ∀ piece ∈ Node.pieces nodes, piece.Within matters reaches)
    {scope there : Scope} (agree : scope.Agree matters there) :
    sayBody otherEmbed escaping nodes there = sayBody embed escaping nodes scope := by
  have value {e : Expr} {scope there : Scope} (within : ∀ name ∈ e.reads, matters name)
      (agree : scope.Agree matters there) : e.eval escaping there = e.eval escaping scope :=
    e.eval_agree escaping fun name found => agree name (within name found)
  induction nodes using Node.body_induction generalizing scope there with
  | nil => rfl
  | text s rest behind =>
    rw [Node.pieces_text, List.forall_mem_cons] at within
    rw [sayBody, sayBody, behind within.2 agree]
    rfl
  | output e rest behind =>
    rw [Node.pieces_output, List.forall_mem_cons] at within
    rw [sayBody, sayBody, sayNode, sayNode, value within.1 agree, behind within.2 agree]
  | loop target sequence body rest inner behind =>
    rw [Node.pieces_loop, List.forall_mem_cons, List.forall_mem_append] at within
    obtain ⟨inSequence, inBody, inRest⟩ := within
    -- In each turn both scopes get the same layer, so they agree about what they agreed about.
    have turns (count : Nat) (items : List Value) :
        sayTurns target count (sayBody otherEmbed escaping body) there 0 items =
          sayTurns target count (sayBody embed escaping body) scope 0 items :=
      turns_agree (fun _ _ agree => inner inBody agree) agree 0 items
    rw [sayBody, sayBody, sayNode, sayNode, value inSequence agree, behind inRest agree]
    simp only [turns]
  | choice cases otherwise rest inCases inOther behind =>
    rw [Node.pieces_choice, List.forall_mem_append, List.forall_mem_append,
      List.forall_mem_append] at within
    obtain ⟨conditions, ⟨bodies, last⟩, inRest⟩ := within
    have inOtherwise : sayOption otherEmbed escaping otherwise there =
        sayOption embed escaping otherwise scope := by
      cases otherwise with
      | none => rfl
      | some body => exact inOther body rfl (by simpa using last) agree
    have each : ∀ case ∈ cases, case.1.eval escaping there = case.1.eval escaping scope ∧
        sayBody otherEmbed escaping case.2 there = sayBody embed escaping case.2 scope := by
      intro case member
      have inBody : ∀ piece ∈ Node.pieces case.2, piece.Within matters reaches :=
        fun piece found => bodies piece (List.mem_flatMap.mpr ⟨case, member, found⟩)
      exact ⟨value (conditions _ (List.mem_map_of_mem member)) agree,
        inCases case member inBody agree⟩
    rw [sayBody, sayBody, sayNode, sayNode, inOtherwise, cases_agree escaping each,
      behind inRest agree]
  | block name body rest inner behind =>
    rw [Node.pieces_block, List.forall_mem_append] at within
    rw [sayBody, sayBody, sayNode, sayNode, inner within.1 agree, behind within.2 agree]
  | inherits parent rest behind =>
    rw [Node.pieces_inherits] at within
    rw [sayBody, sayBody, behind within agree]
    rfl
  | embed template rest behind =>
    rw [Node.pieces_embed, List.forall_mem_cons] at within
    rw [sayBody, sayBody, sayNode, sayNode, embedded template within.1 _ _ agree,
      behind within.2 agree]

/-- Two libraries hold the same nodes, or the same fault, under every name that matters, and nothing
in those nodes leads to others. -/
structure Library.Agree (matters reaches : String → Prop) (library other : Library) : Prop where
  same : ∀ name, reaches name →
    (other name).map Flattened.nodes = (library name).map Flattened.nodes
  closed : ∀ name template, reaches name → library name = .ok template →
    ∀ piece ∈ Node.pieces template.nodes, piece.Within matters reaches

variable {library other : Library}

/-- What follows a template that is looked up is the same if it is the same for its nodes. The name
and the lineage of the template may differ, since only nodes are said. -/
theorem Library.Agree.bind (libraries : library.Agree matters reaches other) {name : String}
    (reached : reaches name) {speech otherSpeech : List Node → Except Fault String}
    (same : ∀ nodes, (∀ piece ∈ Node.pieces nodes, piece.Within matters reaches) →
      otherSpeech nodes = speech nodes) :
    (do otherSpeech (← other name).nodes) = (do speech (← library name).nodes) := by
  have nodes := libraries.same name reached
  cases found : library name with
  | error fault =>
    cases foundThere : other name with
    | error otherFault =>
      rw [found, foundThere] at nodes
      cases nodes
      rfl
    | ok otherTemplate =>
      rw [found, foundThere] at nodes
      cases nodes
  | ok template =>
    cases foundThere : other name with
    | error otherFault =>
      rw [found, foundThere] at nodes
      cases nodes
    | ok otherTemplate =>
      rw [found, foundThere] at nodes
      have equal : otherTemplate.nodes = template.nodes := Except.ok.inj nodes
      show otherSpeech otherTemplate.nodes = speech template.nodes
      rw [equal]
      exact same template.nodes (libraries.closed name template reached found)

/-- Embedded templates say the same if their nodes are the same. The induction is on the allowance
of embedding, and that what matters is closed takes it from a template to those that it embeds. -/
theorem embedded_agree (libraries : library.Agree matters reaches other) (allowance : Nat)
    (around : List String) {name : String} (reached : reaches name) {scope otherScope : Scope}
    (agree : scope.Agree matters otherScope) :
    sayEmbedded other escaping allowance around otherScope name =
      sayEmbedded library escaping allowance around scope name := by
  induction allowance generalizing around name scope otherScope with
  | zero => rfl
  | succ allowance inductionHypothesis =>
    have inside : ∀ inner, reaches inner → ∀ scope there, scope.Agree matters there →
        sayEmbedded other escaping allowance (around ++ [name]) there inner =
          sayEmbedded library escaping allowance (around ++ [name]) scope inner :=
      fun _ reached _ _ agree => inductionHypothesis _ reached agree
    exact libraries.bind reached fun _ within => body_agree escaping inside within agree

/-- So nodes say the same in scopes that agree, with libraries that agree. The premise `within` says
that the nodes read and embed nothing but what the two agree on. -/
theorem say_agree (libraries : library.Agree matters reaches other) (limit : Nat)
    (around : List String) {nodes : List Node}
    (within : ∀ piece ∈ Node.pieces nodes, piece.Within matters reaches)
    {scope otherScope : Scope} (agree : scope.Agree matters otherScope) :
    say other limit escaping around nodes otherScope =
      say library limit escaping around nodes scope :=
  body_agree escaping
    (fun _ reached _ _ agree => embedded_agree escaping libraries _ around reached agree) within
    agree

/-- So a template that is looked up says the same. -/
theorem spoken_agree (libraries : library.Agree matters reaches other) (limit : Nat)
    (around : List String) {name : String} (reached : reaches name) {scope otherScope : Scope}
    (agree : scope.Agree matters otherScope) :
    (do say other limit escaping around (← other name).nodes otherScope) =
      (do say library limit escaping around (← library name).nodes scope) :=
  libraries.bind reached fun _ within => say_agree escaping libraries limit around within agree

end Speech

end Stencil
