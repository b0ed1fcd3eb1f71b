import Mathlib.Data.List.Basic
import Stencil.Proofs.Flattening

/-!
# Flattening as it goes

Flattening is told here step by step, on a stack of the blocks that it is inside of: a name is put
on it in front of the content of a block and taken off behind it, and nothing else looks after the
stack. A run also gives an account of what is made. Each node of the result comes with the node
that it was made from, with the parts inside of it, and with whether the override of its name was
put in.

Runs are finite, so that to have one is to come to an end. There is one for any overrides, those
included whose bodies hold blocks of their own name or of each other: an override is put in only
where its name is not on the stack, which leaves fewer names, and everywhere else what is left gets
smaller.
-/

namespace Stencil

/-- The nodes right inside a node. Those of a choice come case by case, and those of its last body
behind them. -/
def Node.children : Node → List Node
  | .loop _ _ body | .block _ body => body
  | .choice cases otherwise => cases.flatMap Prod.snd ++ otherwise.getD []
  | .text _ | .output _ | .inherits _ | .embed _ => []

/-- The ways down from a forest: each one goes on inside the one before it, as far as one likes.
What is inside is a parameter, so that ways down nodes and ways down accounts of them are one
notion. -/
inductive Descends {α : Type} (inside : α → List α) : List α → List α → Prop
  | stop (forest : List α) : Descends inside forest []
  | enter {forest rest : List α} {a : α} (member : a ∈ forest)
      (further : Descends inside (inside a) rest) : Descends inside forest (a :: rest)

namespace Overrides

/-- A node that was made, with an account of it. Parts nest as the nodes do that were made, so that
any place in the result has the parts on the way to it. -/
inductive Part where
  /-- What it was made from, what was made, whether an override was put in, and the parts inside
  of it. -/
  | mk (source result : Node) (taken : Bool) (inside : List Part)

namespace Part

/-- The node that stood there. -/
def source : Part → Node
  | .mk source _ _ _ => source

/-- The node that stands there now. -/
def result : Part → Node
  | .mk _ result _ _ => result

/-- Whether the override of its name was put in. -/
def taken : Part → Bool
  | .mk _ _ taken _ => taken

/-- The parts inside of it. -/
def inside : Part → List Part
  | .mk _ _ _ inside => inside

/-- A block of a name. What was made is asked, which has the name of what it was made from, whether
an override was put in or not. -/
def IsBlock (name : String) (part : Part) : Prop := ∃ body, part.result = .block name body

/-- Whether the override of this name was put in. It can be decided, so that the parts of a way that
take a name can be counted. -/
def takes (name : String) : Part → Bool
  | .mk _ (.block other _) taken _ => taken && other == name
  | _ => false

end Part

section Runs

variable (overrides : Overrides)

mutual

/-- A node is flattened on a stack: the part that is made, and the stack afterwards. A block has two
rules, one that puts the override in and one that keeps what is written, and their premises exclude
each other. -/
inductive SubstitutesNode : List String → Node → Part → List String → Prop
  | text (stack : List String) (s : String) :
      SubstitutesNode stack (.text s) (.mk (.text s) (.text s) false []) stack
  | output (stack : List String) (e : Expr) :
      SubstitutesNode stack (.output e) (.mk (.output e) (.output e) false []) stack
  | loop {stack after : List String} {target : String} {sequence : Expr} {body : List Node}
      {inside : List Part} (inner : Substitutes stack body inside after) :
      SubstitutesNode stack (.loop target sequence body)
        (.mk (.loop target sequence body) (.loop target sequence (inside.map Part.result)) false
          inside) after
  | choice {stack between after : List String} {cases : List (Expr × List Node)}
      {otherwise : Option (List Node)} {insideCases : List (Expr × List Part)}
      {insideOther : Option (List Part)}
      (inCases : SubstitutesCases stack cases insideCases between)
      (inOther : SubstitutesOption between otherwise insideOther after) :
      SubstitutesNode stack (.choice cases otherwise)
        (.mk (.choice cases otherwise)
          (.choice (insideCases.map fun case => (case.1, case.2.map Part.result))
            (insideOther.map (List.map Part.result))) false
          (insideCases.flatMap Prod.snd ++ insideOther.getD [])) after
  /-- The override is put in. -/
  | override {stack after : List String} {name : String} {body override : List Node}
      {inside : List Part} (fresh : name ∉ stack) (counts : overrides.body? name = some override)
      (inner : Substitutes (name :: stack) override inside after) :
      SubstitutesNode stack (.block name body)
        (.mk (.block name body) (.block name (inside.map Part.result)) true inside) after.tail
  /-- Inside a block of its name a block keeps its content. -/
  | again {stack after : List String} {name : String} {body : List Node} {inside : List Part}
      (around : name ∈ stack) (inner : Substitutes (name :: stack) body inside after) :
      SubstitutesNode stack (.block name body)
        (.mk (.block name body) (.block name (inside.map Part.result)) false inside) after.tail
  /-- So does a block for whose name no body counts. -/
  | alone {stack after : List String} {name : String} {body : List Node} {inside : List Part}
      (fresh : name ∉ stack) (absent : overrides.body? name = none)
      (inner : Substitutes (name :: stack) body inside after) :
      SubstitutesNode stack (.block name body)
        (.mk (.block name body) (.block name (inside.map Part.result)) false inside) after.tail
  | inherits (stack : List String) (parent : String) :
      SubstitutesNode stack (.inherits parent) (.mk (.inherits parent) (.inherits parent) false [])
        stack
  | embed (stack : List String) (template : String) :
      SubstitutesNode stack (.embed template) (.mk (.embed template) (.embed template) false [])
        stack

/-- Nodes are flattened one behind the other, each on the stack that the one before it left. That it
is the same stack again is a theorem about these runs and not built into them. -/
inductive Substitutes : List String → List Node → List Part → List String → Prop
  | nil (stack : List String) : Substitutes stack [] [] stack
  | cons {stack between after : List String} {node : Node} {rest : List Node} {part : Part}
      {parts : List Part} (first : SubstitutesNode stack node part between)
      (behind : Substitutes between rest parts after) :
      Substitutes stack (node :: rest) (part :: parts) after

/-- The bodies of cases are flattened one behind the other, and their conditions stay. The stack is
handed on from case to case, as from node to node. -/
inductive SubstitutesCases :
    List String → List (Expr × List Node) → List (Expr × List Part) → List String → Prop
  | nil (stack : List String) : SubstitutesCases stack [] [] stack
  | cons {stack between after : List String} (condition : Expr) {body : List Node}
      {inside : List Part} {rest : List (Expr × List Node)} {insideRest : List (Expr × List Part)}
      (first : Substitutes stack body inside between)
      (behind : SubstitutesCases between rest insideRest after) :
      SubstitutesCases stack ((condition, body) :: rest) ((condition, inside) :: insideRest) after

/-- A body that may be absent is flattened if it is there, and leaves the stack alone if it is
not. -/
inductive SubstitutesOption :
    List String → Option (List Node) → Option (List Part) → List String → Prop
  | none (stack : List String) : SubstitutesOption stack none none stack
  | some {stack after : List String} {body : List Node} {inside : List Part}
      (inner : Substitutes stack body inside after) :
      SubstitutesOption stack (some body) (some inside) after

end

end Runs

section Uniqueness

variable {overrides : Overrides}

mutual

/-- A node can be flattened in one way only, and leaves one stack only. Every kind of node has one
rule, up to blocks, and there the premises tell the two apart. -/
theorem substitutes_node_unique {stack after later : List String} {node : Node}
    {part other : Part} :
    SubstitutesNode overrides stack node part after →
      SubstitutesNode overrides stack node other later → part = other ∧ after = later
  | .text .., .text .. | .output .., .output .. | .inherits .., .inherits ..
  | .embed .., .embed .. => ⟨rfl, rfl⟩
  | .loop inner, .loop second => by
    obtain ⟨rfl, rfl⟩ := substitutes_unique inner second
    exact ⟨rfl, rfl⟩
  | .choice inCases inOther, .choice secondCases secondOther => by
    obtain ⟨rfl, rfl⟩ := substitutes_cases_unique inCases secondCases
    obtain ⟨rfl, rfl⟩ := substitutes_option_unique inOther secondOther
    exact ⟨rfl, rfl⟩
  | .override _ counts inner, .override _ counted second => by
    obtain rfl := Option.some.inj (counts.symm.trans counted)
    obtain ⟨rfl, rfl⟩ := substitutes_unique inner second
    exact ⟨rfl, rfl⟩
  | .again _ inner, .again _ second | .alone _ _ inner, .alone _ _ second => by
    obtain ⟨rfl, rfl⟩ := substitutes_unique inner second
    exact ⟨rfl, rfl⟩
  | .override fresh _ _, .again around _ | .again around _, .override fresh _ _
  | .again around _, .alone fresh _ _ | .alone fresh _ _, .again around _ => absurd around fresh
  | .override _ counts _, .alone _ absent _ | .alone _ absent _, .override _ counts _ =>
    nomatch counts.symm.trans absent
termination_by structural run => run

/-- So it is with nodes one behind the other: the first of them leaves one stack, on which the
others are flattened. -/
theorem substitutes_unique {stack after later : List String} {nodes : List Node}
    {parts others : List Part} : Substitutes overrides stack nodes parts after →
      Substitutes overrides stack nodes others later → parts = others ∧ after = later
  | .nil _, .nil _ => ⟨rfl, rfl⟩
  | .cons first behind, .cons second further => by
    obtain ⟨rfl, rfl⟩ := substitutes_node_unique first second
    obtain ⟨rfl, rfl⟩ := substitutes_unique behind further
    exact ⟨rfl, rfl⟩
termination_by structural run => run

/-- So it is with the bodies of cases. Conditions are not touched, so they are the same in both runs
to begin with. -/
theorem substitutes_cases_unique {stack after later : List String}
    {cases : List (Expr × List Node)} {inside others : List (Expr × List Part)} :
    SubstitutesCases overrides stack cases inside after →
      SubstitutesCases overrides stack cases others later → inside = others ∧ after = later
  | .nil _, .nil _ => ⟨rfl, rfl⟩
  | .cons _ first behind, .cons _ second further => by
    obtain ⟨rfl, rfl⟩ := substitutes_unique first second
    obtain ⟨rfl, rfl⟩ := substitutes_cases_unique behind further
    exact ⟨rfl, rfl⟩
termination_by structural run => run

/-- And with a body that may be absent. Where it is absent, it is so in both runs. -/
theorem substitutes_option_unique {stack after later : List String}
    {otherwise : Option (List Node)} {inside other : Option (List Part)} :
    SubstitutesOption overrides stack otherwise inside after →
      SubstitutesOption overrides stack otherwise other later → inside = other ∧ after = later
  | .none _, .none _ => ⟨rfl, rfl⟩
  | .some inner, .some second => by
    obtain ⟨rfl, rfl⟩ := substitutes_unique inner second
    exact ⟨rfl, rfl⟩
termination_by structural run => run

end

end Uniqueness

section Ways

variable {α : Type} {inside : α → List α} {forest way : List α}

/-- A way that does not stop at once begins with one of the forest and goes on inside of it. -/
theorem descends_cons {a : α} : Descends inside forest (a :: way) ↔
    a ∈ forest ∧ Descends inside (inside a) way :=
  ⟨fun | .enter member further => ⟨member, further⟩, fun ⟨member, further⟩ => .enter member further⟩

/-- Where a map keeps what is inside, the ways down from the images are the images of the ways. It
has to keep it only for what can be reached, so the premise speaks of ways as well. -/
theorem descends_map {β : Type} {f : α → β} {insideOf : β → List β}
    (keeps : ∀ way, Descends inside forest way → ∀ a ∈ way, insideOf (f a) = (inside a).map f)
    (image : List β) : Descends insideOf (forest.map f) image ↔
      ∃ way, Descends inside forest way ∧ way.map f = image := by
  induction image generalizing forest with
  | nil => exact iff_of_true (.stop _) ⟨[], .stop _, rfl⟩
  | cons b rest inductionHypothesis =>
    have deeper {a : α} (member : a ∈ forest) : Descends insideOf (insideOf (f a)) rest ↔
        ∃ way, Descends inside (inside a) way ∧ way.map f = rest := by
      rw [keeps [a] (.enter member (.stop _)) a List.mem_cons_self]
      refine inductionHypothesis fun way further other onWay => ?_
      exact keeps (a :: way) (.enter member further) other (List.mem_cons_of_mem a onWay)
    rw [descends_cons]
    constructor
    · rintro ⟨member, further⟩
      obtain ⟨a, held, rfl⟩ := List.mem_map.mp member
      obtain ⟨way, down, rfl⟩ := (deeper held).mp further
      exact ⟨a :: way, .enter held down, rfl⟩
    · rintro ⟨way, down, same⟩
      obtain ⟨a, others, rfl, rfl, rfl⟩ := List.map_eq_cons_iff.mp same
      obtain ⟨member, further⟩ := descends_cons.mp down
      exact ⟨List.mem_map_of_mem member, (deeper member).mpr ⟨others, further, rfl⟩⟩

end Ways

/-- On a way down, inside blocks of the names on the stack: the override of a name is put in at most
once, and not at all for a name on the stack. A block further down inside a block of its name keeps
its content, which is made from what is written at its place; wherever an override is put in the
content is made from the override. The stack is a part of the statement, since what a way may do
further down depends on where it has been. -/
structure Sparing (overrides : Overrides) (stack : List String) (way : List Part) : Prop where
  once : ∀ name, way.countP (Part.takes name) ≤ 1
  free : ∀ name ∈ stack, way.countP (Part.takes name) = 0
  again : way.Pairwise fun outer inner =>
    ∀ name, outer.IsBlock name → inner.IsBlock name → inner.taken = false
  content : ∀ part ∈ way, ∀ name, part.IsBlock name →
    ∃ written, part.source = .block name written ∧
      if part.taken then overrides.body? name = some (part.inside.map Part.source)
      else part.inside.map Part.source = written

section Steps

variable {overrides : Overrides} {stack : List String} {way : List Part}

/-- A way that stops at once puts nothing in. -/
theorem sparing_nil : Sparing overrides stack [] where
  once := fun _ => Nat.zero_le 1
  free := fun _ _ => rfl
  again := .nil
  content := List.forall_mem_nil _

/-- A part whose result is no block is not a block of any name. -/
theorem not_isBlock {part : Part} (plain : part.result.block? = none) (name : String) :
    ¬part.IsBlock name := by
  rintro ⟨body, same⟩
  rw [same] at plain
  cases plain

/-- A part that is no block takes nothing, so it does not count for any name. -/
theorem takes_of_plain {part : Part} (plain : ∀ name, ¬part.IsBlock name) (name : String) :
    part.takes name = false := by
  obtain ⟨source, result, taken, inside⟩ := part
  cases result with
  | block other body => exact absurd ⟨body, rfl⟩ (plain other)
  | _ => rfl

/-- A way may go through a part that is no block. Nothing is counted there, and the stack stays as
it is. -/
theorem Sparing.through {part : Part} (plain : ∀ name, ¬part.IsBlock name)
    (further : Sparing overrides stack way) : Sparing overrides stack (part :: way) where
  once := fun name => by
    rw [List.countP_cons_of_neg (by simp [takes_of_plain plain])]
    exact further.once name
  free := fun name member => by
    rw [List.countP_cons_of_neg (by simp [takes_of_plain plain])]
    exact further.free name member
  again := List.pairwise_cons.mpr ⟨fun _ _ name block => absurd block (plain name), further.again⟩
  content := List.forall_mem_cons.mpr
    ⟨fun name block => absurd block (plain name), further.content⟩

/-- A part takes a name exactly if it is a block of the name and was made from the override. -/
theorem takes_iff {name : String} {part : Part} :
    part.takes name = true ↔ part.IsBlock name ∧ part.taken = true := by
  obtain ⟨source, result, taken, inside⟩ := part
  cases result with
  | block other body =>
    simp [Part.takes, Part.IsBlock, Part.result, Part.taken, and_comm]
  | _ => simp [Part.takes, Part.IsBlock, Part.result]

/-- A way may go into a block, where its name is on the stack. If the override of the name is put in
its name has been free before; further down it is not put in again, since there the name is on the
stack. -/
theorem Sparing.enter {name : String} {written made : List Node} {taken : Bool} {inside : List Part}
    (fresh : taken = true → name ∉ stack)
    (account : if taken then overrides.body? name = some (inside.map Part.source)
      else inside.map Part.source = written)
    (further : Sparing overrides (name :: stack) way) :
    Sparing overrides stack (.mk (.block name written) (.block name made) taken inside :: way) := by
  have spent (other : String) : (Part.mk (.block name written) (.block name made) taken
      inside).takes other = true ↔ taken = true ∧ name = other := by
    simp [Part.takes]
  have none := further.free name List.mem_cons_self
  refine ⟨fun other => ?_, fun other member => ?_, ?_, ?_⟩
  · rw [List.countP_cons]
    split
    · next here =>
      obtain ⟨-, rfl⟩ := (spent other).mp here
      rw [none]
    · exact further.once other
  · rw [List.countP_cons_of_neg, further.free other (List.mem_cons_of_mem name member)]
    intro here
    obtain ⟨put, rfl⟩ := (spent other).mp here
    exact fresh put member
  · refine List.pairwise_cons.mpr ⟨fun inner member other outermost block => ?_, further.again⟩
    obtain ⟨body, same⟩ := outermost
    obtain ⟨rfl, -⟩ := Node.block.inj same
    rw [List.countP_eq_zero] at none
    exact Bool.eq_false_iff.mpr fun put => none inner member (takes_iff.mpr ⟨block, put⟩)
  · refine List.forall_mem_cons.mpr ⟨?_, further.content⟩
    rintro other ⟨body, same⟩
    obtain ⟨rfl, -⟩ := Node.block.inj same
    exact ⟨written, rfl, account⟩

end Steps

/-- Parts that account for flattening nodes: there is a run that makes them and leaves the stack as
it was; they are made from the nodes and make up the result; what is inside a part is what the part
made has inside; and no way down puts in too many overrides. All of this is shown by one induction,
since each of it is needed to go into a block. -/
structure Accounts (overrides : Overrides) (stack : List String) (nodes : List Node)
    (parts : List Part) : Prop where
  runs : Substitutes overrides stack nodes parts stack
  sources : parts.map Part.source = nodes
  results : parts.map Part.result = overrides.flatten stack nodes
  keeps : ∀ way, Descends Part.inside parts way →
    ∀ part ∈ way, part.result.children = part.inside.map Part.result
  sparing : ∀ way, Descends Part.inside parts way → Sparing overrides stack way

section Accounts

variable {overrides : Overrides} {stack : List String}

/-- Where there are no nodes, no parts account for them. The stack stays as it is, and there is no
way into the parts to be told of. -/
theorem accounts_nil (overrides : Overrides) (stack : List String) :
    Accounts overrides stack [] [] where
  runs := .nil stack
  sources := rfl
  results := (flatten_nil ..).symm
  keeps := by
    rintro way (_ | ⟨member, _⟩)
    · exact List.forall_mem_nil _
    · cases member
  sparing := by
    rintro way (_ | ⟨member, _⟩)
    · exact sparing_nil
    · cases member

/-- One part more. The ways down begin with it or stay behind it. What is said of its inside is
assumed of the ways there, so that the lemma serves every kind of node. -/
theorem accounts_cons {node : Node} {rest : List Node} {part : Part} {parts : List Part}
    (run : SubstitutesNode overrides stack node part stack) (made : part.source = node)
    (result : overrides.flatten stack (node :: rest) =
      part.result :: overrides.flatten stack rest)
    (children : part.result.children = part.inside.map Part.result)
    (keeps : ∀ way, Descends Part.inside part.inside way →
      ∀ inner ∈ way, inner.result.children = inner.inside.map Part.result)
    (sparing : ∀ way, Descends Part.inside part.inside way → Sparing overrides stack (part :: way))
    (behind : Accounts overrides stack rest parts) :
    Accounts overrides stack (node :: rest) (part :: parts) where
  runs := .cons run behind.runs
  sources := by rw [List.map_cons, made, behind.sources]
  results := by rw [List.map_cons, behind.results, result]
  keeps := by
    rintro way (_ | ⟨member, further⟩)
    · exact List.forall_mem_nil _
    · rcases List.mem_cons.mp member with rfl | later
      · exact List.forall_mem_cons.mpr ⟨children, keeps _ further⟩
      · exact behind.keeps _ (.enter later further)
  sparing := by
    rintro way (_ | ⟨member, further⟩)
    · exact sparing_nil
    · rcases List.mem_cons.mp member with rfl | later
      · exact sparing _ further
      · exact behind.sparing _ (.enter later further)

/-- A leaf stays as it is. Its account has nothing inside, so every way that goes through it stops
there. -/
theorem accounts_leaf {node : Node} {rest : List Node} {parts : List Part}
    (run : SubstitutesNode overrides stack node (.mk node node false []) stack)
    (result : overrides.flatten stack (node :: rest) = node :: overrides.flatten stack rest)
    (childless : node.children = []) (plain : node.block? = none)
    (behind : Accounts overrides stack rest parts) :
    Accounts overrides stack (node :: rest) (.mk node node false [] :: parts) := by
  refine accounts_cons run rfl result childless (accounts_nil overrides stack).keeps ?_ behind
  intro way further
  exact ((accounts_nil overrides stack).sparing way further).through (not_isBlock plain)

/-- The content of a block is accounted for on the stack with its name on it. Whether the content is
the override or what is written, the rest of the argument is the same; `fresh` and `account` say
which of them it is. -/
theorem accounts_block {name : String} {body content rest : List Node} {taken : Bool}
    {inside parts : List Part} (inner : Accounts overrides (name :: stack) content inside)
    (chosen : overrides.chosen stack name body = content)
    (run : SubstitutesNode overrides stack (.block name body)
      (.mk (.block name body) (.block name (inside.map Part.result)) taken inside) stack)
    (fresh : taken = true → name ∉ stack)
    (account : if taken then overrides.body? name = some content else content = body)
    (behind : Accounts overrides stack rest parts) :
    ∃ parts, Accounts overrides stack (.block name body :: rest) parts := by
  refine ⟨_, accounts_cons run rfl ?_ rfl inner.keeps (fun way further => ?_) behind⟩
  · rw [flatten_block, chosen, ← inner.results]
    rfl
  · refine (inner.sparing way further).enter fresh ?_
    rw [inner.sources]
    exact account

/-- Cases are accounted for one by one. Every case leaves the stack as it was, so the next one
begins with the same stack. The induction is on the cases. -/
theorem accounts_cases (overrides : Overrides) (stack : List String)
    {cases : List (Expr × List Node)}
    (each : ∀ case ∈ cases, ∃ inside, Accounts overrides stack case.2 inside) :
    ∃ insideCases, SubstitutesCases overrides stack cases insideCases stack ∧
      (insideCases.map fun case => (case.1, case.2.map Part.result)) =
        cases.map (fun case => (case.1, overrides.flatten stack case.2)) ∧
      ∀ case ∈ insideCases, ∃ body, Accounts overrides stack body case.2 := by
  induction cases with
  | nil => exact ⟨[], .nil stack, rfl, List.forall_mem_nil _⟩
  | cons case rest inductionHypothesis =>
    obtain ⟨condition, body⟩ := case
    obtain ⟨⟨inside, accounts⟩, others⟩ := List.forall_mem_cons.mp each
    obtain ⟨insideRest, runs, results, accountsRest⟩ := inductionHypothesis others
    refine ⟨(condition, inside) :: insideRest, .cons condition accounts.runs runs, ?_,
      List.forall_mem_cons.mpr ⟨⟨body, accounts⟩, accountsRest⟩⟩
    rw [List.map_cons, List.map_cons, results, accounts.results]

/-- A body that may be absent is accounted for if it is there. The premise is what the induction
over nodes has for a body. -/
theorem accounts_option (overrides : Overrides) (stack : List String)
    {otherwise : Option (List Node)}
    (present : ∀ body ∈ otherwise, ∃ inside, Accounts overrides stack body inside) :
    ∃ insideOther, SubstitutesOption overrides stack otherwise insideOther stack ∧
      insideOther.map (List.map Part.result) = otherwise.map (overrides.flatten stack) ∧
      ∀ inside ∈ insideOther, ∃ body, Accounts overrides stack body inside := by
  cases otherwise with
  | none => exact ⟨none, .none stack, rfl, nofun⟩
  | some body =>
    obtain ⟨inside, accounts⟩ := present body rfl
    refine ⟨some inside, .some accounts.runs, congrArg some accounts.results, ?_⟩
    rintro _ ⟨⟩
    exact ⟨body, accounts⟩

/-- A way into a choice goes into one of its bodies. So what holds of the ways down each body holds
of the ways down the choice. A way that goes nowhere is a way into a body without parts. -/
theorem descends_choice {overrides : Overrides} {stack : List String}
    {insideCases : List (Expr × List Part)} {insideOther : Option (List Part)}
    (within : ∀ case ∈ insideCases, ∃ body, Accounts overrides stack body case.2)
    (withinOther : ∀ inside ∈ insideOther, ∃ body, Accounts overrides stack body inside)
    {P : List Part → Prop}
    (holds : ∀ body inside, Accounts overrides stack body inside → ∀ way,
      Descends Part.inside inside way → P way)
    {way : List Part}
    (further : Descends Part.inside
      (insideCases.flatMap Prod.snd ++ insideOther.getD []) way) : P way := by
  rcases further with _ | ⟨member, deeper⟩
  · exact holds [] [] (accounts_nil overrides stack) [] (.stop [])
  · rcases List.mem_append.mp member with early | late
    · obtain ⟨case, held, inCase⟩ := List.mem_flatMap.mp early
      obtain ⟨body, accounts⟩ := within case held
      exact holds body case.2 accounts _ (.enter inCase deeper)
    · cases insideOther with
      | none => cases late
      | some inside =>
        obtain ⟨body, accounts⟩ := withinOther inside rfl
        exact holds body inside accounts _ (.enter late deeper)

end Accounts

/-- All nodes can be accounted for, whatever the overrides and the stack are. This is the induction
along flattening: at a block its hypothesis is about the chosen body on the stack with the name on
it, which is where the content of the block is flattened. -/
theorem exists_accounts (overrides : Overrides) (stack : List String) (nodes : List Node) :
    ∃ parts, Accounts overrides stack nodes parts := by
  induction stack, nodes using flatten_induction overrides with
  | nil stack => exact ⟨[], accounts_nil overrides stack⟩
  | text stack s rest later =>
    obtain ⟨parts, behind⟩ := later
    exact ⟨_, accounts_leaf (.text stack s) (flatten_text ..) rfl rfl behind⟩
  | output stack e rest later =>
    obtain ⟨parts, behind⟩ := later
    exact ⟨_, accounts_leaf (.output stack e) (flatten_output ..) rfl rfl behind⟩
  | loop stack target sequence body rest inner later =>
    obtain ⟨inside, within⟩ := inner
    obtain ⟨parts, behind⟩ := later
    refine ⟨_, accounts_cons (.loop within.runs) rfl ?_ rfl within.keeps ?_ behind⟩
    · rw [flatten_loop, ← within.results]
      rfl
    · exact fun way further => (within.sparing way further).through (not_isBlock rfl)
  | choice stack cases otherwise rest inCases inOther later =>
    obtain ⟨insideCases, runs, results, within⟩ := accounts_cases overrides stack inCases
    obtain ⟨insideOther, runsOther, resultsOther, withinOther⟩ :=
      accounts_option overrides stack inOther
    obtain ⟨parts, behind⟩ := later
    refine ⟨_, accounts_cons (.choice runs runsOther) rfl ?_ ?_ ?_ ?_ behind⟩
    · rw [flatten_choice, ← results, ← resultsOther]
      rfl
    · show (insideCases.map _).flatMap Prod.snd ++ (insideOther.map _).getD [] = _
      cases insideOther <;> simp [Part.inside, List.flatMap_map, List.map_flatMap]
    · intro way further
      exact descends_choice within withinOther (fun _ _ accounts => accounts.keeps) further
    · intro way further
      have spared :=
        descends_choice within withinOther (fun _ _ accounts => accounts.sparing) further
      exact spared.through (not_isBlock rfl)
  | block stack name body rest inner later =>
    obtain ⟨inside, within⟩ := inner
    obtain ⟨parts, behind⟩ := later
    -- There are three ways to choose the body: the block's own one inside a block of that name, the
    -- block's own one because nothing overrides it, and the one that overrides it.
    by_cases around : name ∈ stack
    · have chosen : overrides.chosen stack name body = body := if_pos around
      rw [chosen] at within
      exact accounts_block within chosen (.again around within.runs) (absurd · Bool.false_ne_true)
        rfl behind
    · cases counts : overrides.body? name with
      | none =>
        have chosen : overrides.chosen stack name body = body := by
          rw [Overrides.chosen, if_neg around, counts, Option.getD_none]
        rw [chosen] at within
        exact accounts_block within chosen (.alone around counts within.runs)
          (absurd · Bool.false_ne_true) rfl behind
      | some override =>
        have chosen : overrides.chosen stack name body = override := by
          rw [Overrides.chosen, if_neg around, counts, Option.getD_some]
        rw [chosen] at within
        exact accounts_block within chosen (.override around counts within.runs) (fun _ => around)
          counts behind
  | inherits stack parent rest later =>
    obtain ⟨parts, behind⟩ := later
    exact ⟨_, accounts_leaf (.inherits stack parent) (flatten_inherits ..) rfl rfl behind⟩
  | embed stack template rest later =>
    obtain ⟨parts, behind⟩ := later
    exact ⟨_, accounts_leaf (.embed stack template) (flatten_embed ..) rfl rfl behind⟩

/-- Flattening comes to an end, whatever the overrides are: bodies that hold blocks of their own
name or of each other, several overrides of one name, and blocks with one name next to each other or
inside each other. There is exactly one run, which leaves the stack as it has found it and makes
what flattening gives. The ways down the result are those down the parts that are made, and on each
of them the override of a name is put in at most once, and not at all for a name that has been on
the stack; every further block of the name has the content that is written at its place. -/
theorem substitution_ends (overrides : Overrides) (stack : List String) (nodes : List Node) :
    ∃ parts, Substitutes overrides stack nodes parts stack ∧
      (∀ others after, Substitutes overrides stack nodes others after →
        others = parts ∧ after = stack) ∧
      parts.map Part.source = nodes ∧
      parts.map Part.result = overrides.flatten stack nodes ∧
      (∀ path, Descends Node.children (overrides.flatten stack nodes) path ↔
        ∃ way, Descends Part.inside parts way ∧ way.map Part.result = path) ∧
      ∀ way, Descends Part.inside parts way → Sparing overrides stack way := by
  obtain ⟨parts, accounts⟩ := exists_accounts overrides stack nodes
  refine ⟨parts, accounts.runs, fun others after run => substitutes_unique run accounts.runs,
    accounts.sources, accounts.results, fun path => ?_, accounts.sparing⟩
  rw [← accounts.results]
  exact descends_map accounts.keeps path

/-- Two overrides whose bodies hold blocks of both names, and the way down to the innermost block:
there a block stands inside a block of its name, and keeps its content. -/
theorem substitution_ends_mutual :
    let overrides : Overrides := [("a", [.block "b" [], .block "a" [.text "1"]]),
      ("b", [.text "2", .block "a" [.text "3"]])]
    let nodes : List Node := [.block "a" [.text "4"]]
    let last : Node := .block "a" [.text "3"]
    let middle : Node := .block "b" [.text "2", last]
    let path : List Node := [.block "a" [middle, .block "a" [.text "1"]], middle, last]
    Descends Node.children (overrides.flatten [] nodes) path ∧
      ∃ parts way, Substitutes overrides [] nodes parts [] ∧ Descends Part.inside parts way ∧
        way.map Part.result = path ∧ Sparing overrides [] way := by
  intro overrides nodes last middle path
  have flattened : overrides.flatten [] nodes =
      [.block "a" [middle, .block "a" [.text "1"]]] := by
    simp [overrides, nodes, middle, last, chosen, body?]
  have down : Descends Node.children (overrides.flatten [] nodes) path := by
    rw [flattened]
    refine .enter List.mem_cons_self (.enter List.mem_cons_self (.enter ?_ (.stop _)))
    exact List.mem_cons_of_mem _ List.mem_cons_self
  obtain ⟨parts, runs, -, -, -, ways, sparing⟩ := substitution_ends overrides [] nodes
  obtain ⟨way, descends, same⟩ := (ways path).mp down
  exact ⟨down, parts, way, runs, descends, same, sparing way descends⟩

end Overrides

end Stencil
