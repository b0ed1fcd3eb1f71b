import Mathlib.Data.List.Basic
import Stencil.Node

/-!
# The nodes of a body

A body holds its own nodes and, inside loops, choices and blocks, further bodies. The
induction principle here follows that nesting without a word about lists of cases, and
`allOf` lists what is found on the way. Blocks are a selection from that list, in the same
order: a block stands before everything that its own body holds.
-/

namespace Stencil.Node

/-- Induction over a body: the first node with the bodies in it, then the nodes behind it. A choice
supplies the hypothesis for the body of every case and for the other body, so that a proof never has
to speak of lists of cases. It is the recursor of nodes with a motive for each way in which nodes
hold bodies. -/
@[elab_as_elim]
theorem body_induction {P : List Node → Prop}
    (nil : P [])
    (text : ∀ s rest, P rest → P (.text s :: rest))
    (output : ∀ e rest, P rest → P (.output e :: rest))
    (loop : ∀ target sequence body rest, P body → P rest →
      P (.loop target sequence body :: rest))
    (choice : ∀ cases otherwise rest, (∀ case ∈ cases, P case.2) →
      (∀ body ∈ otherwise, P body) → P rest → P (.choice cases otherwise :: rest))
    (block : ∀ name body rest, P body → P rest → P (.block name body :: rest))
    (inherits : ∀ parent rest, P rest → P (.inherits parent :: rest))
    (embed : ∀ template rest, P rest → P (.embed template :: rest))
    (nodes : List Node) : P nodes := by
  refine @Node.rec_1 (fun node => ∀ rest, P rest → P (node :: rest)) P
    (fun cases => ∀ case ∈ cases, P case.2) (fun otherwise => ∀ body ∈ otherwise, P body)
    (fun case => P case.2)
    text output (fun target sequence body inner rest => loop target sequence body rest inner)
    (fun cases otherwise inCases inOther rest => choice cases otherwise rest inCases inOther)
    (fun name body inner rest => block name body rest inner) inherits embed
    nil (fun _ rest first behind => first rest behind) ?_ ?_ ?_ ?_ (fun _ _ inner => inner) nodes
  · intro case member
    cases member
  · intro head tail inHead inTail case member
    rcases List.mem_cons.mp member with rfl | behind
    · exact inHead
    · exact inTail case behind
  · intro body present
    cases present
  · intro body inner other present
    cases present
    exact inner

mutual

/-- A node and every node in it, the outer before the inner. The order is that of the source, since
a construct begins before what it holds. -/
def all : Node → List Node
  | .text s => [.text s]
  | .output e => [.output e]
  | .loop target sequence body => .loop target sequence body :: allOf body
  | .choice cases otherwise =>
    .choice cases otherwise :: (allOfCases cases ++ allOfOption otherwise)
  | .block name body => .block name body :: allOf body
  | .inherits parent => [.inherits parent]
  | .embed template => [.embed template]

/-- Every node at any depth of a body, in the order of the source. A node stands in front of those
inside of it. -/
def allOf : List Node → List Node
  | [] => []
  | node :: rest => all node ++ allOf rest

/-- Every node in the cases of a choice. -/
def allOfCases : List (Expr × List Node) → List Node
  | [] => []
  | (_, body) :: rest => allOf body ++ allOfCases rest

/-- Every node in a body that may be absent. -/
def allOfOption : Option (List Node) → List Node
  | none => []
  | some body => allOf body

end

section Equations

variable (rest : List Node)

/-- The nodes in the cases of a choice are those in their bodies, case by case. It turns the
recursion over the cases into a list operation that simplification knows. -/
theorem all_of_cases (cases : List (Expr × List Node)) :
    allOfCases cases = cases.flatMap fun case => allOf case.2 := by
  induction cases with
  | nil => rfl
  | cons case rest inductionHypothesis =>
    rw [allOfCases, inductionHypothesis, List.flatMap_cons]

/-- The blocks in the cases of a choice are those in their bodies, in the same way. -/
theorem blocks_of_cases (cases : List (Expr × List Node)) :
    blocksOfCases cases = cases.flatMap fun case => blocksOf case.2 := by
  induction cases with
  | nil => rfl
  | cons case rest inductionHypothesis =>
    rw [blocksOfCases, inductionHypothesis, List.flatMap_cons]

/-- The nodes in what a choice falls back on are those of that body, if there is one. -/
theorem all_of_option (otherwise : Option (List Node)) :
    allOfOption otherwise = otherwise.toList.flatMap allOf := by
  cases otherwise <;> simp [allOfOption]

/-- The blocks in what a choice falls back on are those of that body, if there is one. -/
theorem blocks_of_option (otherwise : Option (List Node)) :
    blocksOfOption otherwise = otherwise.toList.flatMap blocksOf := by
  cases otherwise <;> simp [blocksOfOption]

/-- Nothing stands in an empty body. -/
@[simp] theorem all_of_nil : allOf [] = [] := rfl

/-- A text stands for itself alone. -/
@[simp] theorem all_of_text (s : String) : allOf (.text s :: rest) = .text s :: allOf rest := rfl

/-- An output stands for itself alone; expressions hold no nodes. -/
@[simp] theorem all_of_output (e : Expr) :
    allOf (.output e :: rest) = .output e :: allOf rest := rfl

/-- A loop stands before the nodes of its body, and these before what is behind the loop. -/
@[simp] theorem all_of_loop (target : String) (sequence : Expr) (body : List Node) :
    allOf (.loop target sequence body :: rest) =
      .loop target sequence body :: (allOf body ++ allOf rest) := rfl

/-- A choice stands before the nodes of its cases, and these before those of the body it falls back
on. -/
@[simp] theorem all_of_choice (cases : List (Expr × List Node))
    (otherwise : Option (List Node)) :
    allOf (.choice cases otherwise :: rest) = .choice cases otherwise ::
      (cases.flatMap (fun case => allOf case.2) ++ otherwise.toList.flatMap allOf ++
        allOf rest) := by
  simp only [allOf, all, all_of_cases, all_of_option, List.cons_append]

/-- A block stands before the nodes of its body, and these before what is behind the block. -/
@[simp] theorem all_of_block (name : String) (body : List Node) :
    allOf (.block name body :: rest) = .block name body :: (allOf body ++ allOf rest) := rfl

/-- The name of a parent stands for itself alone. -/
@[simp] theorem all_of_inherits (parent : String) :
    allOf (.inherits parent :: rest) = .inherits parent :: allOf rest := rfl

/-- An embedded template stands for itself alone: what is in that template is not in this body. -/
@[simp] theorem all_of_embed (template : String) :
    allOf (.embed template :: rest) = .embed template :: allOf rest := rfl

/-- An empty body has no blocks. -/
@[simp] theorem blocks_of_nil : blocksOf [] = [] := rfl

/-- A text has no blocks. -/
@[simp] theorem blocks_of_text (s : String) : blocksOf (.text s :: rest) = blocksOf rest := rfl

/-- An output has no blocks. -/
@[simp] theorem blocks_of_output (e : Expr) : blocksOf (.output e :: rest) = blocksOf rest := rfl

/-- The blocks of a loop are those of its body. -/
@[simp] theorem blocks_of_loop (target : String) (sequence : Expr) (body : List Node) :
    blocksOf (.loop target sequence body :: rest) = blocksOf body ++ blocksOf rest := rfl

/-- The blocks of a choice are those of its cases, followed by those of the body it falls back
on. -/
@[simp] theorem blocks_of_choice (cases : List (Expr × List Node))
    (otherwise : Option (List Node)) :
    blocksOf (.choice cases otherwise :: rest) =
      cases.flatMap (fun case => blocksOf case.2) ++ otherwise.toList.flatMap blocksOf ++
        blocksOf rest := by
  simp only [blocksOf, blocks, blocks_of_cases, blocks_of_option]

/-- A block comes before the blocks of its own body. -/
@[simp] theorem blocks_of_block (name : String) (body : List Node) :
    blocksOf (.block name body :: rest) = (name, body) :: (blocksOf body ++ blocksOf rest) := rfl

/-- The name of a parent has no blocks. -/
@[simp] theorem blocks_of_inherits (parent : String) :
    blocksOf (.inherits parent :: rest) = blocksOf rest := rfl

/-- An embedded template has no blocks here; they are its own. -/
@[simp] theorem blocks_of_embed (template : String) :
    blocksOf (.embed template :: rest) = blocksOf rest := rfl

end Equations

/-- The nodes of two bodies put together are those of the first and then those of the second. -/
theorem all_of_append (before behind : List Node) :
    allOf (before ++ behind) = allOf before ++ allOf behind := by
  induction before with
  | nil => rfl
  | cons node rest inductionHypothesis =>
    simp only [List.cons_append, allOf, inductionHypothesis, List.append_assoc]

/-- The blocks of two bodies put together are those of the first and then those of the second. -/
theorem blocks_of_append (before behind : List Node) :
    blocksOf (before ++ behind) = blocksOf before ++ blocksOf behind := by
  induction before with
  | nil => rfl
  | cons node rest inductionHypothesis =>
    simp only [List.cons_append, blocksOf, inductionHypothesis, List.append_assoc]

/-- The name and the body of a block; other nodes have none. With it the blocks of a body are picked
from all of its nodes. -/
def block? : Node → Option (String × List Node)
  | .block name body => some (name, body)
  | _ => none

/-- Only a block has a name and a body, and they are the ones it is made of. -/
theorem block_eq {node : Node} {name : String} {body : List Node}
    (isBlock : block? node = some (name, body)) : node = .block name body := by
  cases node with
  | block other held =>
    obtain ⟨rfl, rfl⟩ := Prod.mk.inj (Option.some.inj isBlock)
    rfl
  | _ => cases isBlock

/-- The blocks of a body are the blocks among all its nodes, in the same order. So what is known of
the list of all nodes carries over to the list of blocks. The induction is over the body. -/
theorem blocks_of_eq_filterMap (nodes : List Node) :
    blocksOf nodes = (allOf nodes).filterMap block? := by
  induction nodes using body_induction with
  | nil => rfl
  | text s rest behind => simp [List.filterMap_cons, block?, behind]
  | output e rest behind => simp [List.filterMap_cons, block?, behind]
  | loop target sequence body rest inner behind =>
    simp [List.filterMap_cons, block?, inner, behind]
  | choice cases otherwise rest inCases inOther behind =>
    have casesAgree := List.flatMap_congr inCases
    have otherAgrees := List.flatMap_congr (l := otherwise.toList) (by simpa using inOther)
    simp [List.filterMap_cons, block?, List.filterMap_flatMap, casesAgree, otherAgrees, behind]
  | block name body rest inner behind => simp [block?, inner, behind]
  | inherits parent rest behind => simp [List.filterMap_cons, block?, behind]
  | embed template rest behind => simp [List.filterMap_cons, block?, behind]

/-- A block is one of the blocks of a body exactly if it is one of the nodes in it. So what is known
of nodes at any depth is known of blocks. -/
theorem mem_blocks_of (nodes : List Node) (name : String) (body : List Node) :
    (name, body) ∈ blocksOf nodes ↔ .block name body ∈ allOf nodes := by
  rw [blocks_of_eq_filterMap, List.mem_filterMap]
  constructor
  · rintro ⟨node, member, isBlock⟩
    exact block_eq isBlock ▸ member
  · intro member
    exact ⟨.block name body, member, rfl⟩

/-- The nodes in a node, without the node itself; only loops, choices and blocks have any. -/
def inside (node : Node) : List Node := (all node).tail

/-- A node comes first among itself and the nodes in it. -/
theorem all_eq_cons_inside (node : Node) : all node = node :: inside node := by
  cases node <;> rfl

/-- A list of nodes in which every node stands right before the nodes in it. It is said of any place
where the list can be cut, so that it can be used without knowing how the list came about. -/
def Preorder (nodes : List Node) : Prop :=
  ∀ before node behind, nodes = before ++ node :: behind → inside node <+: behind

/-- A node may be put in front of a list in preorder that begins with the nodes in it. Of the other
nodes nothing changes, since what is behind them stays. -/
theorem preorder_cons {node : Node} {rest : List Node} (first : inside node <+: rest)
    (later : Preorder rest) : Preorder (node :: rest) := by
  intro before other behind parts
  cases before with
  | nil =>
    obtain ⟨rfl, rfl⟩ := List.cons.inj parts
    exact first
  | cons head before =>
    exact later before other behind (List.cons.inj parts).2

/-- Two lists in preorder make one. A cut in the first has the nodes it is followed by in the first
already, so nothing of the second is needed. -/
theorem preorder_append {left right : List Node} (first : Preorder left)
    (second : Preorder right) : Preorder (left ++ right) := by
  induction left with
  | nil => exact second
  | cons node rest inductionHypothesis =>
    have leading : inside node <+: rest := first [] node rest rfl
    have tail : Preorder rest := fun before other behind parts =>
      first (node :: before) other behind (by rw [parts, List.cons_append])
    exact preorder_cons (leading.trans (List.prefix_append rest right)) (inductionHypothesis tail)

/-- Lists in preorder, one for each item, make one. What is inside a node lies in the list of the
same item, so the lists do not get into one another. -/
theorem preorder_flatMap {α : Type} (items : List α) (listed : α → List Node)
    (each : ∀ item ∈ items, Preorder (listed item)) : Preorder (items.flatMap listed) := by
  induction items with
  | nil =>
    intro before node behind parts
    cases before <;> cases parts
  | cons item rest inductionHypothesis =>
    rw [List.flatMap_cons]
    exact preorder_append (each item List.mem_cons_self)
      (inductionHypothesis fun other member => each other (List.mem_cons_of_mem item member))

/-- The nodes of a body are listed in preorder. The induction is over the body; the node in front is
followed by its own nodes, and whatever is listed behind these is in preorder by hypothesis. -/
theorem preorder_all_of (nodes : List Node) : Preorder (allOf nodes) := by
  induction nodes using body_induction with
  | nil =>
    intro before node behind parts
    cases before <;> cases parts
  | text s rest behind => exact preorder_cons List.nil_prefix behind
  | output e rest behind => exact preorder_cons List.nil_prefix behind
  | loop target sequence body rest inner behind =>
    exact preorder_cons (List.prefix_append _ _) (preorder_append inner behind)
  | choice cases otherwise rest inCases inOther behind =>
    have inner : Preorder (allOfCases cases ++ allOfOption otherwise) := by
      rw [all_of_cases, all_of_option]
      exact preorder_append (preorder_flatMap _ _ inCases)
        (preorder_flatMap _ _ (by simpa using inOther))
    exact preorder_cons (List.prefix_append _ _) (preorder_append inner behind)
  | block name body rest inner behind =>
    exact preorder_cons (List.prefix_append _ _) (preorder_append inner behind)
  | inherits parent rest behind => exact preorder_cons List.nil_prefix behind
  | embed template rest behind => exact preorder_cons List.nil_prefix behind

/-- The nodes of a body are among those at any depth. Each stands in front of those inside of it,
and the others come behind. -/
theorem mem_all_of {nodes : List Node} {node : Node} (member : node ∈ nodes) :
    node ∈ allOf nodes := by
  induction nodes with
  | nil => cases member
  | cons first rest inductionHypothesis =>
    rw [allOf, all_eq_cons_inside]
    rcases List.mem_cons.mp member with rfl | behind
    · exact List.mem_cons_self
    · exact List.mem_append_right _ (inductionHypothesis behind)

/-- What is in a node of a body is in the body, since it is listed right behind the node. -/
theorem inside_subset {nodes : List Node} {node : Node} (member : node ∈ allOf nodes) :
    inside node ⊆ allOf nodes := by
  obtain ⟨before, behind, parts⟩ := List.append_of_mem member
  have held : inside node <+: behind := preorder_all_of nodes before node behind parts
  intro inner found
  rw [parts]
  exact List.mem_append_right before (List.mem_cons_of_mem node (held.subset found))

/-- Where a block stands among nodes in preorder, the blocks in it follow at once. The cut in the
list of blocks is brought back to a cut in the list of nodes, where the body of the block begins
right behind it. -/
theorem blocks_of_behind {listed : List Node} (preorder : Preorder listed)
    {before behind : List (String × List Node)} {name : String} {body : List Node}
    (parts : listed.filterMap block? = before ++ (name, body) :: behind) :
    blocksOf body <+: behind := by
  rw [List.filterMap_eq_append_iff] at parts
  obtain ⟨left, right, split, -, fromRight⟩ := parts
  obtain ⟨passed, node, later, rightParts, -, isBlock, rfl⟩ :=
    List.filterMap_eq_cons_iff.mp fromRight
  obtain rfl : node = .block name body := block_eq isBlock
  have placed : listed = (left ++ passed) ++ .block name body :: later := by
    rw [split, rightParts, List.append_assoc]
  have held : allOf body <+: later := preorder _ _ _ placed
  rw [blocks_of_eq_filterMap]
  exact held.filterMap block?

/-- The names of the blocks that a body defines at any depth. A name appears as often as there are
blocks of it, so `Nodup` says that no name is used twice. -/
def blockNames (nodes : List Node) : List String := (blocksOf nodes).map Prod.fst

/-- No parent is named in a body, at any depth. It is what a template without a parent has, and what
flattening gives. -/
def Orphan (nodes : List Node) : Prop := ∀ parent, .inherits parent ∉ allOf nodes

/-- No parent is named in an empty body. -/
theorem orphan_nil : Orphan [] := fun _ => List.not_mem_nil

/-- No parent is named in two bodies put together if none is named in either. -/
theorem orphan_append {before behind : List Node} (first : Orphan before)
    (second : Orphan behind) : Orphan (before ++ behind) := by
  intro parent found
  rw [all_of_append] at found
  exact (List.mem_append.mp found).elim (first parent) (second parent)

/-- No parent is named behind a node if none is named from it on. -/
theorem orphan_rest {node : Node} {rest : List Node} (orphan : Orphan (node :: rest)) :
    Orphan rest :=
  fun parent found => orphan parent (List.mem_append_right (all node) found)

/-- A loop names no parent if its body names none. -/
theorem orphan_loop {target : String} {sequence : Expr} {body : List Node}
    (inner : Orphan body) : Orphan [.loop target sequence body] := by
  intro parent found
  exact inner parent (by simpa using found)

/-- A choice names no parent if none of its bodies does. What is in it at any depth is in the body
of a case or in the other body, and the choice itself is no parent. -/
theorem orphan_choice {cases : List (Expr × List Node)} {otherwise : Option (List Node)}
    (inCases : ∀ case ∈ cases, Orphan case.2) (inOther : ∀ body ∈ otherwise, Orphan body) :
    Orphan [.choice cases otherwise] := by
  intro parent found
  have inner : .inherits parent ∈ cases.flatMap (fun case => allOf case.2) ∨
      .inherits parent ∈ otherwise.toList.flatMap allOf := by
    simpa only [all_of_choice, all_of_nil, List.append_nil, List.mem_cons, reduceCtorEq,
      false_or, List.mem_append] using found
  rcases inner with inner | inner
  · obtain ⟨case, member, held⟩ := List.mem_flatMap.mp inner
    exact inCases case member parent held
  · obtain ⟨body, present, held⟩ := List.mem_flatMap.mp inner
    exact inOther body (Option.mem_toList.mp present) parent held

/-- A block names no parent if its body names none. -/
theorem orphan_block {name : String} {body : List Node} (inner : Orphan body) :
    Orphan [.block name body] := by
  intro parent found
  exact inner parent (by simpa using found)

/-- No parent is named in the body of a block if none is named around it, however deep the block
stands. -/
theorem orphan_body {nodes : List Node} {name : String} {body : List Node}
    (orphan : Orphan nodes) (member : (name, body) ∈ blocksOf nodes) : Orphan body := by
  intro parent found
  have block : .block name body ∈ allOf nodes := (mem_blocks_of nodes name body).mp member
  exact orphan parent (inside_subset block found)

end Stencil.Node
