import Stencil.Proofs.Coverage
import Stencil.Proofs.Flattening
import Stencil.Proofs.Invalidation
import Stencil.Proofs.Requests

/-!
# Invariants of templates

What holds of every template that has been read, and of every template that has been flattened,
whatever happened to the registry before. Reading puts no empty text and no choice without a case
into the tree: a text between tags has at least one character, and a choice is only put together
where its first case ends. Together with the shape of templates this leaves nothing of parents in a
flattened template. The root of a lineage names none, and what the templates below the root
contribute is the bodies of their blocks, while a parent is named in front of all nodes.
-/

namespace Stencil

namespace Node

/-- A property of every node at any depth of a body, blocks and the cases of choices included.
Flattening takes nodes from any depth and puts them elsewhere, so an invariant of templates has to
reach as far. -/
def Each (P : Node → Prop) (nodes : List Node) : Prop := ∀ node ∈ allOf nodes, P node

section Equations

variable {P : Node → Prop} (rest : List Node)

/-- Nothing has to hold of a body without nodes. -/
@[simp] theorem each_nil : Each P [] := List.forall_mem_nil _

/-- The nodes of two bodies, one behind the other, are those of the one and those of the other. -/
@[simp] theorem each_append (before behind : List Node) :
    Each P (before ++ behind) ↔ Each P before ∧ Each P behind := by
  rw [Each, all_of_append, List.forall_mem_append]
  rfl

/-- A text has no nodes inside it, so it is only asked itself. -/
@[simp] theorem each_text (s : String) :
    Each P (.text s :: rest) ↔ P (.text s) ∧ Each P rest := List.forall_mem_cons

/-- Nor has the output of a value. -/
@[simp] theorem each_output (e : Expr) :
    Each P (.output e :: rest) ↔ P (.output e) ∧ Each P rest := List.forall_mem_cons

/-- A loop is asked itself, and so are the nodes of its body. -/
@[simp] theorem each_loop (target : String) (sequence : Expr) (body : List Node) :
    Each P (.loop target sequence body :: rest) ↔
      P (.loop target sequence body) ∧ Each P body ∧ Each P rest := by
  rw [Each, all_of_loop, List.forall_mem_cons, List.forall_mem_append]
  rfl

/-- A choice is asked itself, and so are the nodes of each case and of the last body if there is
one. -/
@[simp] theorem each_choice (cases : List (Expr × List Node)) (otherwise : Option (List Node)) :
    Each P (.choice cases otherwise :: rest) ↔
      P (.choice cases otherwise) ∧ (∀ case ∈ cases, Each P case.2) ∧
        (∀ body ∈ otherwise, Each P body) ∧ Each P rest := by
  rw [Each, all_of_choice, List.forall_mem_cons, List.forall_mem_append, List.forall_mem_append,
    List.forall_mem_flatMap, List.forall_mem_flatMap, and_assoc]
  simp only [Option.mem_toList, Option.mem_def, Each]

/-- A block is asked itself, and so are the nodes of its body. -/
@[simp] theorem each_block (name : String) (body : List Node) :
    Each P (.block name body :: rest) ↔ P (.block name body) ∧ Each P body ∧ Each P rest := by
  rw [Each, all_of_block, List.forall_mem_cons, List.forall_mem_append]
  rfl

/-- The name of a parent is a node without others inside it. -/
@[simp] theorem each_inherits (parent : String) :
    Each P (.inherits parent :: rest) ↔ P (.inherits parent) ∧ Each P rest := List.forall_mem_cons

/-- What a template embeds is named and not held, so nothing is asked of it. -/
@[simp] theorem each_embed (template : String) :
    Each P (.embed template :: rest) ↔ P (.embed template) ∧ Each P rest := List.forall_mem_cons

end Equations

/-- What holds of every node of a body holds of every node in the bodies of its blocks, since these
are among the nodes at any depth. -/
theorem each_body {P : Node → Prop} {nodes : List Node} {name : String} {body : List Node}
    (each : Each P nodes) (member : (name, body) ∈ blocksOf nodes) : Each P body := by
  have block : .block name body ∈ allOf nodes := (mem_blocks_of nodes name body).mp member
  exact fun node found => each node (inside_subset block found)

/-- A text is not empty, and a choice has a case. Of the other nodes nothing is asked, since reading
may make any of them. -/
def Solid : Node → Prop
  | .text s => s ≠ ""
  | .choice cases _ => cases ≠ []
  | _ => True

/-- A solid node that names no parent, as all nodes of a flattened template are. The parent of a
leaf is gone once its blocks are put into the base. -/
structure Settled (node : Node) : Prop where
  solid : node.Solid
  orphan : ∀ parent, node ≠ .inherits parent

/-- What is settled at every depth is solid there and names no parent. Reading gives the one half
and flattening the other, so they are kept apart until here. -/
theorem each_settled_iff (nodes : List Node) :
    Each Settled nodes ↔ Each Solid nodes ∧ Orphan nodes := by
  constructor
  · intro settled
    exact ⟨fun node member => (settled node member).solid,
      fun parent member => (settled _ member).orphan parent rfl⟩
  · rintro ⟨solid, orphan⟩ node member
    exact ⟨solid node member, fun parent same => orphan parent (same ▸ member)⟩

/-- Where a parent stands in front or nowhere, no block has a parent in its body. What follows the
first node names none at any depth, and the first node is no block if it names one. -/
theorem ParentFirst.body {nodes : List Node} (first : ParentFirst nodes) {name : String}
    {body : List Node} (member : (name, body) ∈ blocksOf nodes) : Orphan body := by
  rcases first with orphan | ⟨parent, rest, rfl, orphan⟩
  · exact orphan_body orphan member
  · rw [blocks_of_inherits] at member
    exact orphan_body orphan member

end Node

namespace Template

open Node (Each Solid)

/-- The finished cases of an open choice are solid, and where only the last body of the choice is
left there is one at least. A choice whose first case is still open has none yet, and none is asked
for. -/
def Opened.Solid : Opened → Prop
  | .case cases _ => ∀ case ∈ cases, Each Node.Solid case.2
  | .otherwise cases => cases ≠ [] ∧ ∀ case ∈ cases, Each Node.Solid case.2
  | .loop .. | .block _ => True

/-- What the tag at hand holds is solid. Most stages hold no nodes; those that do are the condition
of a further case, the end of a block, and the end of a tag. -/
def Stage.Solid : Stage → Prop
  | .expression (.case _ cases) _ => ∀ case ∈ cases, Each Node.Solid case.2
  | .blockEnd _ body => Each Node.Solid body
  | .close (.add node) => Each Node.Solid [node]
  | .close (.descend opened _) => opened.Solid
  | _ => True

namespace Reading

/-- All that the machine holds is solid: the nodes at hand, those of the open constructs, and those
that the tag at hand carries along. -/
structure Solid (reading : Reading) : Prop where
  nodes : Each Node.Solid reading.nodes
  levels : ∀ level ∈ reading.levels, level.opened.Solid ∧ Each Node.Solid level.before
  stage : reading.stage.Solid

variable {reading after : Reading}

/-- Before the first token there is nothing that could be empty. -/
theorem solid_start (name : Option String) : (start name).Solid where
  nodes := Node.each_nil
  levels := List.forall_mem_nil _
  stage := trivial

/-- Another stage keeps the invariant if what it holds is solid. The nodes and the levels stay as
they are. -/
theorem solid_reach (solid : reading.Solid) {stage : Stage} (held : stage.Solid) :
    (reading.reach stage).Solid :=
  ⟨solid.nodes, solid.levels, held⟩

/-- What the end of a tag completes keeps the invariant. A node joins those at hand, and a construct
that is opened begins with none. -/
theorem solid_complete (solid : reading.Solid) {ending : Ending}
    (held : (Stage.close ending).Solid) : (reading.complete ending).Solid := by
  cases ending with
  | add node => exact ⟨(Node.each_append _ _).mpr ⟨solid.nodes, held⟩, solid.levels, trivial⟩
  | descend opened place =>
    exact ⟨Node.each_nil, List.forall_mem_cons.mpr ⟨⟨held, solid.nodes⟩, solid.levels⟩, trivial⟩

/-- A word that ends or continues a construct keeps the invariant: the nodes at hand go into the
construct. It is here that a choice gets its first case, before it can become a node. -/
theorem solid_terminate {word : Keyword} (solid : reading.Solid)
    (read : reading.terminate word = .ok after) : after.Solid := by
  unfold terminate at read
  cases around : reading.levels with
  | nil => simp [around] at read
  | cons level outer =>
    obtain ⟨⟨inOpened, before⟩, outside⟩ := List.forall_mem_cons.mp (around ▸ solid.levels)
    have leave {stage : Stage} (held : stage.Solid) :
        (reading.ascend level outer stage).Solid := ⟨before, outside, held⟩
    cases opened : level.opened with
    | loop target sequence =>
      simp only [around, opened] at read
      split at read <;> cases read
      refine leave ?_
      simpa [Stage.Solid, Node.Solid] using solid.nodes
    | block name =>
      simp only [around, opened] at read
      split at read <;> cases read
      exact leave solid.nodes
    | case cases condition =>
      rw [opened] at inOpened
      have all : ∀ case ∈ cases ++ [(condition, reading.nodes)], Each Node.Solid case.2 := by
        rw [List.forall_mem_append, List.forall_mem_singleton]
        exact ⟨inOpened, solid.nodes⟩
      simp only [around, opened] at read
      split at read <;> cases read
      · exact leave all
      · exact leave ⟨by simp, all⟩
      -- The case that ends here is the first one at the latest.
      · have present : cases ++ [(condition, reading.nodes)] ≠ [] := by simp
        exact leave ((Node.each_choice _ _ _).mpr ⟨present, all, by simp, Node.each_nil⟩)
    | otherwise cases =>
      rw [opened] at inOpened
      obtain ⟨present, all⟩ := inOpened
      simp only [around, opened] at read
      split at read <;> cases read
      refine leave ((Node.each_choice _ _ _).mpr ⟨present, all, ?_, Node.each_nil⟩)
      simpa using solid.nodes

/-- The word that begins a statement keeps the invariant. It goes on within the tag, or it ends or
continues a construct. Only in the latter case are there nodes to be taken care of. -/
theorem solid_statement {place : Place} {kind : Token.Kind} (solid : reading.Solid)
    (read : reading.statement place kind = .ok after) : after.Solid := by
  unfold statement at read
  split at read
  · cases read
    exact solid_reach solid trivial
  · cases read
    exact solid_reach solid (by simp [Stage.Solid])
  · cases read
    exact solid_reach solid trivial
  · split at read
    · cases read
    · split at read <;> cases read
      exact ⟨solid.nodes, solid.levels, trivial⟩
  · cases read
    exact solid_reach solid trivial
  · split at read
    · exact solid_terminate solid read
    · cases read
  · cases read

/-- One token keeps the invariant, unless it is an empty text. The cases are those of the stages,
and a text is the only token that becomes a node as it is. -/
theorem solid_next {token : Token} (solid : reading.Solid) (present : token.kind ≠ .text "")
    (read : reading.next token = .ok after) : after.Solid := by
  have held := solid.stage
  unfold next at read
  cases stage : reading.stage with
  | content =>
    simp only [stage] at read
    split at read <;> cases read
    · next s text =>
      -- The one place where the premise counts: the text goes into the nodes as it stands.
      have filled : s ≠ "" := fun empty => present (empty ▸ text)
      have held : (Stage.close (.add (.text s))).Solid :=
        (Node.each_text [] s).mpr ⟨filled, Node.each_nil⟩
      exact solid_complete solid held
    · exact solid_reach solid trivial
    · exact solid_reach solid trivial
  | statement =>
    simp only [stage] at read
    exact solid_statement solid read
  | loopTarget place =>
    simp only [stage] at read
    split at read <;> cases read
    exact solid_reach solid trivial
  | loopIn place target =>
    simp only [stage] at read
    split at read <;> cases read
    exact solid_reach solid trivial
  | blockName place =>
    simp only [stage] at read
    split at read
    · split at read <;> cases read
      exact ⟨solid.nodes, solid.levels, trivial⟩
    · cases read
  | reference link =>
    simp only [stage] at read
    split at read
    · split at read <;> cases read
      refine solid_reach solid ?_
      cases link <;> simp [Stage.Solid, Link.node, Node.Solid]
    · cases read
  | expression purpose inner =>
    rw [stage] at held
    simp only [stage] at read
    split at read
    · cases read
    · cases read
      refine solid_reach solid ?_
      cases purpose <;> exact held
    · next e _ =>
      split at read <;> cases read
      refine solid_complete solid ?_
      cases purpose with
      | output => simp [Purpose.ending, Stage.Solid, Node.Solid]
      | loop place target => trivial
      | case place cases => exact held
  | blockEnd name body =>
    rw [stage] at held
    have block : (Stage.close (.add (.block name body))).Solid :=
      (Node.each_block [] name body).mpr ⟨trivial, held, Node.each_nil⟩
    simp only [stage] at read
    split at read
    -- The body was solid while it was open, so the block is when it takes the body up.
    · split at read <;> cases read
      exact solid_reach solid block
    · split at read <;> cases read
      exact solid_complete solid block
  | close ending =>
    rw [stage] at held
    simp only [stage] at read
    split at read <;> cases read
    exact solid_complete solid held

/-- Every run keeps the invariant. The tokens of a source hold no empty text, which is the premise
for each of them. -/
theorem solid_run {tokens : List Token} (solid : reading.Solid)
    (present : ∀ token ∈ tokens, token.kind ≠ .text "") (ran : reading.run tokens = .ok after) :
    after.Solid := by
  induction tokens generalizing reading with
  | nil =>
    cases ran
    exact solid
  | cons token rest inductionHypothesis =>
    obtain ⟨here, later⟩ := List.forall_mem_cons.mp present
    obtain ⟨advanced, read, ran⟩ := run_cons_ok ran
    exact inductionHypothesis (solid_next solid here read) later ran

end Reading

/-- Every node of a source that has been read is solid. The machine starts with nothing, its tokens
are no empty texts, and what it holds at the end are the nodes. -/
theorem nodes_solid {name : Option String} {trim : Bool} {source : String} {nodes : List Node}
    (read : nodesOfSource name trim source = .ok nodes) : Each Node.Solid nodes := by
  obtain ⟨reading, ran, ended⟩ := nodesOfSource_ok.mp read
  obtain ⟨-, -, rfl⟩ := Reading.result_ok.mp ended
  have solid : reading.Solid := Reading.solid_run (Reading.solid_start name)
    (Token.tiled_tokens trim source).filled ran
  exact solid.nodes

/-- Every node of a template that has been read is solid. Its nodes are those of its source. -/
theorem source_solid {name : String} {trim : Bool} {source : String} {template : Template}
    (read : ofSource name trim source = .ok template) : Each Node.Solid template.nodes := by
  unfold ofSource at read
  cases nodes : nodesOfSource (some name) trim source with
  | error refusal =>
    rw [nodes] at read
    cases read
  | ok found =>
    rw [nodes] at read
    cases read
    exact nodes_solid nodes

/-- A template names its parent in front exactly if a parent is named anywhere in it. So looking at
the first node is enough to know whether there is one. The premise says that no other node names a
parent, at any depth. -/
theorem parent_iff {template : Template} (first : Node.ParentFirst template.nodes)
    (parent : String) :
    template.parent? = some parent ↔ .inherits parent ∈ Node.allOf template.nodes := by
  unfold parent?
  rcases first with orphan | ⟨named, rest, parts, orphan⟩
  · constructor
    · intro found
      split at found <;> cases found
      next parts => exact parts ▸ List.mem_cons_self
    · exact fun found => absurd found (orphan parent)
  · rw [parts]
    constructor
    · rintro ⟨⟩
      exact List.mem_cons_self
    · intro found
      rcases List.mem_cons.mp found with same | later
      · cases same
        rfl
      · exact absurd later (orphan parent)

end Template

namespace Overrides

open Node (Each Settled)

/-- Whichever body is chosen at a block, it is settled. It is the body of the block itself or one of
the overrides, and both are assumed to be. -/
theorem settled_chosen {overrides : Overrides}
    (settled : ∀ override ∈ overrides, Each Settled override.2) (expanding : List String)
    (name : String) {body : List Node} (own : Each Settled body) :
    Each Settled (overrides.chosen expanding name body) := by
  unfold chosen
  split
  · exact own
  · cases counts : overrides.body? name with
    | none => exact own
    | some override =>
      obtain ⟨before, behind, parts, -⟩ := (body_some_iff overrides name override).mp counts
      exact settled (name, override) (by simp [parts])

/-- Flattening settled nodes with settled overrides gives settled nodes. The induction is the one of
flattening itself, with a case for every kind of node; at a block the body that is chosen is
flattened with its name in use. -/
theorem settled_flatten {overrides : Overrides}
    (settled : ∀ override ∈ overrides, Each Settled override.2) (expanding : List String)
    (nodes : List Node) (own : Each Settled nodes) :
    Each Settled (overrides.flatten expanding nodes) := by
  induction expanding, nodes using flatten_induction overrides with
  | nil expanding => simp
  | text expanding s rest later =>
    rw [Node.each_text] at own
    rw [flatten_text, Node.each_text]
    exact ⟨own.1, later own.2⟩
  | output expanding e rest later =>
    rw [Node.each_output] at own
    rw [flatten_output, Node.each_output]
    exact ⟨own.1, later own.2⟩
  | loop expanding target sequence body rest inner later =>
    rw [Node.each_loop] at own
    rw [flatten_loop, Node.each_loop]
    exact ⟨⟨trivial, nofun⟩, inner own.2.1, later own.2.2⟩
  | choice expanding cases otherwise rest inCases inOther later =>
    obtain ⟨here, ownCases, ownOther, behind⟩ := (Node.each_choice _ _ _).mp own
    rw [flatten_choice, Node.each_choice]
    refine ⟨⟨fun none => here.solid (List.map_eq_nil_iff.mp none), nofun⟩, ?_, ?_, later behind⟩
    · rw [List.forall_mem_map]
      exact fun case member => inCases case member (ownCases case member)
    · intro body present
      obtain ⟨before, found, rfl⟩ := Option.map_eq_some_iff.mp present
      exact inOther before found (ownOther before found)
  | block expanding name body rest inner later =>
    rw [Node.each_block] at own
    rw [flatten_block, Node.each_block]
    exact ⟨⟨trivial, nofun⟩, inner (settled_chosen settled expanding name own.2.1), later own.2.2⟩
  | inherits expanding parent rest later =>
    rw [Node.each_inherits] at own
    exact absurd rfl (own.1.orphan parent)
  | embed expanding template rest later =>
    rw [Node.each_embed] at own
    rw [flatten_embed, Node.each_embed]
    exact ⟨own.1, later own.2⟩

end Overrides

open Node (Each Settled)

/-- Every node of a flattened template is settled, if the registry is consistent. The root of the
lineage names no parent, the bodies of blocks name none either, and all of them have been read from
sources. -/
theorem Flattened.settled_ofLeaf {registry : Registry} (consistent : registry.Consistent)
    {limit : Nat} {leaf : String} {flattened : Flattened}
    (made : ofLeaf registry limit leaf = .ok flattened) : Each Settled flattened.nodes := by
  obtain ⟨root, rest, rises, ends, rfl⟩ := ofLeaf_ok made
  have read : ∀ entry ∈ root :: rest,
      Each Node.Solid entry.template.nodes ∧ Node.ParentFirst entry.template.nodes := by
    intro entry member
    obtain ⟨name, kept⟩ := Lineage.rises_kept rises member
    obtain ⟨trim, source, read⟩ := consistent.read name entry kept
    exact ⟨Template.source_solid read, (Template.source_shape read).2.2⟩
  refine Overrides.settled_flatten ?_ [] root.template.nodes ?_
  · rintro ⟨name, body⟩ member
    obtain ⟨entry, inLineage, block⟩ := List.mem_flatMap.mp member
    obtain ⟨solid, first⟩ := read entry inLineage
    exact (Node.each_settled_iff body).mpr ⟨Node.each_body solid block, first.body block⟩
  · obtain ⟨solid, first⟩ := read root List.mem_cons_self
    refine (Node.each_settled_iff _).mpr ⟨solid, fun parent named => ?_⟩
    rw [(Template.parent_iff first parent).mpr named] at ends
    cases ends

namespace Store

/-- Every copy that a store keeps is of settled nodes, so a copy handed out later needs no second
look. -/
def Settled (store : Store) : Prop :=
  ∀ name copy, store.cache.copies.get? name = some copy → Each Node.Settled copy.flattened.nodes

variable {store : Store}

/-- What the cache hands out is settled, and so is what it keeps afterwards. A copy that is there
was settled before, and a new one is flattened from the registry. -/
theorem settled_fetched (consistent : store.registry.Consistent) (settled : store.Settled)
    (limit : Nat) (name : String) : (store.resolve limit name).2.Settled ∧
      ∀ copy, (store.resolve limit name).1 = .ok copy → Each Node.Settled copy.flattened.nodes := by
  have fetched := resolve_fetched store limit name
  unfold Settled
  generalize (store.resolve limit name).1 = outcome at fetched
  generalize (store.resolve limit name).2.cache = after at fetched
  cases fetched with
  | kept found current =>
    refine ⟨settled, fun copy same => ?_⟩
    cases same
    exact settled name _ found
  | failed stale failed => exact ⟨settled, fun _ same => nomatch same⟩
  | renewed stale made =>
    have made := Flattened.settled_ofLeaf consistent made
    refine ⟨fun sought copy found => ?_, fun copy same => ?_⟩
    · rw [Dict.get?_insert] at found
      split at found
      · cases found
        exact made
      · exact settled sought copy found
    · cases same
      exact made

/-- Whatever is done with a store, the copies that it keeps are settled. A change drops copies and
never adds one, so only resolving has to be looked at. -/
theorem settled_after (orderly : store.Orderly) (settled : store.Settled) (steps : List Step) :
    (store.after steps).Settled := by
  induction steps generalizing store with
  | nil => exact settled
  | cons step rest inductionHypothesis =>
    refine inductionHypothesis (orderly_step orderly step) ?_
    cases step with
    | change request => exact settled
    | load extensions root => exact settled
    | resolve limit name => exact (settled_fetched orderly.consistent settled limit name).1
    | clear => exact fun _ _ kept => nomatch kept

end Store

/-- What holds of templates. In a template that has been read a parent is named by the first node
or not at all, so whether there is one can be seen from the first node; no two blocks have one
name, and they are listed in the order in which they stand in the tree; no text is empty, and every
choice has a case. In a flattened template, whatever store or engine gives it at whatever time, no
parent is named at any depth, no text is empty, and every choice has a case. -/
theorem template_invariants :
    (∀ name trim source template, Template.ofSource name trim source = .ok template →
      (∀ parent, .inherits parent ∈ Node.allOf template.nodes →
        ∃ rest, template.nodes = .inherits parent :: rest ∧ Node.Orphan rest) ∧
      (∀ parent, template.parent? = some parent ↔
        .inherits parent ∈ Node.allOf template.nodes) ∧
      (template.blocks.map Prod.fst).Nodup ∧
      template.blocks = (Node.allOf template.nodes).filterMap Node.block? ∧
      Each Node.Solid template.nodes) ∧
    (∀ trim steps flattened, ((Store.new trim).after steps).Gives flattened →
      Each Settled flattened.nodes) ∧
    (∀ settings requests name copy,
      (((Engine.new settings).after requests).resolve name).1 = .ok copy →
      Each Settled copy.flattened.nodes) := by
  refine ⟨fun name trim source template read => ?_, fun trim steps flattened gives => ?_,
    fun settings requests name copy resolved => ?_⟩
  -- The shape of what is read: the parent first, or nowhere.
  · obtain ⟨-, distinct, first⟩ := Template.source_shape read
    refine ⟨fun parent named => ?_, Template.parent_iff first, distinct,
      Node.blocks_of_eq_filterMap template.nodes, Template.source_solid read⟩
    rcases first with orphan | ⟨front, rest, parts, orphan⟩
    · exact absurd named (orphan parent)
    · rw [parts, Node.all_of_inherits, List.mem_cons] at named
      rcases named with same | later
      · cases same
        exact ⟨rest, parts, orphan⟩
      · exact absurd later (orphan parent)
  · have orderly := Store.orderly_after (Store.orderly_new trim) steps
    rcases gives with ⟨limit, leaf, made⟩ | ⟨limit, name, copy, resolved, rfl⟩
    · exact Flattened.settled_ofLeaf orderly.consistent made
    -- A copy from the cache was made at some time before, in the registry of that time.
    · have empty : (Store.new trim).Settled := fun _ _ kept => nomatch kept
      have settled := Store.settled_after (Store.orderly_new trim) empty steps
      exact (Store.settled_fetched orderly.consistent settled limit name).2 copy resolved
  · have sound := Engine.sound_after (Engine.sound_new settings) requests
    have answers := (Engine.resolve_answers sound name).1
    rw [resolved] at answers
    exact Flattened.settled_ofLeaf sound.consistent answers.symm

/-- A frame with nothing in its block, which a page below it may fill. -/
def openFrame : Template :=
  ⟨"frame", "<\x7b% block title %\x7d\x7b% endblock %\x7d>",
    [.text "<", .block "title" [], .text ">"]⟩

/-- A frame is filled from inside a choice; a comment stands in front of the name of the parent. -/
def filledFrame : Template :=
  ⟨"page", "\x7b# page #\x7d\x7b% extends 'frame' %\x7d" ++
      "\x7b% if a %\x7d\x7b% block title %\x7d!\x7b% endblock %\x7d\x7b% endif %\x7d",
    [.inherits "frame", .choice [(.variable "a", [.block "title" [.text "!"]])] none]⟩

/-- The template has a parent, and what it is flattened to names none. The page has been registered
before the frame that it is put into. -/
theorem template_invariants_page :
    let steps : List Store.Step := [.change (.register "page" filledFrame.source),
      .change (.register "frame" openFrame.source)]
    let flattened : Flattened := ⟨"page", [("frame", 2), ("page", 1)],
      [.text "<", .block "title" [.text "!"], .text ">"]⟩
    Template.ofSource "page" false filledFrame.source = .ok filledFrame ∧
      filledFrame.parent? = some "frame" ∧
      ((Store.new false).after steps).Gives flattened ∧ Each Settled flattened.nodes := by
  intro steps flattened
  have page : Template.ofSource "page" false filledFrame.source = .ok filledFrame := by
    decide +kernel
  have frame : Template.ofSource "frame" false openFrame.source = .ok openFrame := by decide +kernel
  have state : (Store.new false).after steps =
      ⟨⟨[("frame", ⟨openFrame, 2⟩), ("page", ⟨filledFrame, 1⟩)], 2, false⟩, .empty, .empty⟩ := by
    simp only [steps, Store.after, List.foldl, Store.perform, Registry.change, Registry.register,
      Store.new, Registry.empty, Registry.insert, page, frame, Except.map]
    rfl
  have made : Flattened.ofLeaf ((Store.new false).after steps).registry 5 "page" =
      .ok flattened := by
    rw [state, Flattened.ofLeaf_eq_inRounds]
    decide +kernel
  have gives : ((Store.new false).after steps).Gives flattened := .inl ⟨5, "page", made⟩
  refine ⟨page, ?_, gives, template_invariants.2.1 false steps flattened gives⟩
  exact ((template_invariants.1 _ _ _ _ page).2.1 "frame").mpr List.mem_cons_self

end Stencil
