import Stencil.Proofs.Flattening
import Stencil.Proofs.Lineages
import Stencil.Proofs.Rounds

/-!
# What flattening means

The meaning of a lineage is told without a guard and without an order of calls: every
block, wherever it stands, has the expanded body that counts for its name, and everything
else stays as it is. Flattening gives exactly that. The guard against a body inside its own
block is never needed, since the names that stand in a body that counts have their last
override behind the override that the body is.
-/

namespace Stencil

/-- The body that counts for a name in a lineage: it belongs to the template furthest down that
defines a block of the name. Nothing is said about how it is found. -/
def Winner (lineage : List Entry) (name : String) (body : List Node) : Prop :=
  ∃ above entry below, lineage = above ++ entry :: below ∧ (name, body) ∈ entry.template.blocks ∧
    ∀ lower ∈ below, ∀ other, (name, other) ∉ lower.template.blocks

section Meaning

variable (winner : String → List Node → Prop)

mutual

/-- The meaning of a node: a block has the expanded body that wins for its name, and its own body
plays no part. A name of a parent has no meaning, so nodes that name one have none. -/
inductive ExpandsNode : Node → Node → Prop
  | text (s : String) : ExpandsNode (.text s) (.text s)
  | output (e : Expr) : ExpandsNode (.output e) (.output e)
  | loop (target : String) (sequence : Expr) {body expanded : List Node}
      (inner : Expands body expanded) :
      ExpandsNode (.loop target sequence body) (.loop target sequence expanded)
  | choice {cases expandedCases : List (Expr × List Node)}
      {otherwise expandedOther : Option (List Node)} (inCases : ExpandsCases cases expandedCases)
      (inOther : ExpandsOption otherwise expandedOther) :
      ExpandsNode (.choice cases otherwise) (.choice expandedCases expandedOther)
  | block (name : String) (body : List Node) {override expanded : List Node}
      (counts : winner name override) (inner : Expands override expanded) :
      ExpandsNode (.block name body) (.block name expanded)
  | embed (template : String) : ExpandsNode (.embed template) (.embed template)

/-- The meaning of a body is that of its nodes in order. It is told together with that of a node, of
cases and of bodies that may be absent, since each of them has the others inside. -/
inductive Expands : List Node → List Node → Prop
  | nil : Expands [] []
  | cons {node expanded : Node} {rest expandedRest : List Node}
      (first : ExpandsNode node expanded) (behind : Expands rest expandedRest) :
      Expands (node :: rest) (expanded :: expandedRest)

/-- The bodies of cases are expanded and the conditions stay, since blocks stand in bodies only. The
cases keep their order. -/
inductive ExpandsCases : List (Expr × List Node) → List (Expr × List Node) → Prop
  | nil : ExpandsCases [] []
  | cons (condition : Expr) {body expanded : List Node}
      {rest expandedRest : List (Expr × List Node)} (first : Expands body expanded)
      (behind : ExpandsCases rest expandedRest) :
      ExpandsCases ((condition, body) :: rest) ((condition, expanded) :: expandedRest)

/-- A body that is absent stays absent. -/
inductive ExpandsOption : Option (List Node) → Option (List Node) → Prop
  | none : ExpandsOption none none
  | some {body expanded : List Node} (inner : Expands body expanded) :
      ExpandsOption (some body) (some expanded)

end

end Meaning

section Uniqueness

variable {winner : String → List Node → Prop}

/-- One body at most wins for a name. Of a lineage this holds if the blocks of each template have
distinct names. -/
def Unambiguous (winner : String → List Node → Prop) : Prop :=
  ∀ name body other, winner name body → winner name other → body = other

mutual

/-- Where one body at most wins for a name, a node has one meaning at most. The cases follow the
meaning of the one side; at a block the premise makes the two bodies one. -/
theorem expands_node_unique (unique : Unambiguous winner) {node left right : Node} :
    ExpandsNode winner node left → ExpandsNode winner node right → left = right
  | .text _, .text _ => rfl
  | .output _, .output _ => rfl
  | .embed _, .embed _ => rfl
  | .loop _ _ inner, .loop _ _ other => by rw [expands_unique unique inner other]
  | .choice inCases inOther, .choice otherCases otherOther => by
    rw [expands_cases_unique unique inCases otherCases,
      expands_option_unique unique inOther otherOther]
  | .block name _ counts inner, .block _ _ otherCounts other => by
    cases unique name _ _ counts otherCounts
    rw [expands_unique unique inner other]

/-- So it is with the nodes of a body in order. -/
theorem expands_unique (unique : Unambiguous winner) {nodes left right : List Node} :
    Expands winner nodes left → Expands winner nodes right → left = right
  | .nil, .nil => rfl
  | .cons first behind, .cons otherFirst otherBehind => by
    rw [expands_node_unique unique first otherFirst, expands_unique unique behind otherBehind]

/-- So it is with the cases of a choice, whose conditions stay. -/
theorem expands_cases_unique (unique : Unambiguous winner)
    {cases left right : List (Expr × List Node)} :
    ExpandsCases winner cases left → ExpandsCases winner cases right → left = right
  | .nil, .nil => rfl
  | .cons _ first behind, .cons _ otherFirst otherBehind => by
    rw [expands_unique unique first otherFirst, expands_cases_unique unique behind otherBehind]

/-- And with a body that may be absent. -/
theorem expands_option_unique (unique : Unambiguous winner)
    {otherwise left right : Option (List Node)} :
    ExpandsOption winner otherwise left → ExpandsOption winner otherwise right → left = right
  | .none, .none => rfl
  | .some inner, .some other => by rw [expands_unique unique inner other]

end

end Uniqueness

/-- The cases of a choice are expanded one by one. The expansion is any function here, so that the
lemma can be used inside the induction about flattening. -/
theorem expands_cases_map {winner : String → List Node → Prop} (expand : List Node → List Node)
    (cases : List (Expr × List Node))
    (each : ∀ case ∈ cases, Expands winner case.2 (expand case.2)) :
    ExpandsCases winner cases (cases.map fun case => (case.1, expand case.2)) := by
  induction cases with
  | nil => exact .nil
  | cons case rest inductionHypothesis =>
    exact .cons case.1 (each case List.mem_cons_self)
      (inductionHypothesis fun other member => each other (List.mem_cons_of_mem case member))

/-- A name stands in the body that wins for another name. This is the relation that must have no
circle for bodies to be finite. -/
def Nested (winner : String → List Node → Prop) (inner outer : String) : Prop :=
  ∃ body, winner outer body ∧ inner ∈ Node.blockNames body

namespace Overrides

/-- The places that flattening comes to: what it reads when it has come from `nodes` inside the
blocks called `expanding`, together with the names of the blocks around it. At a block it goes on
with the body that is chosen there, so bodies that are overridden are not come to. -/
inductive Comes (overrides : Overrides) :
    List String → List Node → List String → Node → Prop
  | here {expanding : List String} {nodes : List Node} {node : Node} (member : node ∈ nodes) :
      Comes overrides expanding nodes expanding node
  | loop {expanding enclosing : List String} {nodes body : List Node} {node : Node}
      {target : String} {sequence : Expr} (member : .loop target sequence body ∈ nodes)
      (inner : Comes overrides expanding body enclosing node) :
      Comes overrides expanding nodes enclosing node
  | case {expanding enclosing : List String} {nodes body : List Node} {node : Node}
      {cases : List (Expr × List Node)} {otherwise : Option (List Node)} {condition : Expr}
      (member : .choice cases otherwise ∈ nodes) (case : (condition, body) ∈ cases)
      (inner : Comes overrides expanding body enclosing node) :
      Comes overrides expanding nodes enclosing node
  | otherwise {expanding enclosing : List String} {nodes body : List Node} {node : Node}
      {cases : List (Expr × List Node)} (member : .choice cases (some body) ∈ nodes)
      (inner : Comes overrides expanding body enclosing node) :
      Comes overrides expanding nodes enclosing node
  | block {expanding enclosing : List String} {nodes body : List Node} {node : Node}
      {name : String} (member : .block name body ∈ nodes)
      (inner : Comes overrides (name :: expanding) (overrides.chosen expanding name body)
        enclosing node) :
      Comes overrides expanding nodes enclosing node

/-- Overrides that flattening can put in everywhere: a name in a body has an override too, no parent
is named in a body, and bodies that count do not stand in each other in a circle. The overrides of a
lineage are such, and the rest of the argument uses nothing else about them. -/
structure Complete (overrides : Overrides) : Prop where
  closed : ∀ name body, overrides.body? name = some body →
    ∀ inner ∈ Node.blockNames body, inner ∈ overrides.map Prod.fst
  orphan : ∀ name body, overrides.body? name = some body → Node.Orphan body
  acyclic : WellFounded (Nested fun name body => overrides.body? name = some body)

/-- What flattening keeps about the nodes at hand: their blocks have overrides, no parent is named
in them, and their blocks stand in the bodies of all blocks around them. With the last of these, a
block inside itself would make a circle. -/
structure Within (overrides : Overrides) (expanding : List String) (nodes : List Node) :
    Prop where
  known : ∀ name ∈ Node.blockNames nodes, name ∈ overrides.map Prod.fst
  orphan : Node.Orphan nodes
  below : ∀ outer ∈ expanding, ∀ inner ∈ Node.blockNames nodes,
    Relation.TransGen (Nested fun name body => overrides.body? name = some body) inner outer

section Steps

variable {overrides : Overrides} {expanding : List String} {nodes body : List Node}

/-- A part of the nodes is no worse than the whole. The premise is about nodes at any depth, which
is what all three conditions speak of. -/
theorem Within.part (within : Within overrides expanding nodes) {part : List Node}
    (held : Node.allOf part ⊆ Node.allOf nodes) : Within overrides expanding part := by
  have names : Node.blockNames part ⊆ Node.blockNames nodes := by
    unfold Node.blockNames
    rw [Node.blocks_of_eq_filterMap, Node.blocks_of_eq_filterMap]
    exact List.map_subset Prod.fst (List.filterMap_subset Node.block? held)
  exact ⟨fun name member => within.known name (names member),
    fun parent found => within.orphan parent (held found),
    fun outer around inner member => within.below outer around inner (names member)⟩

/-- So it is with the body of a loop. -/
theorem Within.loop (within : Within overrides expanding nodes) {target : String}
    {sequence : Expr} (member : .loop target sequence body ∈ nodes) :
    Within overrides expanding body :=
  within.part (Node.inside_subset (Node.mem_all_of member))

/-- So it is with the body of a case. What is in it at any depth is in the choice as well. -/
theorem Within.case (within : Within overrides expanding nodes)
    {cases : List (Expr × List Node)} {otherwise : Option (List Node)} {condition : Expr}
    (member : .choice cases otherwise ∈ nodes) (case : (condition, body) ∈ cases) :
    Within overrides expanding body := by
  refine within.part fun node found => Node.inside_subset (Node.mem_all_of member) ?_
  refine List.mem_append_left _ ?_
  rw [Node.all_of_cases]
  exact List.mem_flatMap.mpr ⟨(condition, body), case, found⟩

/-- And with the last body of a choice. -/
theorem Within.otherwise (within : Within overrides expanding nodes)
    {cases : List (Expr × List Node)} (member : .choice cases (some body) ∈ nodes) :
    Within overrides expanding body :=
  within.part fun _ found =>
    Node.inside_subset (Node.mem_all_of member) (List.mem_append_right _ found)

/-- A block that is met does not stand inside a block of its name. If it did, its name would stand
below itself, which is what the absence of circles excludes. -/
theorem Within.fresh (within : Within overrides expanding nodes) (complete : Complete overrides)
    {name : String} (member : .block name body ∈ nodes) : name ∉ expanding := by
  intro around
  have named : name ∈ Node.blockNames nodes :=
    List.mem_map_of_mem ((Node.mem_blocks_of nodes name body).mpr (Node.mem_all_of member))
  exact complete.acyclic.transGen.irrefl.irrefl name (within.below name around name named)

/-- At a block that is met some body counts for its name, flattening goes on with that body, and the
blocks around the body are as before with the one block more. This is the step of every induction
along flattening here. -/
theorem Within.override (within : Within overrides expanding nodes)
    (complete : Complete overrides) {name : String} (member : .block name body ∈ nodes) :
    ∃ override, overrides.body? name = some override ∧
      overrides.chosen expanding name body = override ∧
      Within overrides (name :: expanding) override := by
  have named : name ∈ Node.blockNames nodes :=
    List.mem_map_of_mem ((Node.mem_blocks_of nodes name body).mpr (Node.mem_all_of member))
  have fresh : name ∉ expanding := within.fresh complete member
  cases counts : overrides.body? name with
  | none => exact absurd (within.known name named) ((body_none_iff overrides name).mp counts)
  | some override =>
    refine ⟨override, rfl, by rw [chosen, if_neg fresh, counts, Option.getD_some],
      complete.closed name override counts, complete.orphan name override counts, ?_⟩
    intro outer around inner held
    have nested : Nested (fun name body => overrides.body? name = some body) inner name :=
      ⟨override, counts, held⟩
    rcases List.mem_cons.mp around with rfl | further
    · exact .single nested
    · exact .head nested (within.below outer further name named)

/-- Wherever flattening comes to, the nodes there are as good as those that it started on. The
induction is on how it has come there. -/
theorem Within.comes (within : Within overrides expanding nodes)
    (complete : Complete overrides) {enclosing : List String} {node : Node}
    (comes : Comes overrides expanding nodes enclosing node) :
    ∃ place, node ∈ place ∧ Within overrides enclosing place := by
  induction comes with
  | here member => exact ⟨_, member, within⟩
  | loop member inner inductionHypothesis => exact inductionHypothesis (within.loop member)
  | case member case inner inductionHypothesis =>
    exact inductionHypothesis (within.case member case)
  | otherwise member inner inductionHypothesis =>
    exact inductionHypothesis (within.otherwise member)
  | block member inner inductionHypothesis =>
    obtain ⟨override, -, goesOn, inside⟩ := within.override complete member
    exact inductionHypothesis (goesOn ▸ inside)

/-- Flattening gives the nodes their meaning. The induction is along flattening; at a block the body
that is chosen is the one that wins, since the guard is not needed. -/
theorem expands_flatten (complete : Complete overrides)
    (within : Within overrides expanding nodes) :
    Expands (fun name body => overrides.body? name = some body) nodes
      (overrides.flatten expanding nodes) := by
  have behind {expanding : List String} {node : Node} {rest : List Node}
      (within : Within overrides expanding (node :: rest)) : Within overrides expanding rest :=
    within.part (List.subset_append_right _ _)
  induction expanding, nodes using flatten_induction overrides with
  | nil expanding =>
    rw [flatten_nil]
    exact .nil
  | text expanding s rest later =>
    rw [flatten_text]
    exact .cons (.text s) (later (behind within))
  | output expanding e rest later =>
    rw [flatten_output]
    exact .cons (.output e) (later (behind within))
  | loop expanding target sequence body rest inner later =>
    rw [flatten_loop]
    exact .cons (.loop target sequence (inner (within.loop List.mem_cons_self)))
      (later (behind within))
  | choice expanding cases otherwise rest inCases inOther later =>
    rw [flatten_choice]
    have casesExpand := expands_cases_map (overrides.flatten expanding) cases fun case member =>
      inCases case member (within.case List.mem_cons_self member)
    refine .cons (.choice casesExpand ?_) (later (behind within))
    cases otherwise with
    | none => exact .none
    | some body => exact .some (inOther body rfl (within.otherwise List.mem_cons_self))
  | block expanding name body rest inner later =>
    have member : Node.block name body ∈ .block name body :: rest := List.mem_cons_self
    obtain ⟨override, counts, goesOn, inside⟩ := within.override complete member
    rw [flatten_block]
    rw [goesOn] at inner ⊢
    exact .cons (.block name body counts (inner inside)) (later (behind within))
  | inherits expanding parent rest later =>
    exact absurd List.mem_cons_self (within.orphan parent)
  | embed expanding template rest later =>
    rw [flatten_embed]
    exact .cons (.embed template) (later (behind within))

/-- In what flattening gives, no block has the name of a block around it. The statement is about the
blocks that are being expanded as well, for the induction needs to know that none of them comes up
again. -/
theorem flatten_apart (complete : Complete overrides)
    (within : Within overrides expanding nodes) {name : String} {inner : List Node}
    (member : (name, inner) ∈ Node.blocksOf (overrides.flatten expanding nodes)) :
    name ∉ expanding ∧ name ∉ Node.blockNames inner := by
  have behind {expanding : List String} {node : Node} {rest : List Node}
      (within : Within overrides expanding (node :: rest)) : Within overrides expanding rest :=
    within.part (List.subset_append_right _ _)
  induction expanding, nodes using flatten_induction overrides generalizing name inner with
  | nil expanding =>
    rw [flatten_nil] at member
    cases member
  | text expanding s rest later =>
    rw [flatten_text, Node.blocks_of_text] at member
    exact later (behind within) member
  | output expanding e rest later =>
    rw [flatten_output, Node.blocks_of_output] at member
    exact later (behind within) member
  | loop expanding target sequence body rest inBody later =>
    rw [flatten_loop, Node.blocks_of_loop, List.mem_append] at member
    rcases member with member | member
    · exact inBody (within.loop List.mem_cons_self) member
    · exact later (behind within) member
  | choice expanding cases otherwise rest inCases inOther later =>
    rw [flatten_choice, Node.blocks_of_choice, List.mem_append, List.mem_append] at member
    rcases member with (member | member) | member
    · rw [List.flatMap_map] at member
      obtain ⟨case, held, member⟩ := List.mem_flatMap.mp member
      exact inCases case held (within.case List.mem_cons_self held) member
    · cases otherwise with
      | none => cases member
      | some body =>
        have member : (name, inner) ∈ Node.blocksOf (overrides.flatten expanding body) := by
          simpa using member
        exact inOther body rfl (within.otherwise List.mem_cons_self) member
    · exact later (behind within) member
  | block expanding outer body rest inBody later =>
    have here : Node.block outer body ∈ .block outer body :: rest := List.mem_cons_self
    obtain ⟨override, -, goesOn, inside⟩ := within.override complete here
    rw [goesOn] at inBody
    rw [flatten_block, goesOn, Node.blocks_of_block, List.mem_cons, List.mem_append] at member
    -- The block itself, a block inside of it, or one behind it.
    rcases member with same | member | member
    · obtain ⟨rfl, rfl⟩ := Prod.mk.inj same
      refine ⟨within.fresh complete here, fun again => ?_⟩
      obtain ⟨⟨other, held⟩, found, rfl⟩ := List.mem_map.mp again
      -- Its own name is among those around the body, where none of the blocks has a name of those.
      exact (inBody inside found).1 List.mem_cons_self
    · have apart := inBody inside member
      exact ⟨fun around => apart.1 (List.mem_cons_of_mem outer around), apart.2⟩
    · exact later (behind within) member
  | inherits expanding parent rest later =>
    rw [flatten_inherits, Node.blocks_of_inherits] at member
    exact later (behind within) member
  | embed expanding template rest later =>
    rw [flatten_embed, Node.blocks_of_embed] at member
    exact later (behind within) member

end Steps

section Lineages

variable {lineage : List Entry}

/-- No template of a lineage defines a block of a name exactly if the name is not among the
overrides. -/
theorem absent_iff (lineage : List Entry) (name : String) :
    name ∉ (ofLineage lineage).map Prod.fst ↔
      ∀ entry ∈ lineage, ∀ body, (name, body) ∉ entry.template.blocks := by
  constructor
  · intro absent entry member body block
    have found : (name, body) ∈ ofLineage lineage :=
      List.mem_flatMap.mpr ⟨entry, member, block⟩
    exact absent (List.mem_map_of_mem found)
  · intro absent present
    obtain ⟨⟨_, body⟩, found, rfl⟩ := List.mem_map.mp present
    obtain ⟨entry, member, block⟩ := List.mem_flatMap.mp found
    exact absent entry member body block

/-- Where the blocks of each template have distinct names, the body that is looked up is the one
that wins. Templates further down stand later in the list of overrides, and the last override of a
name is looked up. -/
theorem winner_iff (distinct : ∀ entry ∈ lineage, (Node.blockNames entry.template.nodes).Nodup)
    (name : String) (body : List Node) :
    Winner lineage name body ↔ (ofLineage lineage).body? name = some body := by
  induction lineage with
  | nil =>
    refine ⟨fun ⟨above, entry, below, parts, _⟩ => ?_, fun counts => nomatch counts⟩
    cases above <;> cases parts
  | cons first rest inductionHypothesis =>
    have firstDistinct : (first.template.blocks.map Prod.fst).Nodup :=
      distinct first List.mem_cons_self
    have restWins := inductionHypothesis fun entry member =>
      distinct entry (List.mem_cons_of_mem first member)
    have split : Winner (first :: rest) name body ↔ Winner rest name body ∨
        (name ∉ (ofLineage rest).map Prod.fst ∧ (name, body) ∈ first.template.blocks) := by
      rw [absent_iff]
      constructor
      · rintro ⟨above, entry, below, parts, wins, last⟩
        cases above with
        | nil =>
          obtain ⟨rfl, rfl⟩ := List.cons.inj parts
          exact .inr ⟨last, wins⟩
        | cons head above => exact .inl ⟨above, entry, below, (List.cons.inj parts).2, wins, last⟩
      · rintro (⟨above, entry, below, rfl, wins, last⟩ | ⟨last, wins⟩)
        · exact ⟨first :: above, entry, below, rfl, wins, last⟩
        · exact ⟨[], first, rest, rfl, wins, last⟩
    have parts : ofLineage (first :: rest) = first.template.blocks ++ ofLineage rest :=
      List.flatMap_cons
    rw [split, restWins, parts, body_append, ← body_of_nodup _ firstDistinct,
      ← body_none_iff (ofLineage rest)]
    cases body? (ofLineage rest) name <;> simp

/-- A name in a body that counts has a lower rank than the name that the body counts for. The blocks
of the body follow it in the list, so the last override of each of their names is further behind. -/
theorem rank_nested {inner outer : String}
    (nested : Nested (fun name body => (ofLineage lineage).body? name = some body) inner outer) :
    rank (ofLineage lineage) inner < rank (ofLineage lineage) outer := by
  obtain ⟨body, counts, held⟩ := nested
  obtain ⟨before, behind, parts, last⟩ := (body_some_iff _ outer body).mp counts
  have present : inner ∈ behind.map Prod.fst :=
    (List.map_subset Prod.fst (ofLineage_behind parts).subset) held
  rw [parts, rank_last last, List.append_cons]
  exact rank_behind present

/-- The overrides of a lineage can be put in everywhere, if in each of its templates a parent is
named in front or not at all. That there is no circle follows from the ranks, which go down. -/
theorem complete_ofLineage (shaped : ∀ entry ∈ lineage, Node.ParentFirst entry.template.nodes) :
    Complete (ofLineage lineage) where
  closed := by
    intro name body counts inner held
    obtain ⟨before, behind, parts, -⟩ := (body_some_iff _ name body).mp counts
    have present : inner ∈ behind.map Prod.fst :=
      (List.map_subset Prod.fst (ofLineage_behind parts).subset) held
    rw [parts, List.map_append, List.map_cons]
    exact List.mem_append_right _ (List.mem_cons_of_mem name present)
  orphan := by
    intro name body counts
    obtain ⟨before, behind, parts, -⟩ := (body_some_iff _ name body).mp counts
    have member : (name, body) ∈ ofLineage lineage := by
      rw [parts]
      exact List.mem_append_right before List.mem_cons_self
    obtain ⟨entry, held, block⟩ := List.mem_flatMap.mp member
    rcases shaped entry held with orphan | ⟨parent, rest, nodes, orphan⟩
    · exact Node.orphan_body orphan block
    · rw [Template.blocks, nodes, Node.blocks_of_inherits] at block
      exact Node.orphan_body orphan block
  acyclic := Subrelation.wf rank_nested (InvImage.wf (rank (ofLineage lineage)) Nat.lt_wfRel.wf)

/-- The nodes of a root are such that flattening can start on them. Nothing is around them, so
the last condition is empty. A root names no parent at all, for a parent could only be named in
front. -/
theorem within_root {root : Entry} {rest : List Entry}
    (shaped : Node.ParentFirst root.template.nodes) (ends : root.template.parent? = none) :
    Within (ofLineage (root :: rest)) [] root.template.nodes where
  known := by
    intro name member
    have parts : ofLineage (root :: rest) = root.template.blocks ++ ofLineage rest :=
      List.flatMap_cons
    rw [parts, List.map_append]
    exact List.mem_append_left _ member
  orphan := by
    rcases shaped with orphan | ⟨parent, behind, nodes, -⟩
    · exact orphan
    · rw [Template.parent?, nodes] at ends
      cases ends
  below := fun _ around => nomatch around

end Lineages

end Overrides

/-- A template that is flattened, after any changes of the registry, has the meaning of its
lineage: it is what the nodes of the root expand to, and nothing else is. The names of blocks
are ordered by which stands in whose winning body, so no circle of bodies can arise. Wherever
flattening comes to a block, none of the blocks around it has its name; and no block of the
result stands inside a block of its own name. -/
theorem flattened_meaning (trim : Bool) (changes : List Change) (limit : Nat) (leaf : String)
    (flattened : Flattened)
    (made : Flattened.ofLeaf (Registry.ofChanges trim changes) limit leaf = .ok flattened) :
    ∃ root rest,
      Lineage.ofLeaf (Registry.ofChanges trim changes) limit leaf = .ok (root :: rest) ∧
      flattened.name = leaf ∧
      flattened.lineage =
        (root :: rest).map (fun entry => (entry.template.name, entry.generation)) ∧
      (∀ nodes, Expands (Winner (root :: rest)) root.template.nodes nodes ↔
        nodes = flattened.nodes) ∧
      WellFounded (Nested (Winner (root :: rest))) ∧
      (∀ enclosing name body, Overrides.Comes (Overrides.ofLineage (root :: rest)) []
        root.template.nodes enclosing (.block name body) → name ∉ enclosing) ∧
      ∀ name body, (name, body) ∈ Node.blocksOf flattened.nodes →
        name ∉ Node.blockNames body := by
  obtain ⟨root, rest, rises, ends, rfl⟩ := Flattened.ofLeaf_ok made
  have shape : ∀ entry ∈ root :: rest, (Node.blockNames entry.template.nodes).Nodup ∧
      Node.ParentFirst entry.template.nodes := by
    intro entry member
    obtain ⟨name, kept⟩ := Lineage.rises_kept rises member
    obtain ⟨ownTrim, source, read⟩ :=
      (Registry.consistent_changes trim changes).read name entry kept
    exact (Template.source_shape read).2
  -- The winner is told of the lineage, the override is looked up; names are distinct in each
  -- template, so they are the same body.
  have wins : Winner (root :: rest) = fun name body =>
      (Overrides.ofLineage (root :: rest)).body? name = some body := by
    funext name body
    exact propext (Overrides.winner_iff (fun entry member => (shape entry member).1) name body)
  have complete : Overrides.Complete (Overrides.ofLineage (root :: rest)) :=
    Overrides.complete_ofLineage fun entry member => (shape entry member).2
  have within : Overrides.Within (Overrides.ofLineage (root :: rest)) [] root.template.nodes :=
    Overrides.within_root (shape root List.mem_cons_self).2 ends
  have expands := Overrides.expands_flatten complete within
  refine ⟨root, rest, Lineage.climb_of_rises rises, rfl, rfl, fun nodes => ?_, ?_, ?_, ?_⟩
  · rw [wins]
    constructor
    · intro other
      -- What else the root expands to is the same, for there is one winner for each name.
      refine expands_unique (fun name body other counts counted => ?_) other expands
      exact Option.some.inj (counts.symm.trans counted)
    · rintro rfl
      exact expands
  · rw [wins]
    exact complete.acyclic
  · intro enclosing name body comes
    obtain ⟨place, member, inside⟩ := within.comes complete comes
    exact inside.fresh complete member
  · intro name body member
    exact (Overrides.flatten_apart complete within member).2

/-- A child that puts a block of its own into a block of its parent. The block of the child comes to
stand inside two blocks of the parent, of which the outer one is not overridden. -/
theorem flattened_meaning_child :
    let changes : List Change := [
      .register "base"
        "\x7b% block a %\x7d1\x7b% block b %\x7d2\x7b% endblock %\x7d\x7b% endblock %\x7d",
      .register "child" ("\x7b% extends 'base' %\x7d" ++
        "\x7b% block b %\x7d\x7b% block c %\x7d3\x7b% endblock %\x7d\x7b% endblock %\x7d")]
    let nodes : List Node := [.block "a" [.text "1", .block "b" [.block "c" [.text "3"]]]]
    Flattened.ofLeaf (Registry.ofChanges false changes) 5 "child" =
        .ok ⟨"child", [("base", 1), ("child", 2)], nodes⟩ ∧
      ∃ root rest,
        Lineage.ofLeaf (Registry.ofChanges false changes) 5 "child" = .ok (root :: rest) ∧
        ∀ meaning, Expands (Winner (root :: rest)) root.template.nodes meaning ↔
          meaning = nodes := by
  intro changes nodes
  have made : Flattened.ofLeaf (Registry.ofChanges false changes) 5 "child" =
      .ok ⟨"child", [("base", 1), ("child", 2)], nodes⟩ := by
    rw [Flattened.ofLeaf_eq_inRounds]
    decide +kernel
  obtain ⟨root, rest, climbed, -, -, meaning, -⟩ :=
    flattened_meaning false changes 5 "child" _ made
  exact ⟨made, root, rest, climbed, meaning⟩

end Stencil
