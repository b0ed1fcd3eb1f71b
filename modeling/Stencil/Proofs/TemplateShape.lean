import Mathlib.Data.List.Nodup
import Stencil.Proofs.Nodes
import Stencil.Template.Basic

/-!
# The shape of templates

Two facts hold of every template that can be read: no two of its blocks have one name, at
whatever depth they stand, and a parent is named by the first node or not at all. Both are
read off an invariant of the reading machine. Every block name that the machine has
accepted stands once in what it holds: among the nodes read, in a construct that is open,
or in the tag at hand. And a parent stands nowhere but in front of the outermost nodes.
-/

namespace Stencil

/-- A parent is named by the first node of a body or not at all. Behind it none is named at any
depth. -/
def Node.ParentFirst (nodes : List Node) : Prop :=
  Node.Orphan nodes ∨ ∃ parent rest, nodes = .inherits parent :: rest ∧ Node.Orphan rest

namespace Template

/-- The names of the blocks in a construct that is open, its own name included. The nodes at hand
are not yet in it. -/
def Opened.blockNames : Opened → List String
  | .loop _ _ => []
  | .case cases _ | .otherwise cases => (Node.blocksOfCases cases).map Prod.fst
  | .block name => [name]

/-- The names of the blocks on a level. -/
def Level.blockNames (level : Level) : List String :=
  level.opened.blockNames ++ Node.blockNames level.before

/-- The names of the blocks in the cases of a choice that wait for a condition. -/
def Purpose.blockNames : Purpose → List String
  | .case _ cases => (Node.blocksOfCases cases).map Prod.fst
  | .output | .loop .. => []

/-- The names of the blocks in what the end of a tag completes. -/
def Ending.blockNames : Ending → List String
  | .add node => Node.blockNames [node]
  | .descend opened _ => opened.blockNames

/-- The names of the blocks in the tag at hand. -/
def Stage.blockNames : Stage → List String
  | .expression purpose _ => purpose.blockNames
  | .blockEnd name body => name :: Node.blockNames body
  | .close ending => ending.blockNames
  | .content | .statement | .loopTarget _ | .loopIn .. | .blockName _ | .reference _ => []

/-- The names of all blocks that the machine holds, wherever they are on their way into the tree.
What a step takes from one of these places it puts into another, so the names can be counted. -/
def Reading.blockNames (reading : Reading) : List String :=
  reading.stage.blockNames ++ Node.blockNames reading.nodes ++
    reading.levels.flatMap Level.blockNames

/-- No parent is named in the finished cases of an open choice. The nodes of the case that is still
open are asked for on their own. -/
def Opened.Orphan : Opened → Prop
  | .case cases _ | .otherwise cases => ∀ case ∈ cases, Node.Orphan case.2
  | .loop .. | .block _ => True

/-- Around the nodes at hand no parent is named but by the first node of all. Only the outermost
nodes may begin with one. -/
def Rooted : List Node → List Level → Prop
  | nodes, [] => Node.ParentFirst nodes
  | nodes, level :: outer =>
    Node.Orphan nodes ∧ level.opened.Orphan ∧ Rooted level.before outer

/-- The tag at hand names a parent only where no other node has been read. What the tag carries from
a construct names none. -/
def Stage.Fits (nodes : List Node) (levels : List Level) : Stage → Prop
  | .reference .parent => nodes = [] ∧ levels = []
  | .expression (.case _ cases) _ => ∀ case ∈ cases, Node.Orphan case.2
  | .blockEnd _ body => Node.Orphan body
  | .close (.add node) =>
    Node.Orphan [node] ∨ nodes = [] ∧ levels = [] ∧ ∃ parent, node = .inherits parent
  | .close (.descend opened _) => opened.Orphan
  | _ => True

namespace Reading

/-- What holds of the machine before every token: accepted block names are distinct, each of them is
held once and nothing else is, and parents stand in front. Names are counted, because a tag takes
over the blocks of a construct in another order. -/
structure Sound (reading : Reading) : Prop where
  distinct : reading.blocks.Nodup
  tallied : ∀ name, reading.blockNames.count name = reading.blocks.count name
  rooted : Rooted reading.nodes reading.levels
  fits : reading.stage.Fits reading.nodes reading.levels

variable {reading : Reading}

/-- At the start nothing is held and no name is accepted. -/
theorem sound_start (name : Option String) : Sound (start name) where
  distinct := List.nodup_nil
  tallied := fun _ => rfl
  rooted := Or.inl Node.orphan_nil
  fits := trivial

/-- Another stage with the same blocks in it keeps the invariant, as long as it names no parent
where it may not. -/
theorem sound_reach (sound : Sound reading) {stage : Stage}
    (names : stage.blockNames = reading.stage.blockNames)
    (fits : stage.Fits reading.nodes reading.levels) : Sound (reading.reach stage) where
  distinct := sound.distinct
  tallied := by
    intro name
    simpa only [blockNames, reach, names] using sound.tallied name
  rooted := sound.rooted
  fits := fits

/-- The nodes at hand may be followed by a node without parents, and the first one of all may name a
parent. -/
theorem rooted_add {nodes : List Node} {levels : List Level} {node : Node}
    (rooted : Rooted nodes levels) (fits : (Stage.close (.add node)).Fits nodes levels) :
    Rooted (nodes ++ [node]) levels := by
  rcases fits with orphan | ⟨rfl, rfl, parent, rfl⟩
  · cases levels with
    | nil =>
      rcases rooted with without | ⟨parent, rest, rfl, without⟩
      · exact Or.inl (Node.orphan_append without orphan)
      · exact Or.inr ⟨parent, rest ++ [node], rfl, Node.orphan_append without orphan⟩
    | cons level outer => exact ⟨Node.orphan_append rooted.1 orphan, rooted.2⟩
  · exact Or.inr ⟨parent, [], rfl, Node.orphan_nil⟩

/-- A node that has been completed keeps the invariant. Its blocks were in the tag before and are
among the nodes now. -/
theorem sound_add (sound : Sound reading) {node : Node}
    (names : Node.blockNames [node] = reading.stage.blockNames)
    (fits : (Stage.close (.add node)).Fits reading.nodes reading.levels) :
    Sound (reading.add node) where
  distinct := sound.distinct
  tallied := by
    intro name
    have before := sound.tallied name
    simp only [blockNames, ← names, List.count_append] at before
    simp only [blockNames, add, Stage.blockNames, Node.blockNames, Node.blocks_of_append,
      List.map_append, List.nil_append, List.count_append] at before ⊢
    omega
  rooted := rooted_add sound.rooted fits
  fits := trivial

/-- A construct that is begun keeps the invariant. The nodes at hand come to stand in front of it,
and there are none in it yet. -/
theorem sound_descend (sound : Sound reading) {opened : Opened} {place : Place}
    (names : opened.blockNames = reading.stage.blockNames) (orphan : opened.Orphan) :
    Sound (reading.descend opened place) where
  distinct := sound.distinct
  tallied := by
    intro name
    have before := sound.tallied name
    simp only [blockNames, ← names, List.count_append] at before
    simp only [blockNames, descend, Stage.blockNames, Node.blockNames, Node.blocks_of_nil,
      List.map_nil, List.nil_append, List.flatMap_cons, Level.blockNames,
      List.count_append] at before ⊢
    omega
  rooted := ⟨Node.orphan_nil, orphan, sound.rooted⟩
  fits := trivial

/-- What the end of a tag completes keeps the invariant: it is a node that is added or a construct
that is begun. -/
theorem sound_complete (sound : Sound reading) {ending : Ending}
    (names : ending.blockNames = reading.stage.blockNames)
    (fits : (Stage.close ending).Fits reading.nodes reading.levels) :
    Sound (reading.complete ending) := by
  cases ending with
  | add node => exact sound_add sound names fits
  | descend opened place => exact sound_descend sound names fits

/-- Leaving a construct keeps the invariant if the new stage takes over the blocks of the construct.
The premise counts them, name by name, for their order may change. -/
theorem sound_ascend (sound : Sound reading) {level : Level} {outer : List Level} {stage : Stage}
    (levels : reading.levels = level :: outer) (empty : reading.stage.blockNames = [])
    (names : ∀ name, stage.blockNames.count name =
      level.opened.blockNames.count name + (Node.blockNames reading.nodes).count name)
    (fits : stage.Fits level.before outer) : Sound (reading.ascend level outer stage) where
  distinct := sound.distinct
  tallied := by
    intro name
    have before := sound.tallied name
    have taken := names name
    simp only [blockNames, empty, levels, List.nil_append, List.flatMap_cons, Level.blockNames,
      List.count_append] at before
    simp only [blockNames, ascend, List.count_append]
    omega
  rooted := by
    have rooted := sound.rooted
    rw [levels] at rooted
    exact rooted.2.2
  fits := fits

/-- Leaving a case puts its nodes behind the cases before it; no other block comes in. -/
theorem count_cases_snoc (cases : List (Expr × List Node)) (condition : Expr)
    (nodes : List Node) (name : String) :
    ((Node.blocksOfCases (cases ++ [(condition, nodes)])).map Prod.fst).count name =
      ((Node.blocksOfCases cases).map Prod.fst).count name +
        (Node.blockNames nodes).count name := by
  simp [Node.blocks_of_cases, Node.blockNames, List.flatMap_append]

/-- A word that ends or continues a construct keeps the invariant. The cases are those of the word
and of the construct. Nothing in a construct names a parent, so what is made of it names none. -/
theorem sound_terminate {after : Reading} {word : Keyword} (sound : Sound reading)
    (empty : reading.stage.blockNames = []) (read : reading.terminate word = .ok after) :
    Sound after := by
  unfold terminate at read
  cases around : reading.levels with
  | nil => simp [around] at read
  | cons level outer =>
    obtain ⟨orphan, inOpened, rooted⟩ : Rooted reading.nodes (level :: outer) :=
      around ▸ sound.rooted
    -- A choice that goes on or ends has the nodes at hand as its last case.
    have orphanCases {cases : List (Expr × List Node)} {condition : Expr}
        (before : ∀ case ∈ cases, Node.Orphan case.2) :
        ∀ case ∈ cases ++ [(condition, reading.nodes)], Node.Orphan case.2 := by
      intro case member
      rcases List.mem_append.mp member with earlier | last
      · exact before case earlier
      · rw [List.mem_singleton.mp last]
        exact orphan
    cases opened : level.opened with
    | loop target sequence =>
      simp only [around, opened] at read
      split at read <;> cases read
      refine sound_ascend sound around empty (fun name => ?_) (Or.inl (Node.orphan_loop orphan))
      simp [opened, Stage.blockNames, Ending.blockNames, Opened.blockNames, Node.blockNames]
    | block blockName =>
      simp only [around, opened] at read
      split at read <;> cases read
      refine sound_ascend sound around empty (fun name => ?_) orphan
      simp [opened, Stage.blockNames, Opened.blockNames, List.count_cons, Nat.add_comm]
    | case cases condition =>
      have before : ∀ case ∈ cases, Node.Orphan case.2 := by
        simpa [opened, Opened.Orphan] using inOpened
      simp only [around, opened] at read
      split at read <;> cases read
      · refine sound_ascend sound around empty (fun name => ?_) (orphanCases before)
        simp only [opened, Stage.blockNames, Purpose.blockNames, Opened.blockNames]
        exact count_cases_snoc cases condition reading.nodes name
      · refine sound_ascend sound around empty (fun name => ?_) (orphanCases before)
        simp only [opened, Stage.blockNames, Ending.blockNames, Opened.blockNames]
        exact count_cases_snoc cases condition reading.nodes name
      · refine sound_ascend sound around empty (fun name => ?_)
          (Or.inl (Node.orphan_choice (orphanCases before) (by simp)))
        simp [opened, Stage.blockNames, Ending.blockNames, Opened.blockNames, Node.blockNames,
          Node.blocks_of_cases]
    | otherwise cases =>
      have before : ∀ case ∈ cases, Node.Orphan case.2 := by
        simpa [opened, Opened.Orphan] using inOpened
      simp only [around, opened] at read
      split at read <;> cases read
      refine sound_ascend sound around empty (fun name => ?_)
        (Or.inl (Node.orphan_choice before (by simpa using orphan)))
      simp [opened, Stage.blockNames, Ending.blockNames, Opened.blockNames, Node.blockNames,
        Node.blocks_of_cases]

/-- The word that begins a statement keeps the invariant. A parent may only be named where nothing
has been read, and this is what is checked here; the stage keeps it until the name of the parent has
been read. -/
theorem sound_statement {after : Reading} {place : Place} {kind : Token.Kind}
    (sound : Sound reading) (empty : reading.stage.blockNames = [])
    (read : reading.statement place kind = .ok after) : Sound after := by
  unfold statement at read
  split at read
  · cases read
    exact sound_reach sound empty.symm trivial
  · cases read
    exact sound_reach sound empty.symm (by simp [Stage.Fits])
  · cases read
    exact sound_reach sound empty.symm trivial
  · split at read
    · cases read
    · split at read
      · next outermost =>
        cases read
        obtain ⟨levels, nodes⟩ : reading.levels = [] ∧ reading.nodes = [] := by
          simpa using outermost
        have reached : Sound (reading.reach (.reference .parent)) :=
          sound_reach sound empty.symm ⟨nodes, levels⟩
        exact ⟨reached.distinct, reached.tallied, reached.rooted, reached.fits⟩
      · cases read
  · cases read
    exact sound_reach sound empty.symm trivial
  · split at read
    · exact sound_terminate sound empty read
    · cases read
  · cases read

/-- An expression that is being read does not matter to the tag it stands in. -/
theorem expression_fits {nodes : List Node} {levels : List Level} {purpose : Purpose}
    {inner other : Expr.Reading} (fits : (Stage.expression purpose inner).Fits nodes levels) :
    (Stage.expression purpose other).Fits nodes levels := by
  cases purpose <;> exact fits

/-- What an expression completes has the blocks of the tag it stands in. -/
theorem ending_names (e : Expr) (purpose : Purpose) :
    (purpose.ending e).blockNames = purpose.blockNames := by
  cases purpose <;> rfl

/-- What an expression completes names no parent. -/
theorem ending_fits {nodes : List Node} {levels : List Level} {purpose : Purpose}
    {inner : Expr.Reading} {e : Expr} (fits : (Stage.expression purpose inner).Fits nodes levels) :
    (Stage.close (purpose.ending e)).Fits nodes levels := by
  cases purpose with
  | output => exact Or.inl (by intro parent; simp)
  | loop place target => trivial
  | case place cases => exact fits

/-- One token keeps the invariant. The cases are those of the stages; a name of a block is accepted
only if it is new, which keeps names distinct, and whatever a stage holds goes on into the next one
or into the nodes. -/
theorem sound_next {after : Reading} {token : Token} (sound : Sound reading)
    (read : reading.next token = .ok after) : Sound after := by
  have fits := sound.fits
  unfold next at read
  cases stage : reading.stage with
  | content =>
    have empty : reading.stage.blockNames = [] := by rw [stage]; rfl
    simp only [stage] at read
    -- A text becomes a node at once, and what opens a tag only says where the machine is.
    split at read <;> cases read
    · exact sound_add sound empty.symm (Or.inl (by intro parent; simp))
    · exact sound_reach sound empty.symm trivial
    · exact sound_reach sound empty.symm trivial
  | statement =>
    have empty : reading.stage.blockNames = [] := by rw [stage]; rfl
    simp only [stage] at read
    exact sound_statement sound empty read
  | loopTarget place =>
    simp only [stage] at read
    split at read <;> cases read
    exact sound_reach sound (by rw [stage]; rfl) trivial
  | loopIn place target =>
    simp only [stage] at read
    split at read <;> cases read
    exact sound_reach sound (by rw [stage]; rfl) trivial
  | blockName place =>
    simp only [stage] at read
    split at read
    · next name _ =>
      split at read <;> cases read
      next fresh =>
      -- The name joins those that are taken, and is held by what is open, so the tally still holds.
      refine ⟨List.nodup_cons.mpr ⟨fresh, sound.distinct⟩, fun other => ?_, sound.rooted, trivial⟩
      have before := sound.tallied other
      simp only [blockNames, stage, Stage.blockNames, List.nil_append] at before
      simp only [blockNames, Stage.blockNames, Ending.blockNames, Opened.blockNames,
        List.cons_append, List.count_cons, List.nil_append, before]
    · cases read
  | reference link =>
    simp only [stage] at read
    split at read
    · split at read <;> cases read
      cases link with
      | parent =>
        -- Nothing was read before the parent, which is what the stage keeps for this moment.
        simp only [stage, Stage.Fits] at fits
        exact sound_reach sound (by rw [stage]; rfl) (Or.inr ⟨fits.1, fits.2, _, rfl⟩)
      | embedded =>
        exact sound_reach sound (by rw [stage]; rfl) (Or.inl (by intro parent; simp [Link.node]))
    · cases read
  | expression purpose inner =>
    simp only [stage] at read
    split at read
    · cases read
    · cases read
      exact sound_reach sound (by rw [stage]; rfl) (expression_fits (stage ▸ fits))
    · split at read <;> cases read
      refine sound_complete sound ?_ (ending_fits (stage ▸ fits))
      rw [stage]
      exact ending_names _ purpose
  | blockEnd name body =>
    -- With a name behind the end the closing token is still to come; without one the block is done.
    have orphan : Node.Orphan body := by
      rw [stage] at fits
      exact fits
    have names : Node.blockNames [.block name body] = reading.stage.blockNames := by
      rw [stage]
      simp [Node.blockNames, Stage.blockNames]
    simp only [stage] at read
    split at read
    · split at read <;> cases read
      exact sound_reach sound names (Or.inl (Node.orphan_block orphan))
    · split at read <;> cases read
      exact sound_add sound names (Or.inl (Node.orphan_block orphan))
  | close ending =>
    simp only [stage] at read
    split at read <;> cases read
    exact sound_complete sound (by rw [stage]; rfl) (stage ▸ fits)

/-- A run that succeeds begins with a token that fits. -/
theorem run_cons_ok {reached : Reading} {token : Token} {rest : List Token}
    (ran : reading.run (token :: rest) = .ok reached) :
    ∃ after, reading.next token = .ok after ∧ after.run rest = .ok reached := by
  unfold run at ran
  split at ran
  · next after read => exact ⟨after, read, ran⟩
  · cases ran

/-- Every run keeps the invariant. The induction is on the tokens. -/
theorem sound_run {after : Reading} {tokens : List Token} (sound : Sound reading)
    (ran : reading.run tokens = .ok after) : Sound after := by
  induction tokens generalizing reading with
  | nil =>
    cases ran
    exact sound
  | cons token rest inductionHypothesis =>
    obtain ⟨advanced, read, ran⟩ := run_cons_ok ran
    exact inductionHypothesis (sound_next sound read) ran

/-- The machine may end between tags with nothing open. -/
theorem result_ok {nodes : List Node} : reading.result = .ok nodes ↔
    reading.stage = .content ∧ reading.levels = [] ∧ reading.nodes = nodes := by
  unfold result
  split <;> simp_all

/-- What the machine holds where it may end is held by its nodes, since nothing is open and no tag
is half read. -/
theorem ended_names (content : reading.stage = .content) (outside : reading.levels = []) :
    reading.blockNames = Node.blockNames reading.nodes := by
  simp [blockNames, content, outside, Stage.blockNames]

/-- Where the machine may end, its nodes have distinct block names and the parent first. No
construct is open then, so all names that have been counted are those of the nodes. -/
theorem result_shape {nodes : List Node} (sound : Sound reading)
    (ended : reading.result = .ok nodes) :
    (Node.blockNames nodes).Nodup ∧ Node.ParentFirst nodes := by
  obtain ⟨content, outside, rfl⟩ := result_ok.mp ended
  have rooted := sound.rooted
  rw [outside] at rooted
  refine ⟨List.nodup_iff_count_le_one.mpr fun name => ?_, rooted⟩
  rw [← ended_names content outside, sound.tallied name]
  exact List.nodup_iff_count_le_one.mp sound.distinct name

end Reading

/-- A source is read by a run over all its tokens that may end where it does. With this every
property of runs is one of sources. -/
theorem nodesOfSource_ok {name : Option String} {trim : Bool} {source : String}
    {nodes : List Node} : nodesOfSource name trim source = .ok nodes ↔
      ∃ reading, (Reading.start name).run (Token.Stream.ofSource trim source).tokens = .ok reading ∧
        reading.result = .ok nodes := by
  unfold nodesOfSource nodesOfStream
  constructor
  · intro read
    split at read
    · cases read
    · next reading ran =>
      split at read <;> cases read
      next ended => exact ⟨reading, ran, ended⟩
  · rintro ⟨reading, ran, ended⟩
    simp only [ran, ended]

/-- A source that can be read gives distinct names to its blocks, at whatever depth they
stand, and names a parent in front or not at all. -/
theorem nodes_shape {name : Option String} {trim : Bool} {source : String} {nodes : List Node}
    (read : nodesOfSource name trim source = .ok nodes) :
    (Node.blockNames nodes).Nodup ∧ Node.ParentFirst nodes := by
  obtain ⟨reading, ran, ended⟩ := nodesOfSource_ok.mp read
  exact Reading.result_shape (Reading.sound_run (Reading.sound_start name) ran) ended

/-- The shape of a template that has been read: its own name, blocks with distinct names, and a
parent in front or not at all. -/
theorem source_shape {name : String} {trim : Bool} {source : String} {template : Template}
    (read : ofSource name trim source = .ok template) :
    template.name = name ∧ (Node.blockNames template.nodes).Nodup ∧
      Node.ParentFirst template.nodes := by
  unfold ofSource at read
  cases nodes : nodesOfSource (some name) trim source with
  | error refusal =>
    rw [nodes] at read
    cases read
  | ok found =>
    rw [nodes] at read
    cases read
    exact ⟨rfl, nodes_shape nodes⟩

end Template

end Stencil
