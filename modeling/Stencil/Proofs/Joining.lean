import Stencil.Proofs.Refusals
import Stencil.Proofs.Seams

/-!
# Templates put together

Where the sources of two templates are put together behind a tag, the nodes are put together. The
tokens of the second source come as if it stood alone, and the machine reads them as if it had just
begun: what has been read before lies beneath everything that is open, where reading never looks
except to see whether it is there, which names of blocks are taken, and whether a parent has been
named. So a run that names no parent, and no block that has been named before, goes on from what has
been read as it does from the start.
-/

namespace Stencil.Template

open Token (Kind Stream)

/-- Nodes at hand, which come behind others if no construct is open around them. Inside a construct
they are part of a body, and what was read before the construct is found further out. -/
def onto (before nodes : List Node) (around : List Level) : List Node :=
  if around.isEmpty then before ++ nodes else nodes

/-- The nodes of the outermost level come behind others. Only the last level of the list has nothing
around it, so it is the only one whose nodes change. -/
def grounded (before : List Node) : List Level → List Level
  | [] => []
  | level :: outer =>
    { level with before := onto before level.before outer } :: grounded before outer

/-- The outermost nodes: those at hand if nothing is open, and otherwise those that came before the
outermost construct. -/
def outermost : List Node → List Level → List Node
  | nodes, [] => nodes
  | _, level :: outer => outermost level.before outer

/-- What is among the outermost nodes stays there when a node is added. Under an open construct the
new node goes into a body, and the outermost nodes are not touched at all. -/
theorem outermost_add {nodes : List Node} {levels : List Level} (node : Node) {other : Node}
    (member : other ∈ outermost nodes levels) : other ∈ outermost (nodes ++ [node]) levels := by
  cases levels with
  | nil => exact List.mem_append_left _ member
  | cons level outer => exact member

/-- A tag that is about to name a parent. Between the word and the end of its tag a parent has been
seen that no node names yet. -/
def Stage.NamesParent (stage : Stage) : Prop :=
  stage = .reference .parent ∨ ∃ parent, stage = .close (.add (.inherits parent))

namespace Reading

/-- The state of reading where what an earlier state holds has been read before. The stage and the
open constructs are those of the later reading; only what lies beneath them is new. -/
def upon (reading earlier : Reading) : Reading :=
  { reading with
    nodes := onto earlier.nodes reading.nodes reading.levels
    levels := grounded earlier.nodes reading.levels
    blocks := reading.blocks ++ earlier.blocks
    inherited := earlier.inherited }

section Upon

variable (reading earlier : Reading)

/-- A node that is added lands where it would land with nothing beneath, whether a construct is open
or not. -/
theorem add_upon (node : Node) :
    (reading.add node).upon earlier = (reading.upon earlier).add node := by
  have behind : onto earlier.nodes (reading.nodes ++ [node]) reading.levels =
      onto earlier.nodes reading.nodes reading.levels ++ [node] := by
    unfold onto
    split
    · exact (List.append_assoc _ _ _).symm
    · rfl
  simp only [upon, add, behind]

/-- The end of a tag completes it with the same ending, since an ending adds a node or opens a
construct and looks at nothing beneath it. -/
theorem complete_upon (ending : Ending) :
    (reading.complete ending).upon earlier = (reading.upon earlier).complete ending := by
  cases ending with
  | add node => exact add_upon reading earlier node
  | descend opened place => rfl

/-- How a construct is ended or continued does not depend on what lies beneath it. With nothing open
both readings refuse, which the premise that one of them went on excludes. -/
theorem terminate_upon {after : Reading} {word : Keyword}
    (read : reading.terminate word = .ok after) :
    (reading.upon earlier).terminate word = .ok (after.upon earlier) := by
  unfold terminate at read ⊢
  cases around : reading.levels with
  | nil => simp [around] at read
  | cons level outer =>
    obtain ⟨opened, place, before⟩ := level
    have inside : (reading.upon earlier).nodes = reading.nodes := by
      simp [upon, onto, around]
    have beneath : (reading.upon earlier).levels =
        ⟨opened, place, onto earlier.nodes before outer⟩ :: grounded earlier.nodes outer := by
      simp [upon, grounded, around]
    simp only [around] at read
    simp only [beneath, inside]
    cases opened <;> simp only at read ⊢
    · split at read <;> cases read
      next fits => rw [if_pos fits]; rfl
    · split at read <;> cases read <;> rfl
    · split at read <;> cases read
      next fits => rw [if_pos fits]; rfl
    · split at read <;> cases read
      next fits => rw [if_pos fits]; rfl

/-- The word that begins a statement leads on as it does with nothing beneath. The one word that
asks what has been read is the one that names a parent, and `orphan` excludes it. -/
theorem statement_upon {after : Reading} {place : Place} {kind : Kind}
    (read : reading.statement place kind = .ok after) (orphan : after.inherited = false) :
    (reading.upon earlier).statement place kind = .ok (after.upon earlier) := by
  unfold statement at read ⊢
  split at read
  · cases read; rfl
  · cases read; rfl
  · cases read; rfl
  · split at read
    · cases read
    · split at read <;> cases read
      cases orphan
  · cases read; rfl
  · next word _ _ _ _ _ =>
    split at read
    · next ends =>
      simp only [if_pos ends]
      exact terminate_upon reading earlier read
    · cases read
  · cases read

/-- A token that names no parent, and no block that has been named before, leads on from what has
been read as it does without it. The cases are those of the stages; `apart` is used where a block
takes its name, and everywhere else the machine does not look beneath what is open. -/
theorem next_upon {after : Reading} {token : Token} (read : reading.next token = .ok after)
    (orphan : after.inherited = false) (apart : ∀ name ∈ after.blocks, name ∉ earlier.blocks) :
    (reading.upon earlier).next token = .ok (after.upon earlier) := by
  have same : (reading.upon earlier).stage = reading.stage := rfl
  unfold next at read ⊢
  rw [same]
  cases stage : reading.stage with
  | content =>
    simp only [stage] at read ⊢
    split at read <;> cases read
    · exact congrArg Except.ok (add_upon reading earlier _).symm
    · rfl
    · rfl
  | statement =>
    simp only [stage] at read ⊢
    exact statement_upon reading earlier read orphan
  | loopTarget place =>
    simp only [stage] at read ⊢
    split at read <;> cases read
    rfl
  | loopIn place target =>
    simp only [stage] at read ⊢
    split at read <;> cases read
    next fits => exact if_pos fits
  | blockName place =>
    simp only [stage] at read ⊢
    split at read
    · next name _ =>
      split at read <;> cases read
      next fresh =>
      -- Beneath lie the names of the earlier part as well, and the new one is none of them.
      have free : name ∉ reading.blocks ++ earlier.blocks :=
        fun member => (List.mem_append.mp member).elim fresh (apart name List.mem_cons_self)
      exact if_neg free
    · cases read
  | reference link =>
    simp only [stage] at read ⊢
    split at read
    · split at read <;> cases read
      next found =>
      -- References are resolved by the name of the template, which both parts share.
      rw [show (reading.upon earlier).name = reading.name from rfl, found]
      rfl
    · cases read
  | expression purpose inner =>
    simp only [stage] at read ⊢
    split at read
    · cases read
    · cases read
      rfl
    · split at read <;> cases read
      next fits =>
      rw [if_pos fits]
      exact congrArg Except.ok (complete_upon reading earlier _).symm
  | blockEnd name body =>
    simp only [stage] at read ⊢
    split at read
    · split at read <;> cases read
      next fits => exact if_pos fits
    · split at read <;> cases read
      next fits =>
      rw [if_pos fits]
      exact congrArg Except.ok (add_upon reading earlier _).symm
  | close ending =>
    simp only [stage] at read ⊢
    split at read <;> cases read
    next fits =>
    rw [if_pos fits]
    exact congrArg Except.ok (complete_upon reading earlier _).symm

end Upon

/-- What a token can do to the state. A parent that is about to be named is named by what comes
next, which every constructor says in its own way: it keeps such a stage, completes it with the
parent, or cannot happen there. -/
inductive Moves (reading : Reading) : Reading → Prop where
  | reach (stage : Stage) (names : reading.stage.NamesParent → stage.NamesParent) :
    Moves reading (reading.reach stage)
  | complete (ending : Ending)
      (names : reading.stage.NamesParent → ∃ parent, ending = .add (.inherits parent)) :
    Moves reading (reading.complete ending)
  | ascend {level : Level} {outer : List Level} (stage : Stage)
      (around : reading.levels = level :: outer) (plain : ¬reading.stage.NamesParent) :
    Moves reading (reading.ascend level outer stage)
  | take (name : String) (stage : Stage) (plain : ¬reading.stage.NamesParent) :
    Moves reading { reading with blocks := name :: reading.blocks, stage }
  | inherit (outermost : reading.levels = []) :
    Moves reading { reading with inherited := true, stage := .reference .parent }

/-- What reading never takes back: the template keeps its name, names of blocks stay taken, and a
parent stays named. Read backwards, it says what must have been so earlier on a way that ends
well. -/
structure Grown (reading after : Reading) : Prop where
  name : after.name = reading.name
  blocks : reading.blocks <:+ after.blocks
  orphan : after.inherited = false → reading.inherited = false

section Moves

variable {reading after : Reading}

/-- A tag that is not about to name a parent may go on in any way. Nothing has to be kept by the
stage that it reaches. -/
theorem moves_on (plain : ¬reading.stage.NamesParent) (stage : Stage) :
    Moves reading (reading.reach stage) :=
  .reach stage fun names => absurd names plain

/-- A tag that is not about to name a parent may be completed by any ending. -/
theorem moves_complete (plain : ¬reading.stage.NamesParent) (ending : Ending) :
    Moves reading (reading.complete ending) :=
  .complete ending fun names => absurd names plain

/-- Ending or continuing a construct leaves it, or goes on within the same tag. The cases are those
of the word and of the construct that is open; all of them take the construct off and differ in the
stage behind it. -/
theorem terminate_moves {word : Keyword} (plain : ¬reading.stage.NamesParent)
    (read : reading.terminate word = .ok after) : Moves reading after := by
  unfold terminate at read
  split at read
  · cases read
  · next level outer around =>
    simp only at read
    split at read
    · split at read <;> cases read
      exact .ascend _ around plain
    · split at read <;> cases read
      exact .ascend _ around plain
    · split at read <;> cases read <;> exact .ascend _ around plain
    · split at read <;> cases read
      exact .ascend _ around plain

/-- The word that begins a statement decides how its tag goes on, which is one of the moves. It is
the only place where a parent comes to be seen, and only where nothing has been read before. -/
theorem statement_moves {place : Place} {kind : Kind} (plain : ¬reading.stage.NamesParent)
    (read : reading.statement place kind = .ok after) : Moves reading after := by
  unfold statement at read
  split at read
  · cases read
    exact moves_on plain _
  · cases read
    exact moves_on plain _
  · cases read
    exact moves_on plain _
  · split at read
    · cases read
    · split at read <;> cases read
      next first =>
      rw [Bool.and_eq_true, List.isEmpty_iff] at first
      exact .inherit first.1
  · cases read
    exact moves_on plain _
  · split at read
    · exact terminate_moves plain read
    · cases read
  · cases read

/-- Every token that fits does one of these things. So what each of them keeps is kept by reading,
and no later proof goes through the stages again. The tags that name a parent come first, for all
others are alike in that they name none. -/
theorem next_moves {token : Token} (read : reading.next token = .ok after) :
    Moves reading after := by
  unfold next at read
  cases stage : reading.stage with
  | reference link =>
    simp only [stage] at read
    split at read
    · split at read <;> cases read
      cases link with
      | parent => exact .reach _ fun _ => .inr ⟨_, rfl⟩
      | embedded => exact moves_on (by simp [stage, Stage.NamesParent]) _
    · cases read
  | close ending =>
    simp only [stage] at read
    split at read <;> cases read
    refine .complete ending fun names => ?_
    simpa [stage, Stage.NamesParent] using names
  -- No other tag names a parent.
  | content =>
    have plain : ¬reading.stage.NamesParent := by simp [stage, Stage.NamesParent]
    simp only [stage] at read
    split at read <;> cases read
    · exact moves_complete plain (.add _)
    · exact moves_on plain _
    · exact moves_on plain _
  | statement =>
    have plain : ¬reading.stage.NamesParent := by simp [stage, Stage.NamesParent]
    simp only [stage] at read
    exact statement_moves plain read
  | loopTarget place =>
    have plain : ¬reading.stage.NamesParent := by simp [stage, Stage.NamesParent]
    simp only [stage] at read
    split at read <;> cases read
    exact moves_on plain _
  | loopIn place target =>
    have plain : ¬reading.stage.NamesParent := by simp [stage, Stage.NamesParent]
    simp only [stage] at read
    split at read <;> cases read
    exact moves_on plain _
  | blockName place =>
    have plain : ¬reading.stage.NamesParent := by simp [stage, Stage.NamesParent]
    simp only [stage] at read
    split at read
    · split at read <;> cases read
      exact .take _ _ plain
    · cases read
  | expression purpose inner =>
    have plain : ¬reading.stage.NamesParent := by simp [stage, Stage.NamesParent]
    simp only [stage] at read
    split at read
    · cases read
    · cases read
      exact moves_on plain _
    · split at read <;> cases read
      exact moves_complete plain _
  | blockEnd name body =>
    have plain : ¬reading.stage.NamesParent := by simp [stage, Stage.NamesParent]
    simp only [stage] at read
    split at read
    · split at read <;> cases read
      exact moves_on plain _
    · split at read <;> cases read
      exact moves_complete plain (.add _)

/-- None of the moves takes anything back: a name of a block is added in front, and no move sets the
mark of a parent to false. -/
theorem moves_grow (moves : Moves reading after) : Grown reading after := by
  cases moves with
  | reach stage names => exact ⟨rfl, List.suffix_rfl, id⟩
  | complete ending names => cases ending <;> exact ⟨rfl, List.suffix_rfl, id⟩
  | ascend stage around plain => exact ⟨rfl, List.suffix_rfl, id⟩
  | take name stage plain => exact ⟨rfl, List.suffix_cons name _, id⟩
  | inherit outside => exact ⟨rfl, List.suffix_rfl, nofun⟩

/-- A parent that has been seen is among the outermost nodes or about to be. In the first case no
construct is open, so the node will be added where it can be found. -/
def Named (reading : Reading) : Prop :=
  reading.inherited = true → reading.levels = [] ∧ reading.stage.NamesParent ∨
    ∃ parent, .inherits parent ∈ outermost reading.nodes reading.levels

/-- At the start no parent has been seen, so there is none to be found. -/
theorem named_start (name : Option String) : Named (start name) := by
  intro inherited
  cases inherited

/-- One token keeps a parent named. It was among the outermost nodes, where it stays, or about to
be, and then the stage goes on to name it or the ending adds the node. -/
theorem named_moves (named : Named reading) (moves : Moves reading after) : Named after := by
  intro inherited
  cases moves with
  | reach stage names => exact (named inherited).imp_left (And.imp_right names)
  | complete ending names =>
    cases ending with
    | add node =>
      rcases named inherited with ⟨outside, naming⟩ | ⟨parent, member⟩
      · obtain ⟨parent, same⟩ := names naming
        obtain rfl := Ending.add.inj same
        exact .inr ⟨parent, by simp [complete, add, outside, outermost]⟩
      · exact .inr ⟨parent, outermost_add node member⟩
    | descend opened place =>
      refine .inr ((named inherited).resolve_left fun naming => ?_)
      obtain ⟨parent, same⟩ := names naming.2
      cases same
  | ascend stage around plain =>
    have among := (named inherited).resolve_left fun naming => plain naming.2
    rw [around] at among
    exact .inr among
  | take name stage plain =>
    exact .inr ((named inherited).resolve_left fun naming => plain naming.2)
  | inherit outside => exact .inl ⟨outside, .inl rfl⟩

end Moves

section Runs

variable {reading reached : Reading} {tokens : List Token}

/-- Every run takes nothing back. The induction is on the tokens; the first of them is one of the
moves. -/
theorem run_grows (ran : reading.run tokens = .ok reached) : Grown reading reached := by
  induction tokens generalizing reading with
  | nil =>
    cases ran
    exact ⟨rfl, List.suffix_rfl, id⟩
  | cons token rest inductionHypothesis =>
    obtain ⟨after, read, ran⟩ := run_cons_ok ran
    have here := moves_grow (next_moves read)
    have later := inductionHypothesis ran
    exact ⟨later.name.trans here.name, here.blocks.trans later.blocks, here.orphan ∘ later.orphan⟩

/-- Every run keeps a parent named. This is the invariant that one token keeps, by induction on the
tokens. -/
theorem named_run (named : Named reading) (ran : reading.run tokens = .ok reached) :
    Named reached := by
  induction tokens generalizing reading with
  | nil =>
    cases ran
    exact named
  | cons token rest inductionHypothesis =>
    obtain ⟨after, read, ran⟩ := run_cons_ok ran
    exact inductionHypothesis (named_moves named (next_moves read)) ran

/-- A run that names no parent, and no block that has been named before, goes on from what has been
read as it does without it. The two premises are about the state that is reached: since reading
takes nothing back, they hold of every state on the way. -/
theorem run_upon (earlier : Reading) (ran : reading.run tokens = .ok reached)
    (orphan : reached.inherited = false) (apart : ∀ name ∈ reached.blocks, name ∉ earlier.blocks) :
    (reading.upon earlier).run tokens = .ok (reached.upon earlier) := by
  induction tokens generalizing reading with
  | nil =>
    cases ran
    rfl
  | cons token rest inductionHypothesis =>
    obtain ⟨after, read, ran⟩ := run_cons_ok ran
    have grown := run_grows ran
    have fresh : ∀ name ∈ after.blocks, name ∉ earlier.blocks :=
      fun name member => apart name (grown.blocks.subset member)
    rw [run_step (next_upon reading earlier read (grown.orphan orphan) fresh)]
    exact inductionHypothesis ran

end Runs

section Ends

variable {reading : Reading} {nodes : List Node}

/-- Where the machine may end, the names of blocks that are taken are those of its nodes. Nothing is
open there, so no name belongs to a block that is not finished. -/
theorem ended_blocks (sound : Sound reading) (ended : reading.result = .ok nodes) (name : String) :
    name ∈ reading.blocks ↔ name ∈ Node.blockNames nodes := by
  obtain ⟨content, outside, rfl⟩ := result_ok.mp ended
  rw [← ended_names content outside, ← List.count_pos_iff, ← List.count_pos_iff, sound.tallied name]

/-- Where the machine may end, no parent has been seen if none is among its nodes. No tag is half
read there, so a parent that has been seen is no longer about to be named. -/
theorem ended_orphan (named : Named reading) (ended : reading.result = .ok nodes)
    (orphan : ∀ parent, .inherits parent ∉ nodes) : reading.inherited = false := by
  obtain ⟨content, outside, rfl⟩ := result_ok.mp ended
  rw [Bool.eq_false_iff]
  intro inherited
  rcases named inherited with ⟨-, naming⟩ | ⟨parent, member⟩
  · simp [content, Stage.NamesParent] at naming
  · rw [outside] at member
    exact orphan parent member

/-- Where the machine may end without nodes, it is as at the start. This is what lets the second
source name a parent if nothing comes in front of it. -/
theorem ended_empty (sound : Sound reading) (named : Named reading)
    (ended : reading.result = .ok []) : reading = start reading.name := by
  have inherited := ended_orphan named ended fun parent => List.not_mem_nil
  have blocks : reading.blocks = [] := by
    refine List.eq_nil_iff_forall_not_mem.mpr fun name member => ?_
    cases (ended_blocks sound ended name).mp member
  obtain ⟨content, outside, none⟩ := result_ok.mp ended
  obtain ⟨name, nodes, levels, taken, seen, stage⟩ := reading
  subst_vars
  rfl

/-- What has been read before lies beneath the start as it is. So the run over the second source
begins exactly where the run over the first one ended. -/
theorem start_upon (ended : reading.result = .ok nodes) :
    (start reading.name).upon reading = reading := by
  obtain ⟨content, outside, -⟩ := result_ok.mp ended
  obtain ⟨name, nodes, levels, taken, seen, stage⟩ := reading
  subst_vars
  simp [upon, start, onto, grounded]

/-- Where both may end, the nodes come one behind the other. Nothing is open in either of them, so
the earlier nodes come directly in front of the later ones. -/
theorem ended_upon {earlier : Reading} {before : List Node} (first : earlier.result = .ok before)
    (second : reading.result = .ok nodes) :
    (reading.upon earlier).result = .ok (before ++ nodes) := by
  obtain ⟨-, -, rfl⟩ := result_ok.mp first
  obtain ⟨content, outside, rfl⟩ := result_ok.mp second
  refine result_ok.mpr ⟨content, ?_, ?_⟩
  · simp [upon, grounded, outside]
  · simp [upon, onto, outside]

/-- Whether the machine may end, and with which nodes, does not depend on places. The tokens of the
second source stand further down in the joined source, and this is the only difference. -/
theorem ended_alike {other : Reading} (alike : other.unplaced = reading.unplaced)
    (ended : reading.result = .ok nodes) : other.result = .ok nodes := by
  obtain ⟨content, outside, rfl⟩ := result_ok.mp ended
  have stage : other.stage.unplaced = reading.stage.unplaced := congrArg Reading.stage alike
  have levels : other.levels.map Level.unplaced = reading.levels.map Level.unplaced :=
    congrArg Reading.levels alike
  have nodes : other.nodes = reading.nodes := congrArg (fun state => state.nodes) alike
  rw [outside] at levels
  refine result_ok.mpr ⟨?_, List.map_eq_nil_iff.mp levels, nodes⟩
  rw [content] at stage
  cases reached : other.stage with
  | content => rfl
  | _ =>
    rw [reached] at stage
    cases stage

end Ends

end Reading

/-- The tokens of two sources, one behind the other, lead where the nodes are put together. If the
second source names no parent, its run goes on upon the first; if the first source gives no nodes,
its run leads back to the start and nothing has to be assumed. -/
theorem run_joined {name : Option String} {tokens others : List Token} {earlier reached : Reading}
    {before behind : List Node} (ranFirst : (Reading.start name).run tokens = .ok earlier)
    (endedFirst : earlier.result = .ok before)
    (ranSecond : (Reading.start name).run others = .ok reached)
    (endedSecond : reached.result = .ok behind)
    (apart : ∀ block ∈ Node.blockNames before, block ∉ Node.blockNames behind)
    (orphan : (∀ parent, .inherits parent ∉ behind) ∨ before = []) :
    ∃ final, (Reading.start name).run (tokens ++ others) = .ok final ∧
      final.result = .ok (before ++ behind) := by
  have started : earlier.name = name := (Reading.run_grows ranFirst).name
  have sound := Reading.sound_run (Reading.sound_start name) ranFirst
  rw [Reading.run_append ranFirst]
  rcases orphan with orphan | rfl
  · have soundBehind := Reading.sound_run (Reading.sound_start name) ranSecond
    have named := Reading.named_run (Reading.named_start name) ranSecond
    have fresh : ∀ block ∈ reached.blocks, block ∉ earlier.blocks := by
      intro block new taken
      exact apart block ((Reading.ended_blocks sound endedFirst block).mp taken)
        ((Reading.ended_blocks soundBehind endedSecond block).mp new)
    have goesOn := Reading.run_upon earlier ranSecond
      (Reading.ended_orphan named endedSecond orphan) fresh
    rw [← started, Reading.start_upon endedFirst] at goesOn
    exact ⟨_, goesOn, Reading.ended_upon endedFirst endedSecond⟩
  · have named := Reading.named_run (Reading.named_start name) ranFirst
    rw [Reading.ended_empty sound named endedFirst, started]
    exact ⟨reached, ranSecond, endedSecond⟩

/-- If two sources can be read, and the first one ends with a tag or with a comment, reading the one
behind the other gives the nodes of the one behind those of the other, whatever the template is
called: as long as no block has one name in both, and the second source names no parent or no node
comes in front of it. Line ends are kept. -/
theorem nodes_of_joined (name : Option String) {first second : String} {before behind : List Node}
    (readFirst : nodesOfSource name false first = .ok before)
    (readSecond : nodesOfSource name false second = .ok behind)
    (closed : Token.Closed (.text false) first.toList)
    (apart : ∀ block ∈ Node.blockNames before, block ∉ Node.blockNames behind)
    (orphan : (∀ parent, .inherits parent ∉ behind) ∨ before = []) :
    nodesOfSource name false (first ++ second) = .ok (before ++ behind) := by
  obtain ⟨earlier, ranFirst, endedFirst⟩ := nodesOfSource_ok.mp readFirst
  obtain ⟨reached, ranSecond, endedSecond⟩ := nodesOfSource_ok.mp readSecond
  have told (source : String) : (Stream.ofSource false source).tokens.map Token.kind =
      Token.kinds (.text false) source.toList := Token.kinds_tokensFrom _ _
  have faultless : ∀ f, .fault f ∉ Token.kinds (.text false) first.toList := by
    intro f member
    rw [← told] at member
    obtain ⟨token, present, fault⟩ := List.mem_map.mp member
    exact Reading.run_sound ranFirst token present f fault
  have kinds : (Stream.ofSource false (first ++ second)).tokens.map Token.kind =
      ((Stream.ofSource false first).tokens ++ (Stream.ofSource false second).tokens).map
        Token.kind := by
    rw [List.map_append, told, told, told, String.toList_append]
    exact Token.kinds_append faultless closed second.toList
  obtain ⟨final, ran, ended⟩ := run_joined ranFirst endedFirst ranSecond endedSecond apart orphan
  -- The tokens of the second source are at other places, which the nodes do not tell.
  obtain ⟨joined, ranJoined, alike⟩ := Reading.run_alike rfl kinds ran
  exact nodesOfSource_ok.mpr ⟨joined, ranJoined, Reading.ended_alike alike ended⟩

/-- A template that has a parent and ends with a comment, and one with a block inside a choice. The
second starts right behind the marker that ends the comment. -/
theorem nodes_of_joined_page :
    let first := "\x7b% extends 'base' %\x7d\x7b% block a %\x7d1.\x7b% endblock %\x7d\x7b# #\x7d"
    let second := "\x7b% if x %\x7d\x7b% block b %\x7d\x7b\x7b x \x7d\x7d" ++
      "\x7b% endblock %\x7d\x7b% endif %\x7d!"
    let before : List Node := [.inherits "base", .block "a" [.text "1."]]
    let behind : List Node :=
      [.choice [(.variable "x", [.block "b" [.output (.variable "x")]])] none, .text "!"]
    nodesOfSource none false first = .ok before ∧ nodesOfSource none false second = .ok behind ∧
      nodesOfSource none false (first ++ second) = .ok (before ++ behind) := by
  intro first second before behind
  have readFirst : nodesOfSource none false first = .ok before := by decide +kernel
  have readSecond : nodesOfSource none false second = .ok behind := by decide +kernel
  have last : (Token.pieces false (.text false) first.toList).getLast? =
      some (.gap .comment "\x7b# #\x7d".toList) := by decide +kernel
  have closed : Token.Closed (.text false) first.toList := by
    intro piece found
    rw [last] at found
    cases found
    trivial
  have apart : ∀ block ∈ Node.blockNames before, block ∉ Node.blockNames behind := by
    decide
  have orphan : ∀ parent, .inherits parent ∉ behind := by
    simp [behind]
  refine ⟨readFirst, readSecond, ?_⟩
  exact nodes_of_joined none readFirst readSecond closed apart (.inl orphan)

end Stencil.Template
