import Mathlib.Data.List.Basic
import Stencil.Proofs.Joining
import Stencil.Proofs.Relative
import Stencil.Proofs.Requests
import Stencil.Proofs.Rounds

/-!
# Siblings

A template that refers to `./x` means the template called `x` in its own directory. What the
directory is comes from a name that anyone may have chosen, with empty segments or with a slash in
front. Such segments lead nowhere: they are left out, and what is left names the directory. So the
sibling of a template is written like the template itself, with another last segment, exactly if
the directory has no empty segment.

What follows from this for rendering goes a longer way. Reading a template loses nothing that has
been read, so the node of every tag that embeds the sibling is in the template, at whatever depth;
and when a rendering says that a template is not found, there is none under that name.
-/

namespace Stencil

namespace Path

/-- A slash between two texts parts their segments. The induction is on the text in front of it,
whose last segment ends there. -/
theorem split_append (before behind : List Char) :
    split (before ++ '/' :: behind) = split before ++ split behind := by
  induction before with
  | nil => exact (split.eq_def ('/' :: behind)).trans (if_pos rfl)
  | cons c rest inductionHypothesis =>
    obtain ⟨first, others, parts⟩ := List.exists_cons_of_ne_nil (split_ne_nil rest)
    rw [List.cons_append, split, split, inductionHypothesis, parts]
    split <;> rfl

end Path

namespace Reference

open Stencil.Path (Segment Ordinary)

/-- The segments of a directory that lead somewhere. An empty one, as in front of a leading slash,
is left out. -/
def filled (directory : List Char) : List Segment := (Path.split directory).filter (· ≠ [])

/-- The template `segment` in a directory. Its name is put together from segments that are filled,
so it never has a slash in front. -/
def sibling (directory : List Char) (segment : Segment) : String :=
  String.ofList (Path.join (filled directory ++ [segment]))

/-- How a template refers to a sibling: by a dot, a slash and the last segment. It need not know the
directory that the two are in. -/
def toSibling (segment : Segment) : String := String.ofList ('.' :: '/' :: segment)

/-- A template starts from the segments of its directory that are filled. Its own last segment,
which has no slash in it, is dropped, and the others are kept in reverse, the innermost first. -/
theorem start_of_file (inside : List Char) {file : List Char} (slashless : '/' ∉ file) :
    start (some (String.ofList (inside ++ '/' :: file))) = (filled inside).reverse := by
  show ((Path.split (String.ofList (inside ++ '/' :: file)).toList).dropLast.filter
    (· ≠ [])).reverse = _
  rw [String.toList_ofList, Path.split_append, Path.split_slashless slashless,
    List.dropLast_concat, filled]

/-- A reference to a sibling leads to the sibling. An ordinary segment is not empty, is no dots and
has no slash, so it is put behind the directory as it is. -/
theorem resolve_sibling (inside : List Char) {file : List Char} (slashless : '/' ∉ file)
    {segment : Segment} (ordinary : Ordinary segment) :
    resolve? (some (String.ofList (inside ++ '/' :: file))) (toSibling segment) =
      some (sibling inside segment) := by
  have relative : isRelative (toSibling segment).toList = true := by
    rw [toSibling, String.toList_ofList]
    rfl
  have segments : Path.split (toSibling segment).toList = [['.'], segment] := by
    rw [toSibling, String.toList_ofList]
    have dot : '/' ∉ ['.'] := by decide
    refine (Path.split_segment dot segment).trans ?_
    rw [Path.split_slashless ordinary.slashless]
  rw [resolve_relative relative, segments, follow_stay (.inr rfl), follow_enter ordinary,
    start_of_file inside slashless, follow, Option.map_some, List.reverse_cons,
    List.reverse_reverse, sibling]

/-- The sibling is written with the directory in front exactly if all segments of the directory are
filled. Otherwise what is left out makes the name shorter. -/
theorem sibling_iff (inside : List Char) {segment : Segment} (ordinary : Ordinary segment) :
    sibling inside segment = String.ofList (inside ++ '/' :: segment) ↔
      [] ∉ Path.split inside := by
  have slashless : ∀ part ∈ filled inside ++ [segment], '/' ∉ part := by
    intro part member
    rcases List.mem_append.mp member with before | last
    · exact Path.split_parts (List.mem_filter.mp before).1
    · exact List.mem_singleton.mp last ▸ ordinary.slashless
  have written : Path.split (inside ++ '/' :: segment) = Path.split inside ++ [segment] := by
    rw [Path.split_append, Path.split_slashless ordinary.slashless]
  constructor
  · intro same empty
    have joined := congrArg (fun text => Path.split text.toList) same
    simp only [sibling, String.toList_ofList] at joined
    rw [Path.split_join (by simp) slashless, written, List.append_left_inj] at joined
    have kept : [] ∈ filled inside := joined ▸ empty
    simp [filled] at kept
  · intro none
    have all : filled inside = Path.split inside :=
      List.filter_eq_self.mpr fun part member =>
        decide_eq_true (ne_of_mem_of_not_mem member none)
    rw [sibling, all, ← written, Path.join_split]

end Reference

namespace Expr.Reading

/-- An operand ends where a tag begins, or something else is wanted; never does the expression go on
there. -/
theorem end_opening (e : Expr) (brackets : List (Bracket × List Waiting)) (tag : Tag)
    (grown : Reading) : endOperand e brackets (.opening tag) ≠ .ok (.more grown) := by
  intro read
  unfold endOperand at read
  split at read <;> simp at read

/-- No expression goes on where a tag begins. So a tag that is opened is not swallowed by the
expression in front of it. The cases are those of the stages; a complete operand can only be ended
by it, which is refused later. -/
theorem step_opening (reading : Reading) (tag : Tag) (grown : Reading) :
    reading.step (.opening tag) ≠ .ok (.more grown) := by
  obtain ⟨waiting, brackets, stage⟩ := reading
  intro read
  cases stage with
  | operand => cases read
  | item =>
    rw [step, startItem.eq_def] at read
    split at read
    · next closing => cases closing
    · next closing => cases closing
    · cases read
  | negative => cases read
  | member of => cases read
  | filter of => cases read
  | filtered of named => exact end_opening _ brackets tag grown read
  | complete e => exact end_opening _ brackets tag grown read

end Expr.Reading

namespace Template

open Token (Kind)

/-- The nodes in the finished cases of an open choice. The other constructs hold none before they
end. -/
def Opened.held : Opened → List Node
  | .case cases _ | .otherwise cases => Node.allOfCases cases
  | .loop .. | .block _ => []

/-- The nodes that the tag at hand holds: those of a construct that is being ended or continued, and
the node that the end of the tag will add. -/
def Stage.held : Stage → List Node
  | .expression (.case _ cases) _ => Node.allOfCases cases
  | .blockEnd _ body => Node.allOf body
  | .close (.add node) => Node.allOf [node]
  | .close (.descend opened _) => opened.held
  | _ => []

namespace Reading

/-- All nodes that have been read, at any depth: those of the tag at hand, those next to it, and
those around it. -/
def held (reading : Reading) : List Node :=
  reading.stage.held ++ Node.allOf reading.nodes ++
    reading.levels.flatMap fun level => level.opened.held ++ Node.allOf level.before

variable {reading after : Reading} {node : Node}

/-- A node that has been read is in one of these places. -/
theorem mem_held : node ∈ reading.held ↔ node ∈ reading.stage.held ∨
    node ∈ Node.allOf reading.nodes ∨
      ∃ level ∈ reading.levels, node ∈ level.opened.held ∨ node ∈ Node.allOf level.before := by
  simp only [held, List.mem_append, List.mem_flatMap, or_assoc]

/-- A stage that takes over what the stage before it held loses nothing, since all the rest stays
where it is. -/
theorem held_reach {stage : Stage} (taken : reading.stage.held ⊆ stage.held)
    (member : node ∈ reading.held) : node ∈ (reading.reach stage).held := by
  rw [mem_held] at member ⊢
  exact member.imp_left fun here => taken here

/-- What the end of a tag completes is not lost. A node goes to those at hand, and a construct is
opened in front of which they stand. The premise says that what the stage held has gone into the
ending. -/
theorem held_complete {ending : Ending} (taken : reading.stage.held ⊆ (Stage.close ending).held)
    (member : node ∈ reading.held) : node ∈ (reading.complete ending).held := by
  rw [mem_held] at member
  cases ending with
  | add added =>
    refine mem_held.mpr (.inr ?_)
    show node ∈ Node.allOf (reading.nodes ++ [added]) ∨ _
    rw [Node.all_of_append, List.mem_append]
    rcases member with here | before | around
    · exact .inl (.inr (taken here))
    · exact .inl (.inl before)
    · exact .inr around
  | descend opened place =>
    refine mem_held.mpr (.inr (.inr ?_))
    rcases member with here | before | ⟨level, among, held⟩
    · exact ⟨_, List.mem_cons_self, .inl (taken here)⟩
    · exact ⟨_, List.mem_cons_self, .inr before⟩
    · exact ⟨level, List.mem_cons_of_mem _ among, held⟩

/-- Leaving a construct loses nothing if the new stage takes over the construct and its nodes. What
stood in front of the construct comes to be at hand again. -/
theorem held_ascend {level : Level} {outer : List Level} {stage : Stage}
    (around : reading.levels = level :: outer) (empty : reading.stage.held = [])
    (inOpened : level.opened.held ⊆ stage.held) (inNodes : Node.allOf reading.nodes ⊆ stage.held)
    (member : node ∈ reading.held) : node ∈ (reading.ascend level outer stage).held := by
  rw [mem_held, empty, around] at member
  refine mem_held.mpr ?_
  rcases member with none | here | ⟨other, among, held⟩
  · exact absurd none List.not_mem_nil
  · exact .inl (inNodes here)
  · rcases List.mem_cons.mp among with rfl | further
    · exact held.imp (fun opened => inOpened opened) .inl
    · exact .inr (.inr ⟨other, further, held⟩)

/-- The nodes of a case that ends go behind those of the cases before it. -/
theorem held_cases (cases : List (Expr × List Node)) (condition : Expr) (nodes : List Node) :
    Node.allOfCases (cases ++ [(condition, nodes)]) =
      Node.allOfCases cases ++ Node.allOf nodes := by
  simp [Node.all_of_cases]

/-- A word that ends or continues a construct loses nothing. The cases are those of the word and of
the construct; in each of them the nodes of the construct go into the stage. -/
theorem held_terminate {word : Keyword} (empty : reading.stage.held = [])
    (read : reading.terminate word = .ok after) (member : node ∈ reading.held) :
    node ∈ after.held := by
  unfold terminate at read
  cases around : reading.levels with
  | nil => simp [around] at read
  | cons level outer =>
    cases opened : level.opened with
    | loop target sequence =>
      simp only [around, opened] at read
      split at read <;> cases read
      refine held_ascend around empty ?_ ?_ member
      · simp [opened, Opened.held]
      · simp [Stage.held]
    | block name =>
      simp only [around, opened] at read
      split at read <;> cases read
      refine held_ascend around empty ?_ (List.Subset.refl _) member
      simp [opened, Opened.held]
    | case cases condition =>
      -- The body that is open goes behind the bodies of the cases that came before.
      have taken : level.opened.held ⊆
          Node.allOfCases (cases ++ [(condition, reading.nodes)]) := by
        rw [opened, held_cases]
        exact List.subset_append_left _ _
      have own : Node.allOf reading.nodes ⊆
          Node.allOfCases (cases ++ [(condition, reading.nodes)]) := by
        rw [held_cases]
        exact List.subset_append_right _ _
      have choice : (Stage.close (.add
          (.choice (cases ++ [(condition, reading.nodes)]) none))).held =
          .choice (cases ++ [(condition, reading.nodes)]) none ::
            Node.allOfCases (cases ++ [(condition, reading.nodes)]) := by
        simp [Stage.held, Node.all_of_cases]
      simp only [around, opened] at read
      split at read <;> cases read
      · exact held_ascend around empty taken own member
      · exact held_ascend around empty taken own member
      -- The end of the choice: its bodies are inside the one node that is made of them.
      · refine held_ascend around empty ?_ ?_ member <;> rw [choice]
        · exact List.subset_cons_of_subset _ taken
        · exact List.subset_cons_of_subset _ own
    | otherwise cases =>
      have choice : (Stage.close (.add (.choice cases (some reading.nodes)))).held =
          .choice cases (some reading.nodes) ::
            (Node.allOfCases cases ++ Node.allOf reading.nodes) := by
        simp [Stage.held, Node.all_of_cases]
      simp only [around, opened] at read
      split at read <;> cases read
      refine held_ascend around empty ?_ ?_ member <;> rw [choice]
      · rw [opened]
        exact List.subset_cons_of_subset _ (List.subset_append_left _ _)
      · exact List.subset_cons_of_subset _ (List.subset_append_right _ _)

/-- The word that begins a statement loses nothing. It holds nothing itself, as the premise `empty`
says of every tag that has just begun. The cases are those of the words. -/
theorem held_statement {place : Place} {kind : Kind} (empty : reading.stage.held = [])
    (read : reading.statement place kind = .ok after) (member : node ∈ reading.held) :
    node ∈ after.held := by
  have reach (stage : Stage) : node ∈ (reading.reach stage).held :=
    held_reach (empty ▸ List.nil_subset _) member
  unfold statement at read
  split at read
  · cases read
    exact reach _
  · cases read
    exact reach _
  · cases read
    exact reach _
  · split at read
    · cases read
    · split at read <;> cases read
      exact reach (.reference .parent)
  · cases read
    exact reach _
  · split at read
    · exact held_terminate empty read member
    · cases read
  · cases read

/-- One token loses nothing. The cases are those of the stages; most of them reach another stage
with what they held, and the others complete a node or a construct with it. -/
theorem held_next {token : Token} (read : reading.next token = .ok after)
    (member : node ∈ reading.held) : node ∈ after.held := by
  unfold next at read
  cases stage : reading.stage with
  | content =>
    have empty (taken : List Node) : reading.stage.held ⊆ taken := stage ▸ List.nil_subset taken
    simp only [stage] at read
    split at read <;> cases read
    · next s _ => exact held_complete (empty (Stage.close (.add (.text s))).held) member
    · exact held_reach (empty _) member
    · exact held_reach (empty _) member
  | statement =>
    simp only [stage] at read
    exact held_statement (stage ▸ rfl) read member
  | loopTarget place =>
    simp only [stage] at read
    split at read <;> cases read
    exact held_reach (stage ▸ List.nil_subset _) member
  | loopIn place target =>
    simp only [stage] at read
    split at read <;> cases read
    exact held_reach (stage ▸ List.nil_subset _) member
  | blockName place =>
    simp only [stage] at read
    split at read
    · split at read <;> cases read
      exact held_reach (stage ▸ List.nil_subset _) member
    · cases read
  | reference link =>
    simp only [stage] at read
    split at read
    · split at read <;> cases read
      exact held_reach (stage ▸ List.nil_subset _) member
    · cases read
  -- The pending nodes, if there are any, are those of the cases of a choice that came before.
  | expression purpose inner =>
    simp only [stage] at read
    split at read
    · cases read
    · cases read
      refine held_reach ?_ member
      rw [stage]
      cases purpose <;> exact (List.Subset.refl _)
    · split at read <;> cases read
      refine held_complete ?_ member
      rw [stage]
      cases purpose with
      | output => exact List.nil_subset _
      | loop place target => exact List.nil_subset _
      | case place cases => exact (List.Subset.refl _)
  | blockEnd name body =>
    have taken : reading.stage.held ⊆ (Stage.close (.add (.block name body))).held := by
      rw [stage]
      simp [Stage.held]
    simp only [stage] at read
    split at read
    · split at read <;> cases read
      exact held_reach taken member
    · split at read <;> cases read
      exact held_complete taken member
  | close ending =>
    simp only [stage] at read
    split at read <;> cases read
    exact held_complete (stage ▸ List.Subset.refl _) member

/-- A run loses nothing. This is what one token keeps, by induction on the tokens. -/
theorem held_run {tokens : List Token} (ran : reading.run tokens = .ok after)
    (member : node ∈ reading.held) : node ∈ after.held := by
  induction tokens generalizing reading with
  | nil =>
    cases ran
    exact member
  | cons token rest inductionHypothesis =>
    obtain ⟨between, read, ran⟩ := run_cons_ok ran
    exact inductionHypothesis ran (held_next read member)

/-- A run over tokens that come in two parts is a run over each. So a tag anywhere among the tokens
is read from the state that the tokens in front of it lead to. -/
theorem run_append_ok {before behind : List Token}
    (ran : reading.run (before ++ behind) = .ok after) :
    ∃ between, reading.run before = .ok between ∧ between.run behind = .ok after := by
  induction before generalizing reading with
  | nil => exact ⟨reading, rfl, ran⟩
  | cons token rest inductionHypothesis =>
    obtain ⟨next, read, ran⟩ := run_cons_ok ran
    obtain ⟨between, first, second⟩ := inductionHypothesis ran
    exact ⟨between, (run_step read rest).trans first, second⟩

/-- A statement begins between tags. Inside a tag the token does not fit, and within an expression
it neither goes on nor ends one that is complete. -/
theorem next_opening {token : Token} (opening : token.kind = .opening .statement)
    (read : reading.next token = .ok after) : reading.stage = .content := by
  unfold next at read
  cases stage : reading.stage with
  | content => rfl
  | expression purpose inner =>
    simp only [stage, opening] at read
    split at read
    · cases read
    · next grown step => exact absurd step (inner.step_opening .statement grown)
    · split at read
      · next closing => cases closing
      · cases read
  | _ => simp [stage, opening, statement] at read

/-- The tag of an embedded template adds a node for the template that it refers to. The four tokens
are followed one by one. -/
theorem leads_reference {target name : String}
    (resolved : Reference.resolve? reading.name target = some name)
    (content : reading.stage = .content) :
    Leads reading [.opening .statement, .keyword .include, .string target, .closing .statement]
      (· = reading.add (.embed name)) := by
  show Leads reading (Node.statement [.keyword .include, .string target]).kinds _
  refine leads_statement content fun place => ⟨reading.reach (.reference .embedded), rfl, ?_⟩
  have named (start : Place) (stop : Nat) :
      (reading.reach (.reference .embedded)).next ⟨.string target, start, stop⟩ =
        .ok (reading.reach (.close (.add (.embed name)))) := by
    simp only [next, reach, resolved, Link.node]
  exact leads_step named (leads_close (.add (.embed name)))

/-- The node of a tag that has been read is held, wherever the tag stands. The tokens in front of it
lead to a state between tags, the tag adds its node there, and the tokens behind it lose nothing. -/
theorem held_of_tag {target name : String} {tokens : List Token}
    (resolved : Reference.resolve? reading.name target = some name)
    (tag : [.opening .statement, .keyword .include, .string target, .closing .statement] <:+:
      tokens.map Token.kind)
    (ran : reading.run tokens = .ok after) : .embed name ∈ after.held := by
  obtain ⟨kindsBefore, kindsBehind, kinds⟩ := tag
  obtain ⟨others, behind, rfl, kindsOthers, -⟩ := List.map_eq_append_iff.mp kinds.symm
  obtain ⟨before, inTag, rfl, -, kindsTag⟩ := List.map_eq_append_iff.mp kindsOthers
  obtain ⟨passed, ran, ranBehind⟩ := run_append_ok ran
  obtain ⟨between, ranBefore, ranTag⟩ := run_append_ok ran
  have content : between.stage = .content := by
    obtain ⟨opening, rest, rfl, begins, -⟩ := List.map_eq_cons_iff.mp kindsTag
    obtain ⟨next, read, -⟩ := run_cons_ok ranTag
    exact next_opening begins read
  rw [← (run_grows ranBefore).name] at resolved
  obtain ⟨reached, ranThere, rfl⟩ := leads_reference resolved content inTag kindsTag
  obtain rfl : passed = between.add (.embed name) :=
    Except.ok.inj (ranTag.symm.trans ranThere)
  refine held_run ranBehind (mem_held.mpr (.inr (.inl ?_)))
  exact Node.mem_all_of (List.mem_append_right _ List.mem_cons_self)

end Reading

/-- A template embeds whatever its tags refer to, at whatever depth the tag stands and whatever
stands around it. The node is held from the end of its tag on, and at the end of the source nothing
is open, so all that is held is in the nodes. -/
theorem embeds_of_tag {name target resolved : String} {trim : Bool} {source : String}
    {template : Template} (leads : Reference.resolve? (some name) target = some resolved)
    (read : ofSource name trim source = .ok template)
    (tag : [.opening .statement, .keyword .include, .string target, .closing .statement] <:+:
      (Token.Stream.ofSource trim source).tokens.map Token.kind) :
    .embed resolved ∈ Node.allOf template.nodes := by
  unfold ofSource at read
  cases nodes : nodesOfSource (some name) trim source with
  | error refusal =>
    rw [nodes] at read
    cases read
  | ok found =>
    rw [nodes] at read
    cases read
    obtain ⟨reading, ran, ended⟩ := nodesOfSource_ok.mp nodes
    obtain ⟨content, outside, rfl⟩ := Reading.result_ok.mp ended
    have held : .embed resolved ∈ reading.held := Reading.held_of_tag leads tag ran
    rw [Reading.mem_held, content, outside] at held
    rcases held with none | here | ⟨level, none, -⟩
    · exact absurd none List.not_mem_nil
    · exact here
    · exact absurd none List.not_mem_nil

end Template

/-- If an outcome says that a template is not found, there is none of that name. Nothing is said of
the other faults, nor of outcomes that are no faults. -/
def Registry.Truthful (registry : Registry) {α : Type} (outcome : Except Fault α) : Prop :=
  ∀ name, outcome = .error (.notFound name) → registry.entry? name = none

section Truthful

open Registry (Truthful)

variable {registry : Registry} {α β : Type}

/-- What goes well says nothing of the kind. -/
theorem truthful_ok (a : α) : registry.Truthful (.ok a : Except Fault α) :=
  fun _ failed => nomatch failed

/-- A failure of an expression is another fault. -/
theorem truthful_mistyped (outcome : Except Mistyped α) :
    registry.Truthful (outcome.mapError Fault.mistyped) := by
  cases outcome <;> exact fun _ failed => nomatch failed

/-- What comes behind a failure is left out. So two outcomes in sequence are truthful if both
are. -/
theorem truthful_bind {outcome : Except Fault α} {next : α → Except Fault β}
    (first : registry.Truthful outcome) (behind : ∀ a, registry.Truthful (next a)) :
    registry.Truthful (outcome >>= next) := by
  cases outcome with
  | error fault =>
    intro name failed
    cases failed
    exact first name rfl
  | ok a => exact behind a

/-- Two texts put together are truthful if both are. This is the form in which nodes follow each
other. -/
theorem truthful_append {first second : Except Fault String} (before : registry.Truthful first)
    (behind : registry.Truthful second) :
    registry.Truthful (do let text ← first; return text ++ (← second)) :=
  truthful_bind before fun text => truthful_bind behind fun later => truthful_ok (text ++ later)

/-- A walk up says of no template that it is not found but of one that it has come to in vain. The
induction is on the walk, and what is found on the way is only put together. -/
theorem truthful_climb (limit : Nat) (passed : List String) (current : String) :
    registry.Truthful (Lineage.climb registry limit passed current) := by
  induction passed, current using Lineage.climb.induct registry limit with
  | case1 passed current stopped =>
    rw [Lineage.climb, if_pos stopped]
    rintro _ ⟨⟩
  | case2 passed current free absent =>
    rw [Lineage.climb, if_neg free, absent]
    rintro _ ⟨⟩
    exact absent
  | case3 passed current free entry kept ends =>
    rw [Lineage.climb, if_neg free]
    simp only [kept, ends]
    exact truthful_ok _
  | case4 passed current free entry kept parent inherits inductionHypothesis =>
    rw [Lineage.climb, if_neg free]
    simp only [kept, inherits]
    exact truthful_bind inductionHypothesis fun above => truthful_ok (above ++ [entry])

/-- Flattening a template fails only where the walk up to its root does. -/
theorem truthful_ofLeaf (limit : Nat) (leaf : String) :
    registry.Truthful (Flattened.ofLeaf registry limit leaf) :=
  truthful_bind (truthful_climb limit [] leaf) fun _ => truthful_ok _

section Speech

variable {embed : Scope → String → Except Fault String} (escaping : Bool)

/-- A loop is truthful if each of its turns is, in whatever scope it takes place. -/
theorem truthful_turns {target : String} {count : Nat} {turn : Scope → Except Fault String}
    (each : ∀ scope, registry.Truthful (turn scope)) (scope : Scope) (index : Nat)
    (items : List Value) : registry.Truthful (sayTurns target count turn scope index items) := by
  induction items generalizing index with
  | nil => exact truthful_ok ""
  | cons item rest inductionHypothesis =>
    exact truthful_append (each _) (inductionHypothesis (index + 1))

/-- A choice is truthful if its bodies are: its conditions can only be mistyped. That is a fault of
another kind than a missing template. -/
theorem truthful_cases {otherwise : Except Fault String} (other : registry.Truthful otherwise)
    (scope : Scope) {cases : List (Expr × List Node)}
    (bodies : ∀ case ∈ cases, registry.Truthful (sayBody embed escaping case.2 scope)) :
    registry.Truthful (sayCases embed escaping otherwise cases scope) := by
  induction cases with
  | nil => exact other
  | cons case rest inductionHypothesis =>
    obtain ⟨condition, body⟩ := case
    obtain ⟨here, later⟩ := List.forall_mem_cons.mp bodies
    refine truthful_bind (truthful_mistyped _) fun value => ?_
    split
    · exact here
    · exact inductionHypothesis later

/-- What nodes say is truthful if what embedded templates say is. The induction is on the nodes,
with the bodies inside of them. No node says of itself that a template is not found. -/
theorem truthful_body (embedded : ∀ scope name, registry.Truthful (embed scope name))
    (nodes : List Node) (scope : Scope) :
    registry.Truthful (sayBody embed escaping nodes scope) := by
  induction nodes using Node.body_induction generalizing scope with
  | nil => exact truthful_ok ""
  | text s rest behind => exact truthful_append (truthful_ok s) (behind scope)
  | output e rest behind => exact truthful_append (truthful_mistyped _) (behind scope)
  | loop target sequence body rest inner behind =>
    refine truthful_append ?_ (behind scope)
    exact truthful_bind (truthful_mistyped _) fun items => truthful_turns inner scope 0 items
  | choice cases otherwise rest inCases inOther behind =>
    refine truthful_append (truthful_cases escaping ?_ scope fun case member =>
      inCases case member scope) (behind scope)
    cases otherwise with
    | none => exact truthful_ok ""
    | some body => exact inOther body rfl scope
  | block name body rest inner behind => exact truthful_append (inner scope) (behind scope)
  | inherits parent rest behind => exact truthful_append (truthful_ok "") (behind scope)
  | embed template rest behind => exact truthful_append (embedded scope template) (behind scope)

end Speech

/-- What an embedded template says is truthful, however deep it is embedded. The induction is on the
allowance of embedding; the template is flattened from the registry, and its nodes are truthful by
the lemma before. -/
theorem truthful_embedded (limit : Nat) (escaping : Bool) (allowance : Nat) (around : List String)
    (scope : Scope) (name : String) : registry.Truthful
      (sayEmbedded (Flattened.ofLeaf registry limit) escaping allowance around scope name) := by
  induction allowance generalizing around scope name with
  | zero => exact fun _ failed => nomatch failed
  | succ allowance inductionHypothesis =>
    refine truthful_bind (truthful_ofLeaf limit name) fun template => ?_
    exact truthful_body escaping (inductionHypothesis _) template.nodes scope

/-- Providers know nothing of templates: what they fail with is a fault of their own, so they never
claim that a template is missing. -/
theorem truthful_provided (scope : Scope) (providers : List Provider) :
    registry.Truthful (scope.provided providers) := by
  induction providers generalizing scope with
  | nil => exact truthful_ok scope
  | cons provider rest inductionHypothesis =>
    unfold Scope.provided Provider.provide
    cases provider.supply with
    | error causes => exact fun _ failed => nomatch failed
    | ok layer => exact inductionHypothesis (scope.push layer)

/-- A rendering that says that a template is not found is right. The cache of the engine is sound,
so what is said of its copies can be said of what the registry is flattened to. -/
theorem truthful_render {engine : Engine} (sound : engine.Sound) (name : String)
    (bindings : Layer) : engine.registry.Truthful (engine.render name bindings).1 := by
  rw [(Engine.render_answers sound name bindings).1]
  refine truthful_bind (truthful_ofLeaf _ name) fun template => ?_
  refine truthful_bind (truthful_bind (truthful_provided .empty _) fun scope => truthful_ok _)
    fun scope => ?_
  exact truthful_body _ (truthful_embedded _ _ _ _) template.nodes scope

end Truthful

namespace Reference

open Stencil.Path (Segment Ordinary)

/-- A reference to a sibling leads to the sibling. The sibling of the template `file` in a directory
has the name that is put together from the filled segments of the directory and its own; this is
the directory, a slash and its own segment exactly if the directory has no empty segment. A template
that is read under the name of the file embeds the sibling wherever a tag refers to it; and as long
as an engine has a template under the name of the sibling, no rendering of the file says that this
name is not found. -/
theorem siblings_reached (inside file : List Char) (segment : Segment) (slashless : '/' ∉ file)
    (ordinary : Ordinary segment) :
    let referrer := String.ofList (inside ++ '/' :: file)
    resolve? (some referrer) (toSibling segment) = some (sibling inside segment) ∧
      (sibling inside segment = String.ofList (inside ++ '/' :: segment) ↔
        [] ∉ Path.split inside) ∧
      (∀ trim source template, Template.ofSource referrer trim source = .ok template →
        [.opening .statement, .keyword .include, .string (toSibling segment),
            .closing .statement] <:+: (Token.Stream.ofSource trim source).tokens.map Token.kind →
          .embed (sibling inside segment) ∈ Node.allOf template.nodes) ∧
      ∀ settings requests bindings,
        let engine := (Engine.new settings).after requests
        engine.registry.contains (sibling inside segment) = true →
          (engine.render referrer bindings).1 ≠ .error (.notFound (sibling inside segment)) := by
  intro referrer
  have leads := resolve_sibling inside slashless ordinary
  refine ⟨leads, sibling_iff inside ordinary, fun trim source template read tag =>
    Template.embeds_of_tag leads read tag, ?_⟩
  intro settings requests bindings engine registered failed
  have sound : engine.Sound := Engine.sound_after (Engine.sound_new settings) requests
  have absent := truthful_render sound referrer bindings (sibling inside segment) failed
  rw [Registry.contains, absent] at registered
  cases registered

/-- A page with a menu next to it. -/
def menuPage : String := "\x7b% include './nav' %\x7d"

/-- The engine with a page and a menu under two names. -/
def menuEngine (page menu : String) : Engine :=
  (Engine.new {}).after [.register page menuPage, .register menu "menu"]

/-- A page in a directory shows the menu there. The reference is written as `./nav` and stands for
`a/nav`. -/
theorem siblings_reached_menu :
    let page : Template := ⟨"a/index", menuPage, [.embed "a/nav"]⟩
    '/' ∉ "index".toList ∧ Ordinary "nav".toList ∧ sibling "a".toList "nav".toList = "a/nav" ∧
      resolve? (some "a/index") "./nav" = some "a/nav" ∧ [] ∉ Path.split "a".toList ∧
      Template.ofSource "a/index" false menuPage = .ok page ∧
      .embed "a/nav" ∈ Node.allOf page.nodes ∧
      (menuEngine "a/index" "a/nav").registry.contains "a/nav" = true ∧
      ((menuEngine "a/index" "a/nav").render "a/index" []).1 ≠ .error (.notFound "a/nav") := by
  intro page
  have slashless : '/' ∉ "index".toList := by decide
  have ordinary : Ordinary "nav".toList := by decide
  have same : sibling "a".toList "nav".toList = "a/nav" := by decide
  have read : Template.ofSource "a/index" false menuPage = .ok page := by decide +kernel
  have other : Template.ofSource "a/nav" false "menu" = .ok ⟨"a/nav", "menu", [.text "menu"]⟩ := by
    decide +kernel
  have tag : [.opening .statement, .keyword .include, .string (toSibling "nav".toList),
      .closing .statement] <:+: (Token.Stream.ofSource false menuPage).tokens.map Token.kind := by
    refine ⟨[], [], ?_⟩
    decide +kernel
  have registered : (menuEngine "a/index" "a/nav").registry.contains "a/nav" = true := by
    simp only [menuEngine, Engine.after, List.foldl, Engine.perform, Engine.register,
      Registry.register, Engine.new, Registry.empty, Registry.insert, read, other, Except.map]
    decide +kernel
  obtain ⟨leads, written, embeds, found⟩ :=
    siblings_reached "a".toList "index".toList "nav".toList slashless ordinary
  rw [same] at leads written embeds found
  have embedded := embeds false menuPage page read tag
  exact ⟨slashless, ordinary, same, leads, written.mp rfl, read, embedded, registered,
    found {} _ [] registered⟩

/-- The sibling of a page that has a name with a slash in front has a name without one. So the menu
that is registered next to the page is not found. Empty segments are left out when a reference is
resolved. -/
theorem siblings_missed_rooted :
    '/' ∉ "index".toList ∧ Ordinary "nav".toList ∧
      resolve? (some (String.ofList ("".toList ++ '/' :: "index".toList)))
        (toSibling "nav".toList) ≠ some (String.ofList ("".toList ++ '/' :: "nav".toList)) ∧
      resolve? (some "/index") "./nav" = some "nav" ∧
      (menuEngine "/index" "/nav").registry.contains "/index" = true ∧
      (menuEngine "/index" "/nav").registry.contains "/nav" = true ∧
      ((menuEngine "/index" "/nav").render "/index" []).1 = .error (.notFound "nav") := by
  have page : Template.ofSource "/index" false menuPage =
      .ok ⟨"/index", menuPage, [.embed "nav"]⟩ := by decide +kernel
  have menu : Template.ofSource "/nav" false "menu" = .ok ⟨"/nav", "menu", [.text "menu"]⟩ := by
    decide +kernel
  have state : menuEngine "/index" "/nav" = { Engine.new {} with
      registry := ⟨[("/index", ⟨⟨"/index", menuPage, [.embed "nav"]⟩, 1⟩),
        ("/nav", ⟨⟨"/nav", "menu", [.text "menu"]⟩, 2⟩)], 2, false⟩ } := by
    simp only [menuEngine, Engine.after, List.foldl, Engine.perform, Engine.register,
      Registry.register, Engine.new, Registry.empty, Registry.insert, page, menu, Except.map]
    rfl
  refine ⟨by decide, by decide, by decide, by decide, ?_, ?_, ?_⟩
  · rw [state]
    rfl
  · rw [state]
    rfl
  · rw [state]
    delta Engine.render Engine.resolve Engine.shelf Engine.obtain Cache.fetch Cache.renew
      Cache.issue
    rw [Flattened.ofLeaf_eq_inRounds]
    decide +kernel

end Reference

end Stencil
