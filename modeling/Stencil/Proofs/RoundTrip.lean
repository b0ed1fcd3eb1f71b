import Stencil.Proofs.Grouping
import Stencil.Proofs.Layout

/-!
# Reading what was written

Reading what well-formed nodes are written as gives the nodes again. The machine comes through a
body by adding the nodes of the body to those it has, wherever the body stands: a tag that begins a
construct leads into it, its end leads out with one node more, and the blocks on the way are
remembered. There is one law for each tag, and the laws for nodes and bodies are put together from
them along the tree.
-/

namespace Stencil

open Token (Kind Segment)

namespace Template.Reading

/-- A token that fits leads on to the next state, and the rest is read from there. -/
theorem run_step {reading next : Reading} {token : Token} (fits : reading.next token = .ok next)
    (rest : List Token) : reading.run (token :: rest) = next.run rest := by
  simp only [run, fits]

/-- Tokens are read one part after the other, if the first part can be read. What is read behind
depends on the earlier part only by the state it leads to. -/
theorem run_append {reading between : Reading} {before : List Token}
    (ran : reading.run before = .ok between) (behind : List Token) :
    reading.run (before ++ behind) = between.run behind := by
  induction before generalizing reading with
  | nil =>
    cases ran
    rfl
  | cons token rest inductionHypothesis =>
    obtain ⟨next, fits, ran⟩ := run_cons_ok ran
    rw [List.cons_append, run_step fits, inductionHypothesis ran]

/-- Tokens of these kinds, wherever they start and stop, lead from one state to another that has the
property. Places are left open, because what is written says nothing about them; only the places
remembered in the state depend on them. -/
def Leads (reading : Reading) (kinds : List Kind) (Reached : Reading → Prop) : Prop :=
  ∀ tokens, tokens.map Token.kind = kinds → ∃ reached, reading.run tokens = .ok reached ∧
    Reached reached

section Leads

variable {reading next : Reading} {Between Reached : Reading → Prop} {kind : Kind}
  {first second : List Kind}

/-- No tokens lead nowhere else. -/
theorem leads_nil (here : Reached reading) : Leads reading [] Reached := by
  intro tokens none
  obtain rfl := List.map_eq_nil_iff.mp none
  exact ⟨reading, rfl, here⟩

/-- A token in front leads to a state from which the rest goes on. The next state may depend on the
place of the token. -/
theorem leads_cons (step : ∀ start stop, ∃ next, reading.next ⟨kind, start, stop⟩ = .ok next ∧
    Leads next second Reached) : Leads reading (kind :: second) Reached := by
  intro tokens kinds
  obtain ⟨⟨_, start, stop⟩, rest, rfl, rfl, others⟩ := List.map_eq_cons_iff.mp kinds
  obtain ⟨next, fits, leads⟩ := step start stop
  obtain ⟨reached, ran, holds⟩ := leads rest others
  exact ⟨reached, (run_step fits rest).trans ran, holds⟩

/-- What is known of the state reached may be weakened. -/
theorem leads_imp (leads : Leads reading first Between)
    (holds : ∀ between, Between between → Reached between) : Leads reading first Reached := by
  intro tokens kinds
  obtain ⟨reached, ran, arrived⟩ := leads tokens kinds
  exact ⟨reached, ran, holds reached arrived⟩

/-- A token that leads to the same state from everywhere. -/
theorem leads_step (fits : ∀ start stop, reading.next ⟨kind, start, stop⟩ = .ok next)
    (leads : Leads next second Reached) : Leads reading (kind :: second) Reached :=
  leads_cons fun start stop => ⟨next, fits start stop, leads⟩

/-- Tokens may be taken one part after the other, the second from whatever state the first leads
to. -/
theorem leads_append (leads : Leads reading first Between)
    (goOn : ∀ between, Between between → Leads between second Reached) :
    Leads reading (first ++ second) Reached := by
  intro tokens kinds
  obtain ⟨before, behind, rfl, kindsBefore, kindsBehind⟩ := List.map_eq_append_iff.mp kinds
  obtain ⟨between, ran, holds⟩ := leads before kindsBefore
  obtain ⟨reached, ranOn, arrived⟩ := goOn between holds behind kindsBehind
  exact ⟨reached, (run_append ran behind).trans ranOn, arrived⟩

end Leads

section Tags

variable {reading : Reading}

/-- What the end of a tag completes does not depend on how far the tag had come. -/
theorem complete_reach (reading : Reading) (stage : Stage) (ending : Ending) :
    (reading.reach stage).complete ending = reading.complete ending := by
  cases ending <;> rfl

/-- Tokens that an expression takes in are taken in by the tag that it stands in. The induction is
over the tokens; the purpose of the expression stays what it is until its tag ends. -/
theorem leads_feed {purpose : Purpose} {inner grown : Expr.Reading} {written : List Kind}
    (fed : inner.feed written = some grown) {kinds : List Kind} {Reached : Reading → Prop}
    (leads : Leads (reading.reach (.expression purpose grown)) kinds Reached) :
    Leads (reading.reach (.expression purpose inner)) (written ++ kinds) Reached := by
  induction written generalizing inner with
  | nil =>
    cases fed
    exact leads
  | cons kind rest inductionHypothesis =>
    rw [Expr.Reading.feed] at fed
    split at fed
    · next more fits =>
      have taken (start : Place) (stop : Nat) :
          (reading.reach (.expression purpose inner)).next ⟨kind, start, stop⟩ =
            .ok (reading.reach (.expression purpose more)) := by
        simp only [next, reach, fits]
      exact leads_step taken (inductionHypothesis fed)
    · cases fed

/-- An expression up to the end of its tag completes what the expression is for. That the tokens of
the expression give it back is the law for expressions; here it is only put into its tag. -/
theorem leads_expression {e : Expr} (writable : e.Writable) (purpose : Purpose) :
    Leads (reading.reach (.expression purpose .start)) (e.tokens ++ [.closing purpose.tag])
      (· = reading.complete (purpose.ending e)) := by
  obtain ⟨grown, fed, finished⟩ := Expr.Reading.feed_tokens writable
  refine leads_feed fed (leads_step (fun start stop => ?_) (leads_nil rfl))
  rw [← complete_reach reading (.expression purpose grown)]
  simp only [next, reach, finished, if_true]

/-- The end of a tag that has nothing left to read. -/
theorem leads_close (ending : Ending) :
    Leads (reading.reach (.close ending)) [.closing .statement]
      (· = reading.complete ending) :=
  leads_step (fun _ _ => congrArg Except.ok (complete_reach reading (.close ending) ending))
    (leads_nil rfl)

/-- The state in a construct, with what has been read in it so far: the nodes around it wait on its
level. -/
def inside (reading : Reading) (opened : Opened) (place : Place) (nodes : List Node)
    (blocks : List String) : Reading :=
  { reading with
    nodes, levels := ⟨opened, place, reading.nodes⟩ :: reading.levels, blocks, stage := .content }

/-- The state behind a body: its nodes come behind those that are there, and its blocks are
remembered, the last one first. -/
def behind (reading : Reading) (nodes : List Node) : Reading :=
  { reading with
    nodes := reading.nodes ++ nodes
    blocks := (Node.blockNames nodes).reverse ++ reading.blocks
    stage := .content }

/-- The same state with other blocks. Blocks inside a construct stay known when the construct has
been ended. -/
def remember (reading : Reading) (blocks : List String) : Reading := { reading with blocks }

/-- The tag of a statement starts with the word of the statement. What the word leads to, and what
follows it, is left to the premise, so that every statement is this law with its own step. -/
theorem leads_statement {word : Keyword} {written : List Kind} {Reached : Reading → Prop}
    (content : reading.stage = .content)
    (step : ∀ place, ∃ next, (reading.reach .statement).statement place (.keyword word) = .ok next ∧
      Leads next (written ++ [.closing .statement]) Reached) :
    Leads reading (Node.statement (.keyword word :: written)).kinds Reached := by
  have opened (start : Place) (stop : Nat) :
      reading.next ⟨.opening .statement, start, stop⟩ = .ok (reading.reach .statement) := by
    simp only [next, content]
  exact leads_step opened (leads_cons fun start _ => step start)

/-- The tag of a value adds a node. -/
theorem leads_output {e : Expr} (writable : e.Writable) (content : reading.stage = .content) :
    Leads reading (Segment.tag .output e.tokens).kinds (· = reading.add (.output e)) := by
  have opened (start : Place) (stop : Nat) :
      reading.next ⟨.opening .output, start, stop⟩ =
        .ok (reading.reach (.expression .output .start)) := by
    simp only [next, content]
  exact leads_step opened (leads_expression writable .output)

/-- A tag that begins a construct leads into it. -/
theorem leads_descend (opened : Opened) (place : Place) (blocks : List String) :
    Leads ((reading.remember blocks).reach (.close (.descend opened place)))
      [.closing .statement] (· = reading.inside opened place [] blocks) :=
  leads_close (.descend opened place)

/-- The tag of a loop leads into the loop. Each of its tokens leads on to the next stage, and the
expression is read by the lemma for expressions. -/
theorem leads_for {target : String} {sequence : Expr} (writable : sequence.Writable)
    (content : reading.stage = .content) :
    Leads reading
      (Node.statement (.keyword .for :: .name target :: .keyword .in :: sequence.tokens)).kinds
      fun reached => ∃ place,
        reached = reading.inside (.loop target sequence) place [] reading.blocks := by
  refine leads_statement content fun place => ⟨reading.reach (.loopTarget place), rfl, ?_⟩
  have named (start : Place) (stop : Nat) :
      (reading.reach (.loopTarget place)).next ⟨.name target, start, stop⟩ =
        .ok (reading.reach (.loopIn place target)) := rfl
  have joined (start : Place) (stop : Nat) :
      (reading.reach (.loopIn place target)).next ⟨.keyword .in, start, stop⟩ =
        .ok (reading.reach (.expression (.loop place target) .start)) := rfl
  refine leads_step named (leads_step joined ?_)
  exact leads_imp (leads_expression writable (.loop place target)) fun _ reached => ⟨place, reached⟩

/-- The first tag of a choice leads into its first case. No case is finished at this point, and the
blocks known so far stay known. -/
theorem leads_if {condition : Expr} (writable : condition.Writable)
    (content : reading.stage = .content) :
    Leads reading (Node.statement (.keyword .if :: condition.tokens)).kinds
      fun reached => ∃ place,
        reached = reading.inside (.case [] condition) place [] reading.blocks := by
  refine leads_statement content fun place =>
    ⟨reading.reach (.expression (.case place []) .start), rfl, ?_⟩
  exact leads_imp (leads_expression writable (.case place [])) fun _ reached => ⟨place, reached⟩

/-- The tag of a block leads into the block, if its name is new; from then on the name is known. The
name is remembered at once, so a block inside it cannot have the same one. -/
theorem leads_block {name : String} (new : name ∉ reading.blocks)
    (content : reading.stage = .content) :
    Leads reading (Node.statement [.keyword .block, .name name]).kinds
      fun reached => ∃ place,
        reached = reading.inside (.block name) place [] (name :: reading.blocks) := by
  refine leads_statement content fun place => ⟨reading.reach (.blockName place), rfl, ?_⟩
  have named (start : Place) (stop : Nat) :
      (reading.reach (.blockName place)).next ⟨.name name, start, stop⟩ =
        .ok ((reading.remember (name :: reading.blocks)).reach
          (.close (.descend (.block name) place))) := if_neg new
  refine leads_step named ?_
  exact leads_imp (leads_descend (.block name) place _) fun _ reached => ⟨place, reached⟩

/-- The tag of an embedded template adds a node. Its name must not be relative, or the node would
have the name that it is resolved to. -/
theorem leads_include {template : String}
    (rooted : Reference.isRelative template.toList = false) (content : reading.stage = .content) :
    Leads reading (Node.statement [.keyword .include, .string template]).kinds
      (· = reading.add (.embed template)) := by
  refine leads_statement content fun place => ⟨reading.reach (.reference .embedded), rfl, ?_⟩
  have named (start : Place) (stop : Nat) :
      (reading.reach (.reference .embedded)).next ⟨.string template, start, stop⟩ =
        .ok (reading.reach (.close (.add (.embed template)))) := by
    simp only [next, reach, Reference.resolve?, rooted, Bool.false_eq_true, if_false, Link.node]
  exact leads_step named (leads_close (.add (.embed template)))

section Ends

variable (place : Place) (body : List Node) (blocks : List String)

/-- A word that ends or continues a construct leads out of it. What it makes of the construct is the
second premise, and what follows the word in its tag is left open, since a condition may. -/
theorem leads_terminator {opened : Opened} {word : Keyword} (stage : Stage)
    (terminator : isTerminator word = true)
    (leaves : (reading.inside opened place body blocks).terminate word =
      .ok ((reading.remember blocks).reach stage))
    {written : List Kind} {Reached : Reading → Prop}
    (leads : Leads ((reading.remember blocks).reach stage) (written ++ [.closing .statement])
      Reached) :
    Leads (reading.inside opened place body blocks)
      (Node.statement (.keyword word :: written)).kinds Reached := by
  have left : ((reading.inside opened place body blocks).reach .statement).terminate word =
      .ok ((reading.remember blocks).reach stage) := leaves
  refine leads_statement rfl fun place => ⟨(reading.remember blocks).reach stage, ?_, leads⟩
  rw [← left]
  cases word <;> first | rfl | cases terminator

/-- The end of a loop adds the loop to the nodes around it. -/
theorem leads_endfor (target : String) (sequence : Expr) :
    Leads (reading.inside (.loop target sequence) place body blocks)
      (Node.statement [.keyword .endfor]).kinds
      (· = (reading.remember blocks).add (.loop target sequence body)) :=
  leads_terminator place body blocks (.close (.add (.loop target sequence body))) rfl rfl
    (leads_close (.add (.loop target sequence body)))

/-- The end of a block adds the block to the nodes around it. -/
theorem leads_endblock (name : String) :
    Leads (reading.inside (.block name) place body blocks)
      (Node.statement [.keyword .endblock]).kinds
      (· = (reading.remember blocks).add (.block name body)) :=
  leads_terminator place body blocks (.blockEnd name body) rfl rfl
    (leads_step (fun _ _ => rfl) (leads_nil rfl))

variable (cases : List (Expr × List Node)) (condition : Expr)

/-- Another case follows a case, and the nodes so far are those of the case before it. -/
theorem leads_elif {other : Expr} (writable : other.Writable) :
    Leads (reading.inside (.case cases condition) place body blocks)
      (Node.statement (.keyword .elif :: other.tokens)).kinds
      (· = reading.inside (.case (cases ++ [(condition, body)]) other) place [] blocks) :=
  leads_terminator place body blocks
    (.expression (.case place (cases ++ [(condition, body)])) .start) rfl rfl
    (leads_expression writable (.case place (cases ++ [(condition, body)])))

/-- The other body follows a case, and no case may follow it. -/
theorem leads_else :
    Leads (reading.inside (.case cases condition) place body blocks)
      (Node.statement [.keyword .else]).kinds
      (· = reading.inside (.otherwise (cases ++ [(condition, body)])) place [] blocks) :=
  leads_terminator place body blocks
    (.close (.descend (.otherwise (cases ++ [(condition, body)])) place)) rfl rfl
    (leads_descend (.otherwise (cases ++ [(condition, body)])) place blocks)

/-- The end of a choice behind a case adds the choice to the nodes around it. -/
theorem leads_endif_case :
    Leads (reading.inside (.case cases condition) place body blocks)
      (Node.statement [.keyword .endif]).kinds
      (· = (reading.remember blocks).add (.choice (cases ++ [(condition, body)]) none)) :=
  leads_terminator place body blocks
    (.close (.add (.choice (cases ++ [(condition, body)]) none))) rfl rfl
    (leads_close (.add (.choice (cases ++ [(condition, body)]) none)))

/-- So does its end behind the other body. -/
theorem leads_endif_otherwise :
    Leads (reading.inside (.otherwise cases) place body blocks)
      (Node.statement [.keyword .endif]).kinds
      (· = (reading.remember blocks).add (.choice cases (some body))) :=
  leads_terminator place body blocks (.close (.add (.choice cases (some body)))) rfl rfl
    (leads_close (.add (.choice cases (some body))))

end Ends

end Tags

/-- What is written of nodes is read as these nodes, wherever it stands between tags and their
blocks are new. It is said of every state that is between tags, so that it can be used inside any
construct. -/
def ReadBack (nodes : List Node) : Prop :=
  ∀ reading : Reading, reading.stage = .content →
    ((Node.blockNames nodes).reverse ++ reading.blocks).Nodup →
      Leads reading ((Node.segmentsOf nodes).flatMap Segment.kinds) (· = reading.behind nodes)

/-- Nothing is read back from nothing. -/
theorem read_back_nil : ReadBack [] := by
  rintro ⟨name, nodes, levels, blocks, inherited, stage⟩ rfl -
  refine leads_nil ?_
  rw [behind, List.append_nil]
  rfl

/-- Nodes are read one behind the other. The blocks of the first are known when the others are read,
so the names have to be distinct over all of them. Names that are known are kept with the last one
first, and so they are reversed here. -/
theorem read_back_cons {node : Node} {rest : List Node} (first : ReadBack [node])
    (others : ReadBack rest) : ReadBack (node :: rest) := by
  intro reading content distinct
  have names : Node.blockNames (node :: rest) =
      Node.blockNames [node] ++ Node.blockNames rest := by
    rw [Node.blockNames, ← List.singleton_append, Node.blocks_of_append, List.map_append]
    rfl
  have parts : Node.segmentsOf (node :: rest) =
      Node.segmentsOf [node] ++ Node.segmentsOf rest := by
    rw [Node.segmentsOf, Node.segmentsOf, Node.segmentsOf, List.append_nil]
  rw [names, List.reverse_append, List.append_assoc] at distinct
  rw [parts, List.flatMap_append]
  apply leads_append (first reading content (List.Nodup.of_append_right distinct))
  rintro between rfl
  apply leads_imp (others (reading.behind [node]) rfl distinct)
  rintro reached rfl
  simp only [behind, names, List.reverse_append, List.append_assoc, List.singleton_append]

/-- A text is read back. -/
theorem read_back_text (s : String) : ReadBack [.text s] := by
  intro reading content _
  have added (start : Place) (stop : Nat) :
      reading.next ⟨.text s, start, stop⟩ = .ok (reading.add (.text s)) := by
    simp only [next, content]
  exact leads_step added (leads_nil rfl)

/-- The value of an expression is read back if the expression can be written. -/
theorem read_back_output {e : Expr} (writable : e.Writable) : ReadBack [.output e] := by
  intro reading content _
  exact leads_append (leads_output writable content) fun _ reached => leads_nil reached

/-- An embedded template is read back. Its name must not be relative, for otherwise it would be
resolved when it is read. -/
theorem read_back_embed {template : String}
    (rooted : Reference.isRelative template.toList = false) : ReadBack [.embed template] := by
  intro reading content _
  exact leads_append (leads_include rooted content) fun _ reached => leads_nil reached

/-- What is written of a body is read inside the construct that has begun, and nothing of the
construct changes but its nodes and the blocks known. -/
theorem leads_body {body : List Node} (inner : ReadBack body) (reading : Reading)
    (opened : Opened) (place : Place) {blocks : List String}
    (distinct : ((Node.blockNames body).reverse ++ blocks).Nodup) :
    Leads (reading.inside opened place [] blocks) ((Node.segmentsOf body).flatMap Segment.kinds)
      (· = reading.inside opened place body ((Node.blockNames body).reverse ++ blocks)) :=
  inner (reading.inside opened place [] blocks) rfl distinct

/-- A loop is read back if its body is: its first tag, its body and its end lead one to the next. It
has no name, so the names in it are those of its body. -/
theorem read_back_loop {target : String} {sequence : Expr} {body : List Node}
    (writable : sequence.Writable) (inner : ReadBack body) :
    ReadBack [.loop target sequence body] := by
  intro reading content distinct
  have names : Node.blockNames [.loop target sequence body] = Node.blockNames body := by
    simp [Node.blockNames]
  rw [names] at distinct
  rw [Node.segmentsOf, Node.segmentsOf, List.append_nil, Node.segments, List.flatMap_cons,
    List.flatMap_append, List.flatMap_singleton]
  apply leads_append (leads_for writable content)
  rintro between ⟨place, rfl⟩
  apply leads_append (leads_body inner reading _ place distinct)
  rintro between rfl
  apply leads_imp (leads_endfor place body _ target sequence)
  rintro reached rfl
  simp only [behind, remember, add, names]

/-- A block is read back if its body is. Its own name is known when its body is read, so no block
inside it may have it. The end is written without the name. -/
theorem read_back_block {name : String} {body : List Node} (inner : ReadBack body) :
    ReadBack [.block name body] := by
  intro reading content distinct
  have names : Node.blockNames [.block name body] = name :: Node.blockNames body := by
    simp [Node.blockNames]
  rw [names, List.reverse_cons, List.append_assoc, List.singleton_append] at distinct
  have new : name ∉ reading.blocks := (List.nodup_cons.mp distinct.of_append_right).1
  rw [Node.segmentsOf, Node.segmentsOf, List.append_nil, Node.segments, List.flatMap_cons,
    List.flatMap_append, List.flatMap_singleton]
  apply leads_append (leads_block new content)
  rintro between ⟨place, rfl⟩
  apply leads_append (leads_body inner reading _ place distinct)
  rintro between rfl
  apply leads_imp (leads_endblock place body _ name)
  rintro reached rfl
  simp only [behind, remember, add, names, List.reverse_cons, List.append_assoc,
    List.singleton_append]

/-- The names of the blocks in the cases of a choice. -/
def caseNames (cases : List (Expr × List Node)) : List String :=
  (Node.blocksOfCases cases).map Prod.fst

/-- The names in the cases are those of the first body and then those of the others. -/
theorem caseNames_cons (condition : Expr) (body : List Node)
    (rest : List (Expr × List Node)) :
    caseNames ((condition, body) :: rest) = Node.blockNames body ++ caseNames rest := by
  rw [caseNames, Node.blocksOfCases, List.map_append]
  rfl

/-- Behind a case all further cases are read, and the last of them is open. The induction is over
the further cases, with whatever case is open at the beginning. -/
theorem leads_cases {cases : List (Expr × List Node)}
    (each : ∀ case ∈ cases, case.1.Writable ∧ ReadBack case.2) (reading : Reading) (place : Place)
    (before : List (Expr × List Node)) (condition : Expr) (body : List Node)
    {blocks : List String} (distinct : ((caseNames cases).reverse ++ blocks).Nodup) :
    Leads (reading.inside (.case before condition) place body blocks)
      ((Node.segmentsOfCases .elif cases).flatMap Segment.kinds)
      fun reached => ∃ finished last nodes,
        finished ++ [(last, nodes)] = before ++ (condition, body) :: cases ∧
          reached = reading.inside (.case finished last) place nodes
            ((caseNames cases).reverse ++ blocks) := by
  induction cases generalizing before condition body blocks with
  | nil => exact leads_nil ⟨before, condition, body, rfl, rfl⟩
  | cons case rest inductionHypothesis =>
    obtain ⟨other, nodes⟩ := case
    obtain ⟨⟨writable, inner⟩, others⟩ := List.forall_mem_cons.mp each
    rw [caseNames_cons, List.reverse_append, List.append_assoc] at distinct
    rw [Node.segmentsOfCases, List.flatMap_cons, List.flatMap_append]
    apply leads_append (leads_elif place body blocks before condition writable)
    rintro between rfl
    apply leads_append (leads_body inner reading _ place distinct.of_append_right)
    rintro between rfl
    apply leads_imp (inductionHypothesis others _ other nodes distinct)
    rintro reached ⟨finished, last, read, parts, rfl⟩
    refine ⟨finished, last, read, ?_, ?_⟩
    · rw [parts, List.append_assoc, List.singleton_append]
    · rw [caseNames_cons, List.reverse_append, List.append_assoc]

/-- From the start of a choice all cases are read, and the last of them is open. There is at least
one case, since a choice without any cannot be written. The first case has a word of its own, and
the others are read one by one. -/
theorem leads_choice {cases : List (Expr × List Node)} (present : cases ≠ [])
    (each : ∀ case ∈ cases, case.1.Writable ∧ ReadBack case.2) {reading : Reading}
    (content : reading.stage = .content)
    (distinct : ((caseNames cases).reverse ++ reading.blocks).Nodup) :
    Leads reading ((Node.segmentsOfCases .if cases).flatMap Segment.kinds)
      fun reached => ∃ finished last nodes place, finished ++ [(last, nodes)] = cases ∧
        reached = reading.inside (.case finished last) place nodes
          ((caseNames cases).reverse ++ reading.blocks) := by
  cases cases with
  | nil => exact absurd rfl present
  | cons case rest =>
    obtain ⟨condition, body⟩ := case
    obtain ⟨⟨writable, inner⟩, others⟩ := List.forall_mem_cons.mp each
    rw [caseNames_cons, List.reverse_append, List.append_assoc] at distinct ⊢
    rw [Node.segmentsOfCases, List.flatMap_cons, List.flatMap_append]
    apply leads_append (leads_if writable content)
    rintro between ⟨place, rfl⟩
    apply leads_append (leads_body inner reading _ place distinct.of_append_right)
    rintro between rfl
    apply leads_imp (leads_cases others reading place [] condition body distinct)
    rintro reached ⟨finished, last, nodes, parts, read⟩
    exact ⟨finished, last, nodes, place, parts, read⟩

/-- A choice is read back if its bodies are. Its end stands behind the last case or behind the other
body, and makes the same node of it. The names are those of the cases and of the other body, in this
order. -/
theorem read_back_choice {cases : List (Expr × List Node)} {otherwise : Option (List Node)}
    (present : cases ≠ []) (each : ∀ case ∈ cases, case.1.Writable ∧ ReadBack case.2)
    (inOther : ∀ body ∈ otherwise, ReadBack body) : ReadBack [.choice cases otherwise] := by
  intro reading content distinct
  rw [Node.segmentsOf, Node.segmentsOf, List.append_nil, Node.segments, List.flatMap_append,
    List.flatMap_append, List.flatMap_singleton]
  cases otherwise with
  | none =>
    have names : Node.blockNames [.choice cases none] = caseNames cases := by
      simp only [Node.blockNames, Node.blocksOf, Node.blocks, Node.blocksOfOption, caseNames,
        List.append_nil]
    rw [names] at distinct
    apply leads_append (leads_choice present each content distinct)
    rintro between ⟨finished, last, nodes, place, rfl, rfl⟩
    apply leads_imp (leads_endif_case place nodes _ finished last)
    rintro reached rfl
    simp only [behind, remember, add, names]
  | some body =>
    have names : Node.blockNames [.choice cases (some body)] =
        caseNames cases ++ Node.blockNames body := by
      simp only [Node.blockNames, Node.blocksOf, Node.blocks, Node.blocksOfOption, caseNames,
        List.append_nil, List.map_append]
    rw [names, List.reverse_append, List.append_assoc] at distinct
    rw [Node.segmentsOfOption, List.flatMap_cons, List.append_assoc]
    apply leads_append (leads_choice present each content distinct.of_append_right)
    rintro between ⟨finished, last, nodes, place, rfl, rfl⟩
    apply leads_append (leads_else place nodes _ finished last)
    rintro between rfl
    apply leads_append (leads_body (inOther body rfl) reading _ place distinct)
    rintro between rfl
    apply leads_imp (leads_endif_otherwise place body _ _)
    rintro reached rfl
    simp only [behind, remember, add, names, List.reverse_append, List.append_assoc]

/-- Whatever can be written and names no parent is read back. The induction is over the body, with
one law for each kind of node. A parent is read back apart from this, because it stands only in
front of a whole template. -/
theorem read_back_body {nodes : List Node} (writable : Node.WritableBody nodes)
    (orphan : Node.Orphan nodes) : ReadBack nodes := by
  induction nodes using Node.body_induction with
  | nil => exact read_back_nil
  | text s rest behind =>
    exact read_back_cons (read_back_text s) (behind writable.2.2 (Node.orphan_rest orphan))
  | output e rest behind =>
    exact read_back_cons (read_back_output writable.1)
      (behind writable.2.2 (Node.orphan_rest orphan))
  | loop target sequence body rest inner behind =>
    obtain ⟨⟨-, expression, within⟩, -, others⟩ := writable
    have noParent : Node.Orphan body := fun parent found => orphan parent (by simp [found])
    exact read_back_cons (read_back_loop expression (inner within noParent))
      (behind others (Node.orphan_rest orphan))
  | choice cases otherwise rest inCases inOther behind =>
    obtain ⟨⟨present, first, second⟩, -, others⟩ := writable
    have each : ∀ case ∈ cases, case.1.Writable ∧ ReadBack case.2 := by
      intro case member
      obtain ⟨condition, body⟩ := Node.writable_case first case member
      -- A parent named in the body of a case would be named in the choice.
      refine ⟨condition, inCases case member body fun parent found => orphan parent ?_⟩
      have held : .inherits parent ∈ cases.flatMap fun case => Node.allOf case.2 :=
        List.mem_flatMap.mpr ⟨case, member, found⟩
      rw [Node.all_of_choice]
      exact List.mem_cons_of_mem _
        (List.mem_append_left _ (List.mem_append_left _ held))
    have other : ∀ body ∈ otherwise, ReadBack body := by
      rintro body rfl
      exact inOther body rfl second fun parent found => orphan parent (by simp [found])
    exact read_back_cons (read_back_choice present each other)
      (behind others (Node.orphan_rest orphan))
  | block name body rest inner behind =>
    obtain ⟨⟨-, within⟩, -, others⟩ := writable
    have noParent : Node.Orphan body := fun parent found => orphan parent (by simp [found])
    exact read_back_cons (read_back_block (inner within noParent))
      (behind others (Node.orphan_rest orphan))
  | inherits parent rest behind => exact absurd List.mem_cons_self (orphan parent)
  | embed template rest behind =>
    exact read_back_cons (read_back_embed writable.1)
      (behind writable.2.2 (Node.orphan_rest orphan))

/-- The tag that names a parent adds a node, at the very beginning, and it is remembered that a
parent was named. -/
theorem leads_extends (name : Option String) {parent : String}
    (rooted : Reference.isRelative parent.toList = false) :
    Leads (start name) (Node.statement [.keyword .extends, .string parent]).kinds
      (· = { start name with nodes := [.inherits parent], inherited := true }) := by
  refine leads_statement rfl fun place =>
    ⟨{ start name with inherited := true, stage := .reference .parent }, rfl, ?_⟩
  have named (start' : Place) (stop : Nat) :
      ({ start name with inherited := true, stage := .reference .parent } : Reading).next
          ⟨.string parent, start', stop⟩ =
        .ok { start name with
          inherited := true, stage := .close (.add (.inherits parent)) } := by
    simp only [next, reach, Reference.resolve?, rooted, Bool.false_eq_true, if_false, Link.node]
  exact leads_step named (leads_step (fun _ _ => rfl) (leads_nil rfl))

/-- From the start the tokens of well-formed nodes lead to these nodes, between tags and with
nothing open. If a parent is named, it is the first node, and no other follows. -/
theorem leads_well_formed (name : Option String) {nodes : List Node}
    (wellFormed : Node.WellFormed nodes) :
    Leads (start name) ((Node.segmentsOf nodes).flatMap Segment.kinds)
      fun reached => reached.result = .ok nodes := by
  obtain ⟨writable, distinct, orphan | ⟨parent, rest, rfl, orphan⟩⟩ := wellFormed
  · have fresh : ((Node.blockNames nodes).reverse ++ (start name).blocks).Nodup := by
      simpa [start] using distinct
    apply leads_imp (read_back_body writable orphan (start name) rfl fresh)
    rintro reached rfl
    rfl
  · have fresh : ((Node.blockNames rest).reverse ++ []).Nodup := by
      simpa [Node.blockNames] using distinct
    apply leads_append (leads_extends name writable.1)
    rintro between rfl
    apply leads_imp (read_back_body writable.2.2 orphan _ rfl fresh)
    rintro reached rfl
    rfl

end Template.Reading

namespace Template

open Token (kinds_segments kinds_tokensFrom)

/-- What well-formed nodes are written as is read as these nodes, whatever the template is called
and whichever marks its quoted texts stand between. Proof: the source has the tokens of the
segments, by what is known of writing sources, and these tokens lead to the nodes. -/
theorem nodes_of_written (name : Option String) (quote : Quote) {nodes : List Node}
    (wellFormed : Node.WellFormed nodes) :
    nodesOfSource name false (Node.source quote nodes) = .ok nodes := by
  have kinds : (Token.Stream.ofSource false (Node.source quote nodes)).tokens.map Token.kind =
      (Node.segmentsOf nodes).flatMap Segment.kinds := by
    rw [Token.Stream.ofSource, kinds_tokensFrom, Node.source, String.toList_ofList]
    exact kinds_segments quote (Node.laid_segments wellFormed.writable)
  obtain ⟨reached, ran, read⟩ := Reading.leads_well_formed name wellFormed _ kinds
  rw [nodesOfSource, nodesOfStream, ran]
  simp only [read]

/-- A template with every construct in it, in an order in which each construct has another inside it
or behind it. -/
def rowReport : List Node :=
  [.inherits "base", .text "Rows:\n",
    .loop "row" (.index (.variable "rows") (.int (-1)))
      [.block "line" [.output (.filter (.attribute (.variable "row") "0") "upper" [])]],
    .choice [(.not (.binary .or (.variable "a") (.variable "b")), [.text "\x7b none \x7d"]),
      (.binary .equal (.list [.bool true, .none]) (.not (.variable "c")), [])]
      (some [.embed "foot"]),
    .output (.filter (.binary .plus (.text "it's") (.variable "d")) "join" [.text "\\"])]

/-- The template is well-formed; each condition is checked on its nodes. References to other
templates are full names in it, since they are written as they are. -/
theorem row_report_well_formed : Node.WellFormed rowReport where
  writable := by
    have heading : Text.IsPlain "Rows:\n" := ⟨by decide, by decide +kernel, by decide +kernel⟩
    have notice : Text.IsPlain "\x7b none \x7d" :=
      ⟨by decide, by decide +kernel, by decide +kernel⟩
    have first : Expr.IsPart "0" := .inr ⟨0, by decide, by decide +kernel⟩
    have number : (-1 : Int64) ≠ Int64.minValue := by decide
    have names : ∀ name ∈ ["rows", "row", "line", "upper", "join", "a", "b", "c", "d"],
        Token.isName name = true := by decide +kernel
    simp only [List.forall_mem_cons] at names
    simp [rowReport, Node.WritableBody, Node.Writable, Node.WritableCases, Node.WritableOption,
      Node.Apart, Expr.Writable, Expr.WritableAll, Reference.isRelative, *]
  distinct := by simp [rowReport, Node.blockNames]
  parentFirst := by
    refine .inr ⟨"base", _, rfl, ?_⟩
    intro parent found
    simp at found

/-- It is read back from what it is written as. -/
theorem nodes_of_written_report :
    nodesOfSource (some "list") false (Node.source .single rowReport) = .ok rowReport :=
  nodes_of_written (some "list") .single row_report_well_formed

example : Node.source .single
    [.output (.filter (.binary .plus (.text "it's") (.int (-1))) "upper" [])] =
      "\x7b\x7b ( 'it\\'s' + - 1 ) | upper \x7d\x7d" := by decide +kernel

end Template

end Stencil
