import Stencil.Proofs.Footprint
import Stencil.Proofs.Lasting
import Stencil.Proofs.Nodes

/-!
# Embedding as splicing

A node that embeds a template may stand anywhere in a body: in loops, in choices, in blocks, and in
these in turn. In its place the nodes of the embedded template may be written as well, the nodes
that its own lineage flattens to. Those nodes are the same wherever the template is embedded, so no
block that is overridden around them gets into them, and they are said in the scope that the place
has, with the variables of the loops around it.

Written in place, the nodes stand one template less deep than embedded ones. So templates that they
embed in turn may meet the bound on embedding no longer, but where it was not met before, nothing
changes.
-/

namespace Stencil

namespace Node

/-- A node around a body that is left open. A choice has several bodies, and any one of them may be
the open one. -/
inductive Shell where
  | loop (target : String) (sequence : Expr)
  | block (name : String)
  /-- A choice in which the body of a case is left open. -/
  | case (before : List (Expr × List Node)) (condition : Expr)
    (behind : List (Expr × List Node)) (otherwise : Option (List Node))
  /-- A choice in which the body for no case is left open. -/
  | other (cases : List (Expr × List Node))

/-- The node with a body put in. It is the node that the shell was taken from, if the body is the
one that was taken out. -/
def Shell.close : Shell → List Node → Node
  | .loop target sequence, body => .loop target sequence body
  | .block name, body => .block name body
  | .case before condition behind otherwise, body =>
    .choice (before ++ (condition, body) :: behind) otherwise
  | .other cases, body => .choice cases (some body)

/-- A body with a gap in it, at any depth. The gap is a place between nodes, so any number of nodes
fits into it. -/
inductive Context where
  /-- The gap is here. -/
  | here (behind : List Node)
  /-- The gap is behind the first node. -/
  | after (node : Node) (rest : Context)
  /-- The gap is in the body that the first node leaves open. -/
  | inside (shell : Shell) (inner : Context) (behind : List Node)

/-- The body with nodes put into the gap. Of the nodes themselves nothing is asked, and there may be
none or many. -/
def Context.fill : Context → List Node → List Node
  | .here behind, nodes => nodes ++ behind
  | .after node rest, nodes => node :: rest.fill nodes
  | .inside shell inner behind, nodes => shell.close (inner.fill nodes) :: behind

/-- Gaps are everywhere: whatever node a body holds at any depth, it fills a gap there. The
induction is on the nodes, with a shell for each kind of body that the node may be in. -/
theorem Context.exists_fill {nodes : List Node} {node : Node} (member : node ∈ allOf nodes) :
    ∃ context : Context, context.fill [node] = nodes := by
  have after {first : Node} {rest : List Node}
      (behind : node ∈ allOf rest → ∃ context : Context, context.fill [node] = rest)
      (member : node ∈ allOf rest) : ∃ context : Context, context.fill [node] = first :: rest := by
    obtain ⟨context, filled⟩ := behind member
    exact ⟨.after first context, congrArg (first :: ·) filled⟩
  have single {first : Node} {rest : List Node}
      (behind : node ∈ allOf rest → ∃ context : Context, context.fill [node] = rest)
      (member : node ∈ first :: allOf rest) :
      ∃ context : Context, context.fill [node] = first :: rest := by
    rcases List.mem_cons.mp member with rfl | later
    · exact ⟨.here rest, rfl⟩
    · exact after behind later
  have inside (shell : Shell) {body rest : List Node}
      (inner : node ∈ allOf body → ∃ context : Context, context.fill [node] = body)
      (member : node ∈ allOf body) :
      ∃ context : Context, context.fill [node] = shell.close body :: rest := by
    obtain ⟨context, filled⟩ := inner member
    exact ⟨.inside shell context rest, congrArg (shell.close · :: rest) filled⟩
  induction nodes using body_induction with
  | nil => cases member
  | text s rest behind => exact single behind member
  | output e rest behind => exact single behind member
  | loop target sequence body rest inner behind =>
    simp only [all_of_loop, List.mem_cons, List.mem_append] at member
    rcases member with rfl | within | later
    · exact ⟨.here rest, rfl⟩
    · exact inside (.loop target sequence) inner within
    · exact after behind later
  | choice cases otherwise rest inCases inOther behind =>
    simp only [all_of_choice, List.mem_cons, List.mem_append, List.mem_flatMap,
      Option.mem_toList] at member
    rcases member with rfl | (⟨⟨condition, body⟩, chosen, within⟩ | ⟨body, present, within⟩) | later
    · exact ⟨.here rest, rfl⟩
    -- The gap is in one case, and the shell holds the cases before and behind it.
    · have inner := inCases (condition, body) chosen
      obtain ⟨before, behind, rfl⟩ := List.append_of_mem chosen
      exact inside (.case before condition behind otherwise) inner within
    · have inner := inOther body present
      obtain rfl : otherwise = some body := present
      exact inside (.other cases) inner within
    · exact after behind later
  | block name body rest inner behind =>
    simp only [all_of_block, List.mem_cons, List.mem_append] at member
    rcases member with rfl | within | later
    · exact ⟨.here rest, rfl⟩
    · exact inside (.block name) inner within
    · exact after behind later
  | inherits parent rest behind => exact single behind member
  | embed template rest behind => exact single behind member

end Node

section Speech

variable {embed : Scope → String → Except Fault String} (escaping : Bool)

/-- Nodes behind nodes are said behind them, and if those in front fail the others are left out. The
induction is on the nodes in front. -/
theorem say_append (first second : List Node) (scope : Scope) :
    sayBody embed escaping (first ++ second) scope = do
      let text ← sayBody embed escaping first scope
      return text ++ (← sayBody embed escaping second scope) := by
  induction first with
  | nil =>
    show _ = (do let text ← sayBody embed escaping second scope; return "" ++ text)
    simp only [List.nil_append, String.empty_append, bind_pure]
  | cons node rest inductionHypothesis =>
    simp only [List.cons_append, sayBody, inductionHypothesis, bind_assoc, pure_bind,
      String.append_assoc]

variable {first second : List Node}

/-- A node lasts if the body in it does. The cases are the shells; in a loop the premise is used in
the scope of every turn, and in a choice the other bodies are the same on both sides. -/
theorem lasts_close (shell : Node.Shell)
    (lasts : ∀ scope, Lasts (sayBody embed escaping first scope)
      (sayBody embed escaping second scope)) (scope : Scope) :
    Lasts (sayNode embed escaping (shell.close first) scope)
      (sayNode embed escaping (shell.close second) scope) := by
  have same (cases : List (Expr × List Node)) : List.Forall₂ (fun case otherCase =>
      otherCase.1 = case.1 ∧ Lasts (sayBody embed escaping case.2 scope)
        (sayBody embed escaping otherCase.2 scope)) cases cases :=
    List.forall₂_same.mpr fun case _ => ⟨rfl, lasts_refl _⟩
  cases shell with
  | loop target sequence =>
    exact lasts_bind (lasts_refl _) fun items => lasts_turns lasts scope 0 items
  | block name => exact lasts scope
  | case before condition behind otherwise =>
    refine lasts_cases escaping (lasts_refl _) scope ?_
    exact List.rel_append (same before) (.cons ⟨rfl, lasts scope⟩ (same behind))
  | other cases => exact lasts_cases escaping (lasts scope) scope (same cases)

/-- Nodes that last, last in any gap, whatever the scope is there. The induction is on the nodes
around the gap. -/
theorem lasts_fill (context : Node.Context)
    (lasts : ∀ scope, Lasts (sayBody embed escaping first scope)
      (sayBody embed escaping second scope)) (scope : Scope) :
    Lasts (sayBody embed escaping (context.fill first) scope)
      (sayBody embed escaping (context.fill second) scope) := by
  induction context generalizing scope with
  | here behind =>
    simp only [Node.Context.fill, say_append]
    exact lasts_append (lasts scope) (lasts_refl _)
  | after node rest inductionHypothesis =>
    exact lasts_append (lasts_refl _) (inductionHypothesis scope)
  | inside shell inner behind inductionHypothesis =>
    exact lasts_append (lasts_close escaping shell inductionHypothesis scope) (lasts_refl _)

end Speech

/-- What an embedded template says lasts if its nodes are said in place, in the same scope and one
template less deep. What they embed in turn may then go one deeper, which can only turn a cycle into
something else. -/
theorem lasts_in_place {library : Library} {name : String} {template : Flattened}
    (found : library name = .ok template) (escaping : Bool) (allowance : Nat)
    (around : List String) (scope : Scope) :
    Lasts (sayEmbedded library escaping allowance around scope name)
      (sayBody (sayEmbedded library escaping allowance around) escaping template.nodes scope) := by
  cases allowance with
  | zero => exact .inl ⟨around ++ [name], rfl⟩
  | succ allowance =>
    have embedded : sayEmbedded library escaping (allowance + 1) around scope name =
        sayBody (sayEmbedded library escaping allowance (around ++ [name])) escaping
          template.nodes scope := by
      rw [sayEmbedded, found]
      rfl
    rw [embedded]
    refine lasts_body escaping (fun scope name => ?_) template.nodes scope
    exact lasts_embedded escaping (fun _ => lasts_refl _) (Nat.le_succ allowance) _ _ scope name

/-- What a body says lasts if the nodes of an embedded template are written in its place, wherever
that is. -/
theorem lasts_splice {library : Library} {name : String} {template : Flattened}
    (found : library name = .ok template) (limit : Nat) (escaping : Bool) (around : List String)
    (context : Node.Context) (scope : Scope) :
    Lasts (say library limit escaping around (context.fill [.embed name]) scope)
      (say library limit escaping around (context.fill template.nodes) scope) := by
  refine lasts_fill escaping context (fun scope => ?_) scope
  rw [say_single, sayNode]
  exact lasts_in_place found escaping _ around scope

namespace Rendering

variable {σ : Type}

/-- Embedding is splicing. A body embeds a template anywhere, and the template has a lineage. With
the nodes that this lineage flattens to in place of the node that embeds it, the body is rendered
to the same text or fails with the same fault, unless it was a cycle that it failed with. Nothing
of the body around the gap goes into those nodes: they are given by the registry and the name, and
the blocks in them are the ones of their own lineage. -/
theorem embedding_is_splicing {InOrder : σ → Prop} {registry : Registry} {depth : Nat}
    {shelf : Shelf σ} (answers : shelf.Answers InOrder (Flattened.ofLeaf registry depth))
    (limit : Nat) (escaping : Bool) (context : Node.Context) {name : String}
    {template : Flattened} (found : Flattened.ofLeaf registry depth name = .ok template)
    (session : Session σ) (inOrder : InOrder session.shelf)
    (bounded : ¬IsCycle (render shelf limit escaping (context.fill [.embed name]) session).1) :
    (render shelf limit escaping (context.fill template.nodes) session).1 =
      (render shelf limit escaping (context.fill [.embed name]) session).1 := by
  obtain ⟨_, -, embedded⟩ :=
    render_wording answers limit escaping (context.fill [.embed name]) session inOrder
  obtain ⟨_, -, spliced⟩ :=
    render_wording answers limit escaping (context.fill template.nodes) session inOrder
  rw [embedded] at bounded
  rw [embedded, spliced]
  exact (lasts_splice found limit escaping session.embedding context session.scope).resolve_left
    bounded

/-- A sheet with a title, which embeds a label for each item. -/
def sheetTemplate : Template :=
  ⟨"sheet", "\x7b% block title %\x7dsheet\x7b% endblock %\x7d" ++
      "\x7b% for item in items %\x7d\x7b% if item %\x7d\x7b% include 'label' %\x7d" ++
      "\x7b% endif %\x7d\x7b% endfor %\x7d",
    [.block "title" [.text "sheet"], .loop "item" (.variable "items")
      [.choice [(.variable "item", [.embed "label"])] none]]⟩

/-- A list is a sheet with another title. -/
def listTemplate : Template :=
  ⟨"list", "\x7b% extends 'sheet' %\x7d\x7b% block title %\x7dlist\x7b% endblock %\x7d",
    [.inherits "sheet", .block "title" [.text "list"]]⟩

/-- A frame has a title as well. -/
def frameTemplate : Template :=
  ⟨"frame", "<\x7b% block title %\x7dframe\x7b% endblock %\x7d>",
    [.text "<", .block "title" [.text "frame"], .text ">"]⟩

/-- A label is a frame whose title is an item. -/
def labelTemplate : Template :=
  ⟨"label", "\x7b% extends 'frame' %\x7d" ++
      "\x7b% block title %\x7d\x7b\x7b item \x7d\x7d\x7b% endblock %\x7d",
    [.inherits "frame", .block "title" [.output (.variable "item")]]⟩

/-- The nodes of the list, with a gap where it embeds the label. -/
def listContext : Node.Context :=
  .after (.block "title" [.text "list"]) (.inside (.loop "item" (.variable "items"))
    (.inside (.case [] (.variable "item") [] none) (.here []) []) [])

/-- The label shows the item of the loop around it, in the block of its own parent. So does what it
is flattened to, put into the loop by hand. -/
theorem embedding_is_splicing_list :
    let registry : Registry := ⟨[("sheet", ⟨sheetTemplate, 1⟩), ("list", ⟨listTemplate, 2⟩),
      ("frame", ⟨frameTemplate, 3⟩), ("label", ⟨labelTemplate, 4⟩)], 4, false⟩
    let shelf := Store.shelf registry 2
    let label : Flattened := ⟨"label", [("frame", 3), ("label", 4)],
      [.text "<", .block "title" [.output (.variable "item")], .text ">"]⟩
    let session : Session Unit := ⟨⟨[[("items", .seq [.text "a", .text "b"])]]⟩, [], ()⟩
    let embedded := (render shelf 2 true (listContext.fill [.embed "label"]) session).1
    Flattened.ofLeaf registry 2 "list" =
        .ok ⟨"list", [("sheet", 1), ("list", 2)], listContext.fill [.embed "label"]⟩ ∧
      Flattened.ofLeaf registry 2 "label" = .ok label ∧
      shelf.Answers (fun _ => True) (Flattened.ofLeaf registry 2) ∧
      embedded = .ok "list<a><b>" ∧ ¬IsCycle embedded ∧
      (render shelf 2 true (listContext.fill label.nodes) session).1 = embedded := by
  intro registry shelf label session embedded
  have list : Flattened.ofLeaf registry 2 "list" =
      .ok ⟨"list", [("sheet", 1), ("list", 2)], listContext.fill [.embed "label"]⟩ := by
    simp only [registry]
    rw [Flattened.ofLeaf_eq_inRounds]
    decide +kernel
  have found : Flattened.ofLeaf registry 2 "label" = .ok label := by
    simp only [registry, label]
    rw [Flattened.ofLeaf_eq_inRounds]
    decide +kernel
  have rendered : embedded = .ok "list<a><b>" := by
    simp only [embedded, shelf, registry, session]
    rw [Store.shelf_eq_inRounds]
    decide +kernel
  have bounded : ¬IsCycle embedded := by
    rintro ⟨chain, failed⟩
    cases rendered.symm.trans failed
  have answers := Store.shelf_answers registry 2
  exact ⟨list, found, answers, rendered, bounded,
    embedding_is_splicing answers 2 true listContext found session trivial bounded⟩

end Rendering

end Stencil
