import Stencil.Proofs.Reachable
import Stencil.Proofs.RoundTrip

/-!
# Sources by themselves

A source that belongs to no engine refers to nothing else, if there are only texts and values to be
put out in it. Then what it is rendered as is what its nodes say in the scope of the variables.
A tag that puts a value out is read as its tokens, and they as the expression that has these
tokens.
-/

namespace Stencil

/-- A node that needs no other template and has no body. The sources looked at here are made of
nothing else. -/
def Node.IsLeaf : Node → Prop
  | .text _ | .output _ => True
  | _ => False

section Leaves

variable {nodes : List Node}

/-- There is no block that could be put in, so flattening leaves the nodes as they are, whatever the
overrides. -/
theorem flatten_leaves (leaves : ∀ node ∈ nodes, node.IsLeaf) (overrides : Overrides)
    (expanding : List String) : overrides.flatten expanding nodes = nodes := by
  induction nodes with
  | nil => exact Overrides.flatten_nil ..
  | cons node rest inductionHypothesis =>
    obtain ⟨leaf, others⟩ := List.forall_mem_cons.mp leaves
    cases node with
    | text s => rw [Overrides.flatten_text, inductionHypothesis others]
    | output e => rw [Overrides.flatten_output, inductionHypothesis others]
    | _ => exact leaf.elim

/-- A template of its own has no parent: none of its nodes names one. Only the first node is asked,
and it is a text or an output. -/
theorem orphan_leaves (leaves : ∀ node ∈ nodes, node.IsLeaf) (name source : String) :
    (Template.mk name source nodes).parent? = none := by
  cases nodes with
  | nil => rfl
  | cons node rest =>
    have leaf := leaves node List.mem_cons_self
    cases node with
    | text s => rfl
    | output e => rfl
    | _ => exact leaf.elim

/-- A source without references is rendered as what its nodes say, in the scope of the variables and
with escaping on. What would embed is left open, since nothing asks for it. -/
theorem renderText_leaves {source : String} (leaves : ∀ node ∈ nodes, node.IsLeaf)
    (read : Template.nodesOfSource (some "<string>") false source = .ok nodes)
    (bindings : Layer) : ∃ embed scope, Scope.assemble [] bindings = .ok scope ∧
      renderText source bindings = sayBody embed true nodes scope := by
  let template : Template := ⟨"<string>", source, nodes⟩
  let engine := (Engine.new {}).insert template
  have made : Template.ofSource "<string>" false source = .ok template := by
    rw [Template.ofSource, read]
    rfl
  have sound : engine.Sound := (Engine.sound_new {}).later (.insert .refl made)
  have kept : engine.registry.entry? "<string>" = some ⟨template, 1⟩ := rfl
  have climbed : Lineage.ofLeaf engine.registry 64 "<string>" = .ok [⟨template, 1⟩] :=
    Lineage.climb_of_rises (.root (by simp) kept (orphan_leaves leaves "<string>" source))
  have flattened : Flattened.ofLeaf engine.registry 64 "<string>" =
      .ok ⟨"<string>", [("<string>", 1)], nodes⟩ := by
    rw [Flattened.ofLeaf, climbed]
    exact congrArg (fun nodes => Except.ok (Flattened.mk "<string>" [("<string>", 1)] nodes))
      (flatten_leaves leaves _ [])
  refine ⟨sayEmbedded (Flattened.ofLeaf engine.registry 64) true 64 [], _, rfl, ?_⟩
  rw [renderText, made]
  show (engine.render "<string>" bindings).1 = _
  rw [(Engine.render_answers sound "<string>" bindings).1]
  show (do
    let template ← Flattened.ofLeaf engine.registry 64 "<string>"
    let scope ← Scope.assemble [] bindings
    say (Flattened.ofLeaf engine.registry 64) 64 true [] template.nodes scope) = _
  rw [flattened]
  rfl

end Leaves

namespace Token

section Tags

variable (trim : Bool) {source : List Char}

/-- A tag is opened, and the blank behind is passed over. What follows must not begin with a blank,
or the gap would be longer. -/
theorem pieces_opened (unblank : Unblank source) :
    pieces trim (.text false) ('{' :: '{' :: ' ' :: source) =
      .token (.opening .output) ['{', '{'] :: .gap .blank [' '] ::
        pieces trim (.tag .output false) source := by
  have opened : step trim (.text false) '{' ('{' :: ' ' :: source) =
      .token (.opening .output) 1 (.tag .output false) := rfl
  rw [pieces_of_token opened]
  show _ :: pieces trim (.tag .output false) (' ' :: source) = _
  rw [pieces_of_gap (step_blank trim .output false unblank)]
  rfl

/-- A tag is closed behind a blank, whatever has been read in it. These are the last three
characters of the sources that have a single tag. -/
theorem pieces_closed (afterDot : Bool) :
    pieces trim (.tag .output afterDot) [' ', '}', '}'] =
      [.gap .blank [' '], .token (.closing .output) ['}', '}']] := by
  have closed : step trim (.tag .output afterDot) '}' ['}'] =
      .token (.closing .output) 1 (.text false) := rfl
  have unblank : Unblank ['}', '}'] := ⟨'}', ['}'], rfl, by decide⟩
  rw [pieces_of_gap (step_blank trim .output afterDot unblank)]
  show _ :: pieces trim (.tag .output afterDot) ['}', '}'] = _
  rw [pieces_of_token closed]
  show _ :: _ :: pieces trim (.text false) [] = _
  rw [pieces]
  rfl

end Tags

end Token

/-- A tag with the tokens of an expression puts out the value of the expression. The premise is
about the tokens alone, so the source may be written in any way that has them. -/
theorem Template.nodes_of_output {e : Expr} (writable : e.Writable) {trim : Bool} {source : String}
    (kinds : (Token.Stream.ofSource trim source).tokens.map Token.kind =
      .opening .output :: (e.tokens ++ [.closing .output])) (name : Option String) :
    nodesOfSource name trim source = .ok [.output e] := by
  have content : (Reading.start name).stage = .content := rfl
  obtain ⟨reached, ran, rfl⟩ := Reading.leads_output writable content _ kinds
  exact nodesOfSource_ok.mpr ⟨_, ran, rfl⟩

/-- Such a source is rendered as what the value is put out as, in the scope of the variables. A
value that cannot be had, or cannot be put out, is the fault. -/
theorem renderText_output {e : Expr} (writable : e.Writable) {source : String}
    (kinds : (Token.Stream.ofSource false source).tokens.map Token.kind =
      .opening .output :: (e.tokens ++ [.closing .output])) (bindings : Layer) :
    ∃ scope, Scope.assemble [] bindings = .ok scope ∧ renderText source bindings =
      Except.mapError .mistyped (do (← e.eval true scope).emit true e) := by
  have leaves : ∀ node ∈ [Node.output e], node.IsLeaf := List.forall_mem_singleton.mpr trivial
  obtain ⟨embed, scope, assembled, rendered⟩ :=
    renderText_leaves leaves (Template.nodes_of_output writable kinds _) bindings
  rw [say_single, sayNode] at rendered
  exact ⟨scope, assembled, rendered⟩

end Stencil
