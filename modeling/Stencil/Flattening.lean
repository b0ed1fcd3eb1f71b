import Stencil.Lineage

/-!
# Flattening

A lineage is flattened into one body: the nodes of its root, with every block given the
body that counts for its name. Those bodies come from all templates of the lineage, and
of several with one name the one furthest down counts. They hold blocks in turn, whose
bodies count again; a block inside a body of its own name keeps what is written in it, so
flattening ends for any overrides whatever.
-/

namespace Stencil

/-- Bodies for blocks by name; of several for one name the last one counts. A lineage gives those of
the root first. -/
abbrev Overrides := List (String × List Node)

namespace Overrides

/-- The blocks of a lineage from the root down, and in each template the outer before the inner. So
those of a template further down come later and count. -/
def ofLineage (lineage : List Entry) : Overrides := lineage.flatMap (·.template.blocks)

/-- The body that counts for a name: that of the last override of the name, if there is one. -/
def body? : Overrides → String → Option (List Node)
  | [], _ => none
  | (other, body) :: rest, name =>
    match body? rest name with
    | some later => some later
    | none => if other = name then some body else none

/-- The number of overrides whose names are not among `expanding`. It is what gets less when an
override is put in, and the first part of the measure by which flattening ends. -/
def remaining (overrides : Overrides) (expanding : List String) : Nat :=
  overrides.countP (·.1 ∉ expanding)

/-- A body counts for a name only if the name occurs. The induction is on the overrides, and the one
that is found may be any of the name. -/
theorem exists_of_body? {overrides : Overrides} {name : String} {body : List Node}
    (counts : overrides.body? name = some body) : ∃ override ∈ overrides, override.1 = name := by
  induction overrides with
  | nil => cases counts
  | cons head rest inductionHypothesis =>
    obtain ⟨other, own⟩ := head
    unfold body? at counts
    split at counts
    · next later found =>
      obtain ⟨override, member, named⟩ := inductionHypothesis (found.trans counts)
      exact ⟨override, List.mem_cons_of_mem _ member, named⟩
    · split at counts
      · next same => exact ⟨(other, own), List.mem_cons_self, same⟩
      · cases counts

/-- Names that are expanded already only take overrides away. Each override that is left with one
name more is left without it. -/
theorem remaining_le (overrides : Overrides) (expanding : List String) (name : String) :
    overrides.remaining (name :: expanding) ≤ overrides.remaining expanding := by
  unfold remaining
  refine List.countP_mono_left fun override _ apart => ?_
  simp only [List.mem_cons, not_or, decide_eq_true_eq] at apart ⊢
  exact apart.2

/-- Expanding an override takes at least it away. It is left before, because its name is fresh, and
is not left afterwards, so flattening comes to an end. -/
theorem remaining_lt {overrides : Overrides} {expanding : List String} {name : String}
    {body : List Node} (fresh : name ∉ expanding) (counts : overrides.body? name = some body) :
    overrides.remaining (name :: expanding) < overrides.remaining expanding := by
  obtain ⟨override, member, named⟩ := exists_of_body? counts
  obtain ⟨before, behind, parts⟩ := List.append_of_mem member
  have fewerBefore := remaining_le before expanding name
  have fewerBehind := remaining_le behind expanding name
  unfold remaining at fewerBefore fewerBehind ⊢
  rw [parts, List.countP_append, List.countP_append, List.countP_cons_of_neg (by simp [named]),
    List.countP_cons_of_pos (by simpa [named] using fresh)]
  omega

mutual

/-- A node with the overrides put in, inside the blocks called `expanding`. A block inside a block
of its name keeps its own body, which is what makes flattening end for any overrides. -/
def flattenNode (overrides : Overrides) (expanding : List String) : Node → Node
  | .text s => .text s
  | .output e => .output e
  | .loop target sequence body => .loop target sequence (flatten overrides expanding body)
  | .choice cases otherwise =>
    .choice (flattenCases overrides expanding cases) (flattenOption overrides expanding otherwise)
  | .block name body =>
    if _expanded : name ∈ expanding then
      .block name (flatten overrides (name :: expanding) body)
    else
      match _counts : overrides.body? name with
      | some override => .block name (flatten overrides (name :: expanding) override)
      | none => .block name (flatten overrides (name :: expanding) body)
  | .inherits parent => .inherits parent
  | .embed template => .embed template
termination_by node => (overrides.remaining expanding, sizeOf node)
decreasing_by
  · exact Prod.Lex.right _ (by simp +arith)
  · exact Prod.Lex.right _ (by simp +arith)
  · exact Prod.Lex.right _ (by simp +arith)
  · exact Prod.Lex.right' _ (remaining_le overrides expanding name) (by simp +arith)
  · exact Prod.Lex.left _ _ (remaining_lt _expanded _counts)
  · exact Prod.Lex.right' _ (remaining_le overrides expanding name) (by simp +arith)

/-- A body with the overrides put in, node by node. The blocks around it are the same for all of its
nodes. -/
def flatten (overrides : Overrides) (expanding : List String) : List Node → List Node
  | [] => []
  | node :: rest => flattenNode overrides expanding node :: flatten overrides expanding rest
termination_by nodes => (overrides.remaining expanding, sizeOf nodes)

/-- The cases of a choice with the overrides put in. Conditions stay as they are. -/
def flattenCases (overrides : Overrides) (expanding : List String) :
    List (Expr × List Node) → List (Expr × List Node)
  | [] => []
  | (condition, body) :: rest =>
    (condition, flatten overrides expanding body) :: flattenCases overrides expanding rest
termination_by cases => (overrides.remaining expanding, sizeOf cases)

/-- A body that may be absent with the overrides put in. What is absent stays absent. -/
def flattenOption (overrides : Overrides) (expanding : List String) :
    Option (List Node) → Option (List Node)
  | none => none
  | some body => some (flatten overrides expanding body)
termination_by body => (overrides.remaining expanding, sizeOf body)

end

end Overrides

/-- A template with its lineage flattened. The generations tell later whether the same templates
would be met again. -/
structure Flattened where
  name : String
  /-- The templates it was made from, the root first, each with its generation. -/
  lineage : List (String × Nat)
  nodes : List Node

namespace Flattened

/-- The template called `leaf`, flattened: the nodes of its root with the blocks of the whole
lineage for overrides. -/
def ofLeaf (registry : Registry) (limit : Nat) (leaf : String) : Except Fault Flattened :=
  (Lineage.ofLeaf registry limit leaf).map fun lineage =>
    let root := (lineage.head?.map (·.template.nodes)).getD []
    ⟨leaf, lineage.map fun entry => (entry.template.name, entry.generation),
      (Overrides.ofLineage lineage).flatten [] root⟩

/-- Whether every template that it was made from is still the registered one. Templates that have
been added or changed elsewhere do not matter. -/
def isCurrent (registry : Registry) (flattened : Flattened) : Bool :=
  flattened.lineage.all fun (name, generation) => registry.generation? name == some generation

end Flattened

end Stencil
