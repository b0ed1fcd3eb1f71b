import Stencil.Engine.Basic
import Stencil.Proofs.Deciding
import Stencil.Store

/-!
# Flattening in rounds

Flattening goes down in the overrides that are left, and only where none is put in also in the
nodes. No computation gets past a recursion of that kind. Here it is brought to one that goes down
in a number of rounds: a round puts overrides into nodes, and what an override has in it is left to
the next round. As many rounds as there are overrides are enough, and one more, so that what is
flattened, and what is rendered from it, can be computed on given templates.
-/

namespace Stencil

deriving instance DecidableEq for Mistyped, Fault, Flattened, Copy

namespace Overrides

mutual

/-- A node with the overrides put in, inside the blocks called `expanding`; what an override has in
it is left to `again`. It goes down on the node, as no function does that flattens overrides as
well. -/
def putNode (overrides : Overrides) (again : List String → List Node → List Node)
    (expanding : List String) : Node → Node
  | .text s => .text s
  | .output e => .output e
  | .loop target sequence body => .loop target sequence (overrides.put again expanding body)
  | .choice cases otherwise =>
    .choice (overrides.putCases again expanding cases)
      (overrides.putOption again expanding otherwise)
  | .block name body =>
    if name ∈ expanding then .block name (overrides.put again (name :: expanding) body)
    else
      match overrides.body? name with
      | some override => .block name (again (name :: expanding) override)
      | none => .block name (overrides.put again (name :: expanding) body)
  | .inherits parent => .inherits parent
  | .embed template => .embed template

/-- A body with the overrides put in. The calls for a further round are a parameter here, `again`,
so that this recursion is on the nodes alone. -/
def put (overrides : Overrides) (again : List String → List Node → List Node)
    (expanding : List String) : List Node → List Node
  | [] => []
  | node :: rest => overrides.putNode again expanding node :: overrides.put again expanding rest

/-- The cases of a choice with the overrides put in. -/
def putCases (overrides : Overrides) (again : List String → List Node → List Node)
    (expanding : List String) : List (Expr × List Node) → List (Expr × List Node)
  | [] => []
  | (condition, body) :: rest =>
    (condition, overrides.put again expanding body) :: overrides.putCases again expanding rest

/-- A body that may be absent with the overrides put in. -/
def putOption (overrides : Overrides) (again : List String → List Node → List Node)
    (expanding : List String) : Option (List Node) → Option (List Node)
  | none => none
  | some body => some (overrides.put again expanding body)

end

/-- A body with the overrides put in so many rounds deep. With no rounds left nothing is put in, and
the nodes stay as they are. -/
def putWithin (overrides : Overrides) : Nat → List String → List Node → List Node
  | 0, _, nodes => nodes
  | rounds + 1, expanding, nodes => overrides.put (overrides.putWithin rounds) expanding nodes

/-- `again` flattens wherever fewer overrides are left than there are rounds. It is the hypothesis
that one round hands on to the next. -/
def FlattensWithin (overrides : Overrides) (rounds : Nat)
    (again : List String → List Node → List Node) : Prop :=
  ∀ expanding nodes, overrides.remaining expanding < rounds →
    again expanding nodes = overrides.flatten expanding nodes

section Round

variable {overrides : Overrides} {again : List String → List Node → List Node} {rounds : Nat}

mutual

/-- One round in front of rounds that flatten takes one more override. Only where an override is put
in are the rounds behind needed, and there its name is new, so that one override fewer is left. -/
theorem putNode_eq (agrees : overrides.FlattensWithin rounds again) {expanding : List String}
    (few : overrides.remaining expanding ≤ rounds) (node : Node) :
    overrides.putNode again expanding node = overrides.flattenNode expanding node := by
  match node with
  | .text s | .output e | .inherits parent | .embed template => simp [putNode, flattenNode]
  | .loop target sequence body => rw [putNode, flattenNode, put_eq agrees few body]
  | .choice cases otherwise =>
    rw [putNode, flattenNode, putCases_eq agrees few cases, putOption_eq agrees few otherwise]
  | .block name body =>
    have fewer : overrides.remaining (name :: expanding) ≤ rounds :=
      Nat.le_trans (remaining_le overrides expanding name) few
    rw [putNode, flattenNode, put_eq agrees fewer body]
    by_cases expanded : name ∈ expanding
    · simp only [expanded, ↓reduceIte, ↓reduceDIte]
    · simp only [expanded, ↓reduceIte, ↓reduceDIte]
      split
      · next override counts =>
        have behind := agrees (name :: expanding) override
          (Nat.lt_of_lt_of_le (remaining_lt expanded counts) few)
        split <;> simp_all
      · next absent => split <;> simp_all

/-- The same for bodies, node by node. -/
theorem put_eq (agrees : overrides.FlattensWithin rounds again) {expanding : List String}
    (few : overrides.remaining expanding ≤ rounds) (nodes : List Node) :
    overrides.put again expanding nodes = overrides.flatten expanding nodes := by
  match nodes with
  | [] => rw [put, flatten]
  | node :: rest => rw [put, flatten, putNode_eq agrees few node, put_eq agrees few rest]

/-- The same for the cases of a choice, whose conditions are not looked at. -/
theorem putCases_eq (agrees : overrides.FlattensWithin rounds again) {expanding : List String}
    (few : overrides.remaining expanding ≤ rounds) (cases : List (Expr × List Node)) :
    overrides.putCases again expanding cases = overrides.flattenCases expanding cases := by
  match cases with
  | [] => rw [putCases, flattenCases]
  | (condition, body) :: rest =>
    rw [putCases, flattenCases, put_eq agrees few body, putCases_eq agrees few rest]

/-- The same for what a choice falls back on. -/
theorem putOption_eq (agrees : overrides.FlattensWithin rounds again) {expanding : List String}
    (few : overrides.remaining expanding ≤ rounds) (body : Option (List Node)) :
    overrides.putOption again expanding body = overrides.flattenOption expanding body := by
  match body with
  | none => rw [putOption, flattenOption]
  | some body => rw [putOption, flattenOption, put_eq agrees few body]

end

end Round

/-- More rounds than there are overrides left are enough: the last of them puts nothing in any more.
The induction is on the rounds. -/
theorem putWithin_eq (overrides : Overrides) {rounds : Nat} {expanding : List String}
    (enough : overrides.remaining expanding < rounds) (nodes : List Node) :
    overrides.putWithin rounds expanding nodes = overrides.flatten expanding nodes := by
  induction rounds generalizing expanding nodes with
  | zero => cases enough
  | succ rounds inductionHypothesis =>
    exact put_eq (fun _ nodes enough => inductionHypothesis enough nodes)
      (Nat.le_of_lt_succ enough) nodes

end Overrides

namespace Flattened

/-- A template with its lineage flattened in rounds, one more than there are blocks in it.
Everything in it goes down on lists and numbers, so it can be evaluated. -/
def inRounds (registry : Registry) (limit : Nat) (leaf : String) : Except Fault Flattened :=
  (Lineage.ofLeaf registry limit leaf).map fun lineage =>
    let root := (lineage.head?.map (·.template.nodes)).getD []
    let overrides := Overrides.ofLineage lineage
    ⟨leaf, lineage.map fun entry => (entry.template.name, entry.generation),
      overrides.putWithin (overrides.length + 1) [] root⟩

/-- Flattening in rounds is flattening. It is stated of the functions, since an engine and a store
hand the function on to be asked for the templates that are embedded. -/
theorem ofLeaf_eq_inRounds : ofLeaf = inRounds := by
  funext registry limit leaf
  unfold ofLeaf inRounds
  congr 1
  funext lineage
  have enough : (Overrides.ofLineage lineage).remaining [] <
      (Overrides.ofLineage lineage).length + 1 := Nat.lt_succ_of_le List.countP_le_length
  simp only [Overrides.putWithin_eq _ enough]

end Flattened

/-- A shelf may flatten in rounds what it hands out. This too is stated of the functions: a body is
rendered with the whole shelf, before it is known which names are asked for. -/
theorem Store.shelf_eq_inRounds :
    Store.shelf = fun registry limit name _ => (Flattened.inRounds registry limit name, ()) := by
  funext registry limit name state
  rw [Store.shelf, Flattened.ofLeaf_eq_inRounds]

end Stencil
