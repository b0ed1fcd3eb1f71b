import Stencil.Proofs.Caching
import Stencil.Proofs.Flattening

/-!
# What templates are made of

Apart from how its nodes stand in each other, a body is made of texts, of expressions and of
names of templates to embed. Flattening moves bodies about but makes nothing up: each piece of a
flattened template is a piece of a registered one.
-/

namespace Stencil

/-- What a node adds of its own, besides the bodies in it. The three kinds are what a template says,
what it evaluates and what it refers to. -/
inductive Node.Piece where
  | text (s : String)
  | expression (e : Expr)
  | embedded (template : String)

namespace Node

/-- The pieces of a node that are not in a body in it. The name of a parent is no piece, for nothing
of it is left in a flattened template. -/
def own : Node → List Piece
  | .text s => [.text s]
  | .output e | .loop _ e _ => [.expression e]
  | .choice cases _ => cases.map fun case => .expression case.1
  | .block _ _ | .inherits _ => []
  | .embed template => [.embedded template]

/-- All pieces of a body, at any depth, in the order in which they stand there. What is asked of a
template before it is rendered, such as that it is harmless, is asked of each of them. -/
def pieces (nodes : List Node) : List Piece := (allOf nodes).flatMap own

section Equations

variable (rest : List Node)

/-- A body without nodes has no pieces. -/
@[simp] theorem pieces_nil : pieces [] = [] := rfl

/-- A text is a piece of its own. -/
@[simp] theorem pieces_text (s : String) : pieces (.text s :: rest) = .text s :: pieces rest := rfl

/-- The expression of an output is a piece. -/
@[simp] theorem pieces_output (e : Expr) :
    pieces (.output e :: rest) = .expression e :: pieces rest := rfl

/-- A loop has the expression that it goes over, and the pieces of its body. -/
@[simp] theorem pieces_loop (target : String) (sequence : Expr) (body : List Node) :
    pieces (.loop target sequence body :: rest) =
      .expression sequence :: (pieces body ++ pieces rest) := by
  simp [pieces, own]

/-- A choice has all its conditions, the pieces of its cases, and those of its last body if there is
one. -/
@[simp] theorem pieces_choice (cases : List (Expr × List Node)) (otherwise : Option (List Node)) :
    pieces (.choice cases otherwise :: rest) =
      cases.map (fun case => .expression case.1) ++
        (cases.flatMap (fun case => pieces case.2) ++ otherwise.toList.flatMap pieces ++
          pieces rest) := by
  have other : otherwise.toList.flatMap pieces = (otherwise.toList.flatMap allOf).flatMap own := by
    rw [List.flatMap_assoc]
    rfl
  rw [other]
  simp only [pieces, all_of_choice, List.flatMap_cons, own, List.flatMap_append,
    List.flatMap_assoc]

/-- A block has the pieces of its body, and its name is none. -/
@[simp] theorem pieces_block (name : String) (body : List Node) :
    pieces (.block name body :: rest) = pieces body ++ pieces rest := by
  simp [pieces, own]

/-- The name of a parent is no piece. -/
@[simp] theorem pieces_inherits (parent : String) :
    pieces (.inherits parent :: rest) = pieces rest := rfl

/-- The name of a template to embed is a piece; what it stands for is not looked up. -/
@[simp] theorem pieces_embed (template : String) :
    pieces (.embed template :: rest) = .embedded template :: pieces rest := rfl

end Equations

/-- The pieces of the body of a block are pieces of the nodes that the block is among. -/
theorem pieces_body {nodes : List Node} {name : String} {body : List Node}
    (member : (name, body) ∈ blocksOf nodes) : pieces body ⊆ pieces nodes := by
  have block : .block name body ∈ allOf nodes := (mem_blocks_of nodes name body).mp member
  intro piece found
  obtain ⟨node, held, owned⟩ := List.mem_flatMap.mp found
  exact List.mem_flatMap.mpr ⟨node, inside_subset block held, owned⟩

end Node

namespace Overrides

open Node (Piece pieces)

/-- The pieces that flattening can make use of: those of the nodes and those of all overrides, also
of such as are never put in. -/
def Supplied (overrides : Overrides) (nodes : List Node) (piece : Piece) : Prop :=
  piece ∈ pieces nodes ∨ ∃ override ∈ overrides, piece ∈ pieces override.2

/-- Whichever body is chosen at a block, its pieces are at hand. They are those of the block itself,
or those of the override that counts, which is one of the overrides. -/
theorem supplied_chosen {overrides : Overrides} {expanding : List String} {name : String}
    {body : List Node} {piece : Piece}
    (supplied : overrides.Supplied (overrides.chosen expanding name body) piece) :
    overrides.Supplied body piece := by
  unfold chosen at supplied
  split at supplied
  · exact supplied
  · cases counts : overrides.body? name with
    | none => simpa only [counts, Option.getD_none] using supplied
    | some override =>
      rw [counts, Option.getD_some] at supplied
      rcases supplied with found | elsewhere
      · obtain ⟨before, behind, rfl, -⟩ := (body_some_iff overrides name override).mp counts
        exact .inr ⟨(name, override), by simp, found⟩
      · exact .inr elsewhere

/-- Flattening makes no piece up. The induction is the one of flattening; at a block it is about the
body that is chosen, whose pieces are at hand as well. A parent that is named is dropped, and has no
pieces. -/
theorem flatten_pieces (overrides : Overrides) (expanding : List String) (nodes : List Node)
    (piece : Piece) (found : piece ∈ pieces (overrides.flatten expanding nodes)) :
    overrides.Supplied nodes piece := by
  have more {few many : List Node} (supplied : overrides.Supplied few piece)
      (fewer : piece ∈ pieces few → piece ∈ pieces many) : overrides.Supplied many piece :=
    supplied.imp_left fewer
  induction expanding, nodes using flatten_induction overrides with
  | nil expanding =>
    rw [flatten_nil] at found
    cases found
  | text expanding s rest later =>
    rw [flatten_text, Node.pieces_text, List.mem_cons] at found
    rcases found with rfl | found
    · exact .inl List.mem_cons_self
    · exact more (later found) (List.mem_cons_of_mem _)
  | output expanding e rest later =>
    rw [flatten_output, Node.pieces_output, List.mem_cons] at found
    rcases found with rfl | found
    · exact .inl List.mem_cons_self
    · exact more (later found) (List.mem_cons_of_mem _)
  | loop expanding target sequence body rest inBody later =>
    rw [flatten_loop, Node.pieces_loop, List.mem_cons, List.mem_append] at found
    rcases found with rfl | found | found
    · exact .inl (by simp)
    · exact more (inBody found) fun held => by simp [held]
    · exact more (later found) fun held => by simp [held]
  | choice expanding cases otherwise rest inCases inOther later =>
    rw [flatten_choice, Node.pieces_choice, List.map_map, List.flatMap_map] at found
    simp only [List.mem_append] at found
    rcases found with found | (found | found) | found
    -- Conditions stay where they are; only the bodies are flattened.
    · refine .inl ?_
      rw [Node.pieces_choice]
      exact List.mem_append_left _ found
    · obtain ⟨case, member, found⟩ := List.mem_flatMap.mp found
      refine more (inCases case member found) fun held => ?_
      simp only [Node.pieces_choice, List.mem_append, List.mem_flatMap]
      exact .inr (.inl (.inl ⟨case, member, held⟩))
    · cases otherwise with
      | none => cases found
      | some body =>
        have inBody : piece ∈ pieces (overrides.flatten expanding body) := by simpa using found
        exact more (inOther body rfl inBody) fun held => by simp [held]
    · exact more (later found) fun held => by simp [held]
  | block expanding name body rest inBody later =>
    rw [flatten_block, Node.pieces_block, List.mem_append] at found
    rcases found with found | found
    · exact more (supplied_chosen (inBody found)) fun held => by simp [held]
    · exact more (later found) fun held => by simp [held]
  | inherits expanding parent rest later =>
    rw [flatten_inherits, Node.pieces_inherits] at found
    exact more (later found) id
  | embed expanding template rest later =>
    rw [flatten_embed, Node.pieces_embed, List.mem_cons] at found
    rcases found with rfl | found
    · exact .inl List.mem_cons_self
    · exact more (later found) (List.mem_cons_of_mem _)

end Overrides

/-- Each piece of a flattened template is a piece of a template in its lineage. It comes from the
root, or from a block of one of the templates below. -/
theorem Flattened.pieces_lineage {registry : Registry} {limit : Nat} {leaf : String}
    {flattened : Flattened} (made : ofLeaf registry limit leaf = .ok flattened)
    {piece : Node.Piece} (found : piece ∈ Node.pieces flattened.nodes) :
    ∃ lineage entry, Lineage.Rises registry limit [] leaf lineage ∧ entry ∈ lineage ∧
      piece ∈ Node.pieces entry.template.nodes := by
  obtain ⟨root, rest, rises, -, rfl⟩ := ofLeaf_ok made
  have supplied := Overrides.flatten_pieces _ [] root.template.nodes piece found
  rcases supplied with inRoot | ⟨⟨name, body⟩, member, held⟩
  · exact ⟨root :: rest, root, rises, List.mem_cons_self, inRoot⟩
  · obtain ⟨entry, inLineage, block⟩ := List.mem_flatMap.mp member
    exact ⟨root :: rest, entry, rises, inLineage, Node.pieces_body block held⟩

/-- Each piece of a flattened template is a piece of a registered template. Which one is left open,
since most properties of pieces are asked of all templates alike. -/
theorem Flattened.pieces_registered {registry : Registry} {limit : Nat} {leaf : String}
    {flattened : Flattened} (made : ofLeaf registry limit leaf = .ok flattened)
    {piece : Node.Piece} (found : piece ∈ Node.pieces flattened.nodes) :
    ∃ name entry, registry.entry? name = some entry ∧ piece ∈ Node.pieces entry.template.nodes := by
  obtain ⟨lineage, entry, rises, member, held⟩ := pieces_lineage made found
  obtain ⟨name, kept⟩ := Lineage.rises_kept rises member
  exact ⟨name, entry, kept, held⟩

end Stencil
