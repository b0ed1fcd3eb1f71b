import Stencil.Expr.Basic

/-!
# Nodes

The tree that a template source is read into, and the blocks defined in it.
-/

namespace Stencil

/-- A node of a template. References to other templates are full names, resolved when the source was
read, so what a node means does not depend on the template that it has got into by inheritance. -/
inductive Node where
  | text (s : String)
  /-- The value of an expression as text. -/
  | output (e : Expr)
  /-- The body once for each item of a sequence, bound to `target`. -/
  | loop (target : String) (sequence : Expr) (body : List Node)
  /-- The body of the first case whose condition holds, else `otherwise`. -/
  | choice (cases : List (Expr × List Node)) (otherwise : Option (List Node))
  /-- A named part that templates further down the lineage may override. -/
  | block (name : String) (body : List Node)
  /-- The template this one inherits from. -/
  | inherits (parent : String)
  /-- Another template's output, made where this node stands. -/
  | embed (template : String)
deriving Inhabited

namespace Node

mutual

/-- The blocks that a node defines at any depth, the outer before the inner. Each comes with its
body, in which the inner ones stand again. -/
def blocks : Node → List (String × List Node)
  | .text _ | .output _ | .inherits _ | .embed _ => []
  | .loop _ _ body => blocksOf body
  | .choice cases otherwise => blocksOfCases cases ++ blocksOfOption otherwise
  | .block name body => (name, body) :: blocksOf body

/-- The blocks of a body in the order of the source. A block comes in front of the blocks inside of
it. -/
def blocksOf : List Node → List (String × List Node)
  | [] => []
  | node :: rest => blocks node ++ blocksOf rest

/-- The blocks in the cases of a choice, in the order of the cases. -/
def blocksOfCases : List (Expr × List Node) → List (String × List Node)
  | [] => []
  | (_, body) :: rest => blocksOf body ++ blocksOfCases rest

/-- The blocks in a body that may be absent. Without a body there are none. -/
def blocksOfOption : Option (List Node) → List (String × List Node)
  | none => []
  | some body => blocksOf body

end

end Node

end Stencil
