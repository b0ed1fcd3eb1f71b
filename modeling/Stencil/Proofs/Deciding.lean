import Stencil.Template.Basic

/-!
# Deciding what templates are

Whether two expressions are the same can be decided, and so can whether two nodes are. Both hold
lists of their own kind, for which no comparison is derived, so the comparisons are written out
along the constructors. With them what a source is read as can be compared with what is expected,
and it is the computation itself that is checked.
-/

namespace Stencil

mutual

/-- Whether two expressions are made in the same way of the same parts. Parts that are expressions
again are compared by recursion, all others by the equality they come with. -/
def Expr.same : Expr → Expr → Bool
  | .text s, .text t => s == t
  | .int m, .int n => m == n
  -- The numbers themselves are compared, not their values: one that is not a number is itself.
  | .float x, .float y => decide (x = y)
  | .bool a, .bool b => a == b
  | .none, .none => true
  | .list items, .list others => sameAll items others
  | .variable name, .variable otherName => name == otherName
  | .attribute of name, .attribute other otherName => of.same other && name == otherName
  | .index of key, .index other otherKey => of.same other && key.same otherKey
  | .not of, .not other => of.same other
  | .binary op left right, .binary otherOp otherLeft otherRight =>
    decide (op = otherOp) && left.same otherLeft && right.same otherRight
  | .filter of name arguments, .filter other otherName others =>
    of.same other && name == otherName && sameAll arguments others
  | _, _ => false

/-- Whether two lists hold the same expressions in the same order. Lists of different lengths are
told apart where the shorter one ends. -/
def Expr.sameAll : List Expr → List Expr → Bool
  | [], [] => true
  | e :: rest, other :: others => e.same other && sameAll rest others
  | _, _ => false

end

mutual

/-- The comparison tells expressions apart exactly if they are different. The induction is on the
first one; the other is taken apart along with it, and where the constructors differ both sides are
false. -/
theorem Expr.same_iff (e other : Expr) : e.same other = true ↔ e = other := by
  cases e <;> cases other <;> simp [Expr.same, Expr.same_iff, Expr.sameAll_iff, and_assoc]

/-- The same for lists of expressions, by induction on the first list. -/
theorem Expr.sameAll_iff (items others : List Expr) :
    Expr.sameAll items others = true ↔ items = others := by
  cases items <;> cases others <;> simp [Expr.sameAll, Expr.same_iff, Expr.sameAll_iff]

end

/-- Expressions can be compared wherever a decision is asked for. -/
instance : DecidableEq Expr := fun e other => decidable_of_iff _ (Expr.same_iff e other)

mutual

/-- Whether two nodes are made in the same way of the same parts. Expressions in them are compared
as decided above, and bodies by recursion. -/
def Node.same : Node → Node → Bool
  | .text s, .text t => s == t
  | .output e, .output other => decide (e = other)
  | .loop target sequence body, .loop otherTarget otherSequence otherBody =>
    target == otherTarget && decide (sequence = otherSequence) && sameBody body otherBody
  | .choice cases otherwise, .choice otherCases other =>
    sameCases cases otherCases && sameOption otherwise other
  | .block name body, .block otherName otherBody => name == otherName && sameBody body otherBody
  | .inherits parent, .inherits other => parent == other
  | .embed template, .embed other => template == other
  | _, _ => false

/-- Whether two bodies hold the same nodes in the same order. It recurses with `Node.same`, as the
list in a node is part of the node. -/
def Node.sameBody : List Node → List Node → Bool
  | [], [] => true
  | node :: rest, other :: others => node.same other && sameBody rest others
  | _, _ => false

/-- Whether two choices have the same conditions with the same bodies, case by case. Conditions are
expressions, for which equality is decided already. -/
def Node.sameCases : List (Expr × List Node) → List (Expr × List Node) → Bool
  | [], [] => true
  | (condition, body) :: rest, (otherCondition, otherBody) :: others =>
    decide (condition = otherCondition) && sameBody body otherBody && sameCases rest others
  | _, _ => false

/-- Whether two bodies that may be absent are both absent or both the same. An empty body is not the
same as none. -/
def Node.sameOption : Option (List Node) → Option (List Node) → Bool
  | none, none => true
  | some body, some other => sameBody body other
  | _, _ => false

end

mutual

/-- The comparison tells nodes apart exactly if they are different; the induction goes as for
expressions, along the four kinds of lists that nodes hold each other in. -/
theorem Node.same_iff (node other : Node) : node.same other = true ↔ node = other := by
  cases node <;> cases other <;>
    simp [Node.same, Node.sameBody_iff, Node.sameCases_iff, Node.sameOption_iff, and_assoc]
termination_by structural node

/-- The same for bodies. -/
theorem Node.sameBody_iff (body other : List Node) :
    Node.sameBody body other = true ↔ body = other := by
  cases body <;> cases other <;> simp [Node.sameBody, Node.same_iff, Node.sameBody_iff]
termination_by structural body

/-- The same for the cases of a choice. -/
theorem Node.sameCases_iff (cases others : List (Expr × List Node)) :
    Node.sameCases cases others = true ↔ cases = others := by
  rcases cases with _ | ⟨⟨condition, body⟩, rest⟩ <;>
    rcases others with _ | ⟨⟨otherCondition, otherBody⟩, others⟩ <;>
      simp [Node.sameCases, Node.sameBody_iff, Node.sameCases_iff]
termination_by structural cases

/-- The same for what a choice falls back on. -/
theorem Node.sameOption_iff (body other : Option (List Node)) :
    Node.sameOption body other = true ↔ body = other := by
  cases body <;> cases other <;> simp [Node.sameOption, Node.sameBody_iff]
termination_by structural body

end

/-- So can nodes, and with them lists of nodes. -/
instance : DecidableEq Node := fun node other => decidable_of_iff _ (Node.same_iff node other)

deriving instance DecidableEq for Token, Template

/-- Outcomes are compared by what they hold, if both are failures or neither is. A failure is never
the same as a success. -/
instance decidableEqOutcome {ε α : Type} [DecidableEq ε] [DecidableEq α] : DecidableEq (Except ε α)
  | .error fault, .error other => decidable_of_iff (fault = other) (by rw [Except.error.injEq])
  | .ok a, .ok b => decidable_of_iff (a = b) (by rw [Except.ok.injEq])
  | .error _, .ok _ => isFalse nofun
  | .ok _, .error _ => isFalse nofun

end Stencil
