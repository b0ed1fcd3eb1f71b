import Stencil.Number.Whole
import Stencil.Text.Quoted

/-!
# Expressions

What a tag computes: constants, names, steps into a value, conditions, sums and filters.
-/

namespace Stencil

/-- The operators with two operands. There is one for sums, and none for other computations. -/
inductive Operator where
  | or | and | equal | unequal | plus
deriving DecidableEq, Repr

/-- How tightly an operator binds. Operators of one strength group to the left, also the two
comparisons. -/
def Operator.strength : Operator → Nat
  | .or => 1
  | .and => 2
  | .equal | .unequal => 4
  | .plus => 5

/-- How tightly a negation binds: closer than the connectives, looser than the rest. So a comparison
is negated as a whole. -/
def negationStrength : Nat := 3

/-- An expression. Filters and their arguments are checked when it is evaluated and not when it is
read, so any name can stand there. Brackets that only group leave nothing behind. -/
inductive Expr where
  | text (s : String)
  | int (n : Int64)
  | float (x : Float)
  | bool (b : Bool)
  | none
  | list (items : List Expr)
  | variable (name : String)
  /-- A part by name, written with a dot. -/
  | attribute (of : Expr) (name : String)
  /-- A part by computed key, written in brackets. -/
  | index (of key : Expr)
  | not (of : Expr)
  | binary (op : Operator) (left right : Expr)
  | filter (of : Expr) (name : String) (arguments : List Expr)
deriving Inhabited

/-- An expression as messages show it. Only paths, filters and the constants that occur in paths are
spelled out; everything else goes by one word. -/
def Expr.describe : Expr → String
  | .variable name => name
  | .attribute of name => of.describe ++ "." ++ name
  | .index of key => of.describe ++ "[" ++ key.describe ++ "]"
  | .text s => Text.Quoted.encode s
  | .int n => Number.wholeText n
  | .filter of name _ => of.describe ++ " | " ++ name
  | _ => "expression"

end Stencil
