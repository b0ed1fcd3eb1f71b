/-!
# Sets of code points

A character property is kept as closed ranges of code points in increasing order.
Membership walks the ranges and stops at the first one that lies beyond the point.
-/

namespace Stencil.Text

/-- Closed ranges of code points, in increasing order and apart from each other. Neither is enforced
by the type; the tables are written down so, and membership only needs the order. -/
abbrev Ranges := List (Nat × Nat)

/-- Whether one of the ranges holds `code`. The search stops at the first range that begins behind
it. -/
def Ranges.covers : Ranges → Nat → Bool
  | [], _ => false
  | (first, last) :: rest, code =>
    if code < first then false
    else if code ≤ last then true
    else Ranges.covers rest code

end Stencil.Text
