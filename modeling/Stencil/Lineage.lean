import Stencil.Registry

/-!
# Lineages

A template inherits from its parent, that one from its own, and so on up to a root. The
walk up fails if a name comes again, if the lineage is longer than allowed, or if a
template is missing, whichever is met first.
-/

namespace Stencil

namespace Lineage

/-- The entries from the root down to the template called `current`, where `passed` are
the names below it, lowest first. -/
def climb (registry : Registry) (limit : Nat) (passed : List String) (current : String) :
    Except Fault (List Entry) :=
  if current ∈ passed ∨ limit ≤ passed.length then .error (.cycle (passed ++ [current]))
  else
    match registry.entry? current with
    | none => .error (.notFound current)
    | some entry =>
      match entry.template.parent? with
      | none => .ok [entry]
      | some parent =>
        (climb registry limit (passed ++ [current]) parent).map (· ++ [entry])
termination_by limit - passed.length
decreasing_by simp only [List.length_append, List.length_singleton]; omega

/-- The lineage of a template from its root down, of at most `limit` templates. The entries are
those that are registered at the time. -/
def ofLeaf (registry : Registry) (limit : Nat) (leaf : String) : Except Fault (List Entry) :=
  climb registry limit [] leaf

end Lineage

end Stencil
