import Stencil.Dict
import Stencil.Fault
import Stencil.Template.Basic

/-!
# The registry

Templates by name. A counter counts the changes that took effect, and each entry carries
the count at which it was made, its generation. A generation is never used twice, so an
entry with a known generation is known to be the same entry.
-/

namespace Stencil

/-- A registered template and the count of the change that registered it, which tells the entry from
any other of its name. -/
structure Entry where
  template : Template
  generation : Nat

/-- Templates by name. Only insertions and removals change it, and both go on counting. How line
ends are treated is settled when it is made. -/
structure Registry where
  entries : Dict Entry
  /-- The changes so far. -/
  changes : Nat
  /-- Whether sources are read with line ends behind statement tags dropped. -/
  trim : Bool

namespace Registry

/-- A registry without templates. Nothing has changed in it, so the first template has the first
generation. -/
def empty (trim : Bool) : Registry := ⟨[], 0, trim⟩

/-- Keep a template under its own name, in place of any other of that name. The change is counted
even if the two are the same. -/
def insert (registry : Registry) (template : Template) : Registry :=
  { registry with
    entries := registry.entries.insert template.name ⟨template, registry.changes + 1⟩,
    changes := registry.changes + 1 }

/-- Read a template and keep it. A source that is refused changes nothing. -/
def register (registry : Registry) (name source : String) : Except Malformed Registry :=
  (Template.ofSource name registry.trim source).map registry.insert

/-- The entry under a name, which tells the template and its generation. -/
def entry? (registry : Registry) (name : String) : Option Entry := registry.entries.get? name

/-- The template under a name. Where there is none the fault tells the name. -/
def get (registry : Registry) (name : String) : Except Fault Template :=
  match registry.entry? name with
  | some entry => .ok entry.template
  | none => .error (.notFound name)

/-- The generation of the entry under a name. A template that is inserted again has another one,
even if nothing in it is different. -/
def generation? (registry : Registry) (name : String) : Option Nat :=
  (registry.entry? name).map (·.generation)

/-- Whether there is a template under a name. Whether its parents are there as well is not asked. -/
def contains (registry : Registry) (name : String) : Bool := (registry.entry? name).isSome

/-- Remove a template; without a template of that name nothing changes. -/
def remove (registry : Registry) (name : String) : Registry :=
  if registry.contains name then
    { registry with
      entries := registry.entries.erase name, changes := registry.changes + 1 }
  else registry

/-- The names in their order. The order is that of texts and not that of insertion. -/
def names (registry : Registry) : List String := Dict.names registry.entries

/-- The number of templates. -/
def size (registry : Registry) : Nat := registry.entries.length

end Registry

end Stencil
