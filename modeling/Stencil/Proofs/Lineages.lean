import Stencil.Flattening
import Stencil.Proofs.History

/-!
# Laws of lineages

A walk up that ends well has met registered templates only, each under its own name, and
has ended at one without a parent. It depends on nothing but the templates that it met: a
registry that keeps the same under their names leads to the same lineage.
-/

namespace Stencil

namespace Lineage

/-- A walk up that ends well: each template is registered, is met for the first time and is
not one too many, and the last one has no parent. -/
inductive Rises (registry : Registry) (limit : Nat) :
    List String → String → List Entry → Prop
  | root {passed : List String} {name : String} {entry : Entry}
      (free : ¬(name ∈ passed ∨ limit ≤ passed.length))
      (kept : registry.entry? name = some entry) (ends : entry.template.parent? = none) :
      Rises registry limit passed name [entry]
  | child {passed : List String} {name parent : String} {entry : Entry} {above : List Entry}
      (free : ¬(name ∈ passed ∨ limit ≤ passed.length))
      (kept : registry.entry? name = some entry)
      (inherits : entry.template.parent? = some parent)
      (higher : Rises registry limit (passed ++ [name]) parent above) :
      Rises registry limit passed name (above ++ [entry])

variable {registry : Registry} {limit : Nat} {passed : List String} {current : String}
  {lineage : List Entry}

/-- A walk that ends well is climbed. The induction is on the walk; each of its steps has passed the
check for cycles and for length. -/
theorem climb_of_rises (rises : Rises registry limit passed current lineage) :
    climb registry limit passed current = .ok lineage := by
  induction rises with
  | root free kept ends =>
    rw [climb, if_neg free]
    simp only [kept, ends]
  | child free kept inherits higher inductionHypothesis =>
    rw [climb, if_neg free]
    simp only [kept, inherits, inductionHypothesis, Except.map]

/-- A lineage that is climbed comes from a walk that ends well. The induction is that of climbing,
and every way to fail is excluded by the premise. The lineage begins with the root, which is added
last. -/
theorem rises_of_climb (climbed : climb registry limit passed current = .ok lineage) :
    Rises registry limit passed current lineage := by
  induction passed, current using climb.induct registry limit generalizing lineage with
  | case1 passed current stopped =>
    rw [climb, if_pos stopped] at climbed
    cases climbed
  | case2 passed current free absent =>
    rw [climb, if_neg free] at climbed
    simp only [absent, reduceCtorEq] at climbed
  | case3 passed current free entry kept ends =>
    rw [climb, if_neg free] at climbed
    simp only [kept, ends, Except.ok.injEq] at climbed
    exact climbed ▸ .root free kept ends
  | case4 passed current free entry kept parent inherits inductionHypothesis =>
    rw [climb, if_neg free] at climbed
    simp only [kept, inherits] at climbed
    cases higher : climb registry limit (passed ++ [current]) parent with
    | error fault =>
      rw [higher] at climbed
      cases climbed
    | ok above =>
      rw [higher] at climbed
      cases climbed
      exact .child free kept inherits (inductionHypothesis higher)

/-- A lineage starts at a root, which has no parent. So it is never empty. -/
theorem rises_root (rises : Rises registry limit passed current lineage) :
    ∃ root rest, lineage = root :: rest ∧ root.template.parent? = none := by
  induction rises with
  | root free kept ends => exact ⟨_, [], rfl, ends⟩
  | child free kept inherits higher inductionHypothesis =>
    obtain ⟨root, rest, rfl, ends⟩ := inductionHypothesis
    exact ⟨root, rest ++ [_], List.cons_append, ends⟩

/-- Every member of a lineage is registered, under the name that it was met by. It is the name of
the leaf or the one that a template below it names. -/
theorem rises_kept (rises : Rises registry limit passed current lineage) {entry : Entry}
    (member : entry ∈ lineage) : ∃ name, registry.entry? name = some entry := by
  induction rises with
  | root free kept ends =>
    obtain rfl := List.mem_singleton.mp member
    exact ⟨_, kept⟩
  | child free kept inherits higher inductionHypothesis =>
    rcases List.mem_append.mp member with above | here
    · exact inductionHypothesis above
    · obtain rfl := List.mem_singleton.mp here
      exact ⟨_, kept⟩

/-- A registry that keeps the same under the names of a lineage leads to the same lineage. The
induction is on the walk; the names are those of the templates, which is where the registry has to
be consistent. -/
theorem rises_frame {other : Registry} (consistent : registry.Consistent)
    (rises : Rises registry limit passed current lineage)
    (same : ∀ entry ∈ lineage,
      other.entry? entry.template.name = registry.entry? entry.template.name) :
    Rises other limit passed current lineage := by
  induction rises with
  | root free kept ends =>
    have here := same _ List.mem_cons_self
    rw [consistent.named kept, kept] at here
    exact .root free here ends
  | child free kept inherits higher inductionHypothesis =>
    have here := same _ (List.mem_append_right _ List.mem_cons_self)
    rw [consistent.named kept, kept] at here
    exact .child free here inherits
      (inductionHypothesis fun entry member => same entry (List.mem_append_left _ member))

end Lineage

namespace Flattened

variable {registry : Registry} {limit : Nat} {leaf : String} {flattened : Flattened}

/-- A flattened template comes from the lineage of its leaf: the nodes of the root with the blocks
of the lineage put in. The lineage has a root, so its first entry need not be asked for. -/
theorem ofLeaf_ok (made : ofLeaf registry limit leaf = .ok flattened) :
    ∃ root rest, Lineage.Rises registry limit [] leaf (root :: rest) ∧
      root.template.parent? = none ∧
      flattened = ⟨leaf,
        (root :: rest).map fun entry => (entry.template.name, entry.generation),
        (Overrides.ofLineage (root :: rest)).flatten [] root.template.nodes⟩ := by
  unfold ofLeaf at made
  cases climbed : Lineage.ofLeaf registry limit leaf with
  | error fault =>
    rw [climbed] at made
    cases made
  | ok lineage =>
    rw [climbed] at made
    have rises := Lineage.rises_of_climb climbed
    obtain ⟨root, rest, rfl, ends⟩ := Lineage.rises_root rises
    exact ⟨root, rest, rises, ends, (Except.ok.inj made).symm⟩

/-- A flattened template depends on nothing but the templates that it was made from. Whatever else
is registered or removed cannot change it. -/
theorem ofLeaf_frame {other : Registry} (consistent : registry.Consistent)
    (made : ofLeaf registry limit leaf = .ok flattened)
    (same : ∀ name generation, (name, generation) ∈ flattened.lineage →
      other.entry? name = registry.entry? name) :
    ofLeaf other limit leaf = .ok flattened := by
  obtain ⟨root, rest, rises, -, rfl⟩ := ofLeaf_ok made
  have again : Lineage.Rises other limit [] leaf (root :: rest) :=
    Lineage.rises_frame consistent rises fun entry member =>
      same entry.template.name entry.generation (List.mem_map_of_mem member)
  have climbed : Lineage.ofLeaf other limit leaf = .ok (root :: rest) :=
    Lineage.climb_of_rises again
  simp only [ofLeaf, climbed, Except.map, List.head?_cons, Option.map_some, Option.getD_some]

end Flattened

end Stencil
