import Stencil.Flattening

/-!
# The cache of flattened templates

Flattened templates are kept by name and handed out again as long as every template that
they were made from is still the registered one. What is handed out is a copy with a
serial number, so that a copy that was kept can be told from one that was made anew with
the same content.
-/

namespace Stencil

/-- A flattened template as it is handed out. Two copies with one serial number are one object to
whoever receives them. -/
structure Copy where
  serial : Nat
  flattened : Flattened

/-- The copies kept by name. A copy that is out of date stays until it is replaced. How many copies
have been made is counted on its own, for it also counts those that are not kept. -/
structure Cache where
  copies : Dict Copy
  /-- The copies made so far. -/
  issued : Nat

namespace Cache

/-- A cache without copies. None have been made, so the first one gets the number one. -/
def empty : Cache := ⟨[], 0⟩

/-- Make a new copy of a template without keeping it. A failure uses up no number, so the numbers of
copies have no gaps. -/
def issue (registry : Registry) (limit : Nat) (name : String) (cache : Cache) :
    Except Fault Copy × Cache :=
  match Flattened.ofLeaf registry limit name with
  | .error fault => (.error fault, cache)
  | .ok flattened => (.ok ⟨cache.issued + 1, flattened⟩, { cache with issued := cache.issued + 1 })

/-- Make a new copy of a template and keep it. A failure leaves the cache as it is. -/
def renew (registry : Registry) (limit : Nat) (name : String) (cache : Cache) :
    Except Fault Copy × Cache :=
  match cache.issue registry limit name with
  | (.error fault, cache) => (.error fault, cache)
  | (.ok copy, cache) => (.ok copy, { cache with copies := cache.copies.insert name copy })

/-- The copy kept under a name if it is current, else a new one that takes its place. A name without
a copy is treated as one whose copy is out of date. -/
def fetch (registry : Registry) (limit : Nat) (name : String) (cache : Cache) :
    Except Fault Copy × Cache :=
  match cache.copies.get? name with
  | some copy =>
    if copy.flattened.isCurrent registry then (.ok copy, cache)
    else cache.renew registry limit name
  | none => cache.renew registry limit name

/-- Without any copies; serial numbers go on, so that no later copy is taken for an earlier one. -/
def clear (cache : Cache) : Cache := { cache with copies := [] }

/-- The number of copies kept. It is at most the number of copies made, and copies that are out of
date count as well. -/
def size (cache : Cache) : Nat := cache.copies.length

end Cache

/-- The copy last received under each name. -/
abbrev Receipts := Dict Copy

namespace Receipts

/-- Whether a copy is the one that was received before under this name. Copies are told apart by
their numbers, whatever their content is. -/
def isRepeated (receipts : Receipts) (name : String) (copy : Copy) : Bool :=
  match Dict.get? receipts name with
  | some earlier => earlier.serial == copy.serial
  | none => false

end Receipts

end Stencil
