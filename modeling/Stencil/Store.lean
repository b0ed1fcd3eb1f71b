import Stencil.Cache
import Stencil.Rendering

/-!
# Stores

The parts of an engine side by side: a registry, a cache and a scope, each used on its
own. A store has no settings; how deep a request may go is said with the request.
-/

namespace Stencil

/-- A registry, a cache and a scope, which know nothing of each other until they are put to use. -/
structure Store where
  registry : Registry
  cache : Cache
  scope : Scope

namespace Store

/-- Nothing in any part. Only how line ends are treated has to be known. -/
def new (trim : Bool) : Store := ⟨.empty trim, .empty, .empty⟩

/-- A copy of a flattened template from the cache. The cache may be changed by it, the registry is
not. -/
def resolve (store : Store) (limit : Nat) (name : String) : Except Fault Copy × Store :=
  let (copy, cache) := store.cache.fetch store.registry limit name
  (copy, { store with cache })

/-- Put the layers of providers and variables in place of the scope. A provider that fails leaves
the scope as it was. -/
def assemble (store : Store) (providers : List Provider) (bindings : Layer) :
    Except Fault Store :=
  (Scope.assemble providers bindings).map fun scope => { store with scope }

/-- A shelf that flattens every template anew and has no state. So it answers by the name alone. -/
def shelf (registry : Registry) (limit : Nat) : Shelf Unit := fun name _ =>
  (Flattened.ofLeaf registry limit name, ())

/-- Render a template in the scope of the store without the cache: once, and again in the
session that the first rendering left behind. The scope stays as the second leaves it. -/
def renderTwice (store : Store) (limit : Nat) (escaping : Bool) (name : String) :
    Except Fault ((Except Fault String × Except Fault String) × Store) :=
  (Flattened.ofLeaf store.registry limit name).map fun template =>
    let once := render (shelf store.registry limit) limit escaping template.nodes
    let (first, session) := once ⟨store.scope, [], ()⟩
    let (second, session) := once session
    ((first, second), { store with scope := session.scope })

end Store

end Stencil
