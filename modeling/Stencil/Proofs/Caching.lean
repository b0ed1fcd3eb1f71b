import Stencil.Engine.Basic
import Stencil.Proofs.Lineages
import Stencil.Proofs.Wording

/-!
# Copies that are current are right

A kept copy is handed out if every template that it was made from is still the registered one.
That this is enough rests on the generations: they are never used twice, so an entry with a
generation that is known is the entry that was met when the copy was made. If all of them are
there still, the lineage is the same, and flattening it anew would give the same nodes.
-/

namespace Stencil

/-- A cache whose copies are right as long as they are current. That they are dated is what makes a
generation tell an entry, also later. -/
structure Cache.Sound (registry : Registry) (limit : Nat) (cache : Cache) : Prop where
  /-- No kept copy was made from an entry that is yet to come. -/
  dated : ∀ name copy, cache.copies.get? name = some copy →
    ∀ member generation, (member, generation) ∈ copy.flattened.lineage →
      generation ≤ registry.changes
  /-- A current copy has the content that flattening would give now. -/
  current : ∀ name copy, cache.copies.get? name = some copy →
    copy.flattened.isCurrent registry = true →
      Flattened.ofLeaf registry limit name = .ok copy.flattened

namespace Flattened

variable {registry : Registry} {limit : Nat} {leaf : String} {flattened : Flattened}

/-- A flattened template is current exactly if each template of its lineage has its generation.
Templates that have been removed have none. -/
theorem current_iff : flattened.isCurrent registry = true ↔
    ∀ name generation, (name, generation) ∈ flattened.lineage →
      registry.generation? name = some generation := by
  simp only [isCurrent, List.all_eq_true, beq_iff_eq, Prod.forall]

/-- A template that is flattened now is made from entries that are there now, and their generations
have been issued. -/
theorem ofLeaf_dated (consistent : registry.Consistent)
    (made : ofLeaf registry limit leaf = .ok flattened) (member : String) (generation : Nat)
    (held : (member, generation) ∈ flattened.lineage) : generation ≤ registry.changes := by
  obtain ⟨root, rest, rises, -, rfl⟩ := ofLeaf_ok made
  obtain ⟨entry, inLineage, same⟩ := List.mem_map.mp held
  obtain ⟨rfl, rfl⟩ := Prod.mk.inj same
  obtain ⟨name, kept⟩ := Lineage.rises_kept rises inLineage
  exact consistent.dated name entry kept

/-- What is current at a later time has met the same entries before. A generation that was issued
then belongs to one entry for all time. -/
theorem current_later {later : Registry} (isLater : registry.Later later)
    (dated : ∀ member generation, (member, generation) ∈ flattened.lineage →
      generation ≤ registry.changes)
    (current : flattened.isCurrent later = true) {member : String} {generation : Nat}
    (held : (member, generation) ∈ flattened.lineage) :
    later.entry? member = registry.entry? member := by
  rcases isLater.entries member with same | made
  · exact same
  · have found : later.generation? member = some generation :=
      current_iff.mp current member generation held
    obtain ⟨entry, kept, generated⟩ := Option.map_eq_some_iff.mp found
    have new : registry.changes < generation := generated ▸ made entry kept
    have old : generation ≤ registry.changes := dated member generation held
    omega

end Flattened

namespace Cache

variable {registry : Registry} {limit : Nat} {cache : Cache}

/-- An empty cache holds nothing that could be wrong. -/
theorem sound_empty (registry : Registry) (limit : Nat) : Sound registry limit empty where
  dated := fun _ _ kept => nomatch kept
  current := fun _ _ kept => nomatch kept

/-- A sound cache stays sound while the registry changes. A copy that is current later has a lineage
of the same entries, and flattening looks at nothing else. -/
theorem sound_later {later : Registry} (consistent : registry.Consistent)
    (isLater : registry.Later later) (sound : Sound registry limit cache) :
    Sound later limit cache where
  dated := by
    intro name copy kept member generation held
    exact Nat.le_trans (sound.dated name copy kept member generation held) isLater.counted
  current := by
    intro name copy kept current
    have same {member : String} {generation : Nat}
        (held : (member, generation) ∈ copy.flattened.lineage) :
        later.entry? member = registry.entry? member :=
      Flattened.current_later isLater (sound.dated name copy kept) current held
    have before : copy.flattened.isCurrent registry = true := by
      refine Flattened.current_iff.mpr fun member generation held => ?_
      have found := Flattened.current_iff.mp current member generation held
      rwa [Registry.generation?, same held] at found
    have made := sound.current name copy kept before
    exact Flattened.ofLeaf_frame consistent made fun member generation held => same held

/-- A copy made anew has the content that flattening gives, and it may be kept. Where flattening
fails the fault is handed out, and the cache stays as it is. -/
theorem renew_answers (consistent : registry.Consistent) (sound : Sound registry limit cache)
    (name : String) :
    (cache.renew registry limit name).1.map (·.flattened) = Flattened.ofLeaf registry limit name ∧
      Sound registry limit (cache.renew registry limit name).2 := by
  unfold renew issue
  cases made : Flattened.ofLeaf registry limit name with
  | error fault => exact ⟨rfl, sound⟩
  | ok flattened =>
    have kept (sought : String) :
        Dict.get? (Dict.insert cache.copies name ⟨cache.issued + 1, flattened⟩) sought =
          if name = sought then some ⟨cache.issued + 1, flattened⟩
          else Dict.get? cache.copies sought :=
      Dict.get?_insert cache.copies name sought _
    refine ⟨rfl, ?_, ?_⟩
    · intro sought copy found
      rw [kept] at found
      split at found
      · obtain rfl := Option.some.inj found
        exact Flattened.ofLeaf_dated consistent made
      · exact sound.dated sought copy found
    · intro sought copy found
      rw [kept] at found
      split at found
      · next same =>
        obtain rfl := Option.some.inj found
        exact fun _ => same ▸ made
      · exact sound.current sought copy found

/-- A sound cache hands out what flattening would give, or the same fault, and stays sound. It has a
current copy, which is right, or it makes one. -/
theorem fetch_answers (consistent : registry.Consistent) (sound : Sound registry limit cache)
    (name : String) :
    (cache.fetch registry limit name).1.map (·.flattened) = Flattened.ofLeaf registry limit name ∧
      Sound registry limit (cache.fetch registry limit name).2 := by
  unfold fetch
  split
  · next copy kept =>
    split
    · next current => exact ⟨(sound.current name copy kept current).symm, sound⟩
    · exact renew_answers consistent sound name
  · exact renew_answers consistent sound name

/-- A copy that is not kept has the content that flattening gives. Of the cache only the count is
used. -/
theorem issue_answers (registry : Registry) (limit : Nat) (cache : Cache) (name : String) :
    (cache.issue registry limit name).1.map (·.flattened) =
      Flattened.ofLeaf registry limit name := by
  unfold issue
  cases Flattened.ofLeaf registry limit name <;> rfl

end Cache

namespace Engine

/-- What holds of an engine at any time: its registry is consistent, and its cache, if it is used at
all, is sound. Nothing is said of a cache that is not used. -/
structure Sound (engine : Engine) : Prop where
  consistent : engine.registry.Consistent
  cached : engine.settings.cacheResolved = true →
    engine.cache.Sound engine.registry engine.settings.maxDepth

/-- A new engine is sound, with whatever settings: it has no templates and no copies. -/
theorem sound_new (settings : Settings) : (new settings).Sound where
  consistent := Registry.consistent_empty settings.trimBlocks
  cached := fun _ => Cache.sound_empty _ _

/-- An engine stays sound while its registry changes, in whatever way it gets from one to the
other. -/
theorem Sound.later {engine : Engine} (sound : engine.Sound) {registry : Registry}
    (reaches : engine.registry.Reaches registry) : Sound { engine with registry } where
  consistent := Registry.consistent_reaches sound.consistent reaches
  cached := fun uses =>
    Cache.sound_later sound.consistent (Registry.later_of_reaches reaches) (sound.cached uses)

/-- Flattened templates as flattening a registry gives them. This is what an engine would hand out
if it had no cache at all. -/
def library (settings : Settings) (registry : Registry) : Library :=
  Flattened.ofLeaf registry settings.maxDepth

/-- With the cache or without it, what is obtained is what flattening gives. The premise asks for a
sound cache only where it is used. -/
theorem obtain_answers {settings : Settings} {registry : Registry}
    (consistent : registry.Consistent) (name : String) (cache : Cache)
    (sound : settings.cacheResolved = true → cache.Sound registry settings.maxDepth) :
    (obtain settings registry name cache).1.map (·.flattened) = library settings registry name ∧
      (settings.cacheResolved = true →
        (obtain settings registry name cache).2.Sound registry settings.maxDepth) := by
  unfold obtain
  cases uses : settings.cacheResolved with
  | true =>
    have answers := Cache.fetch_answers consistent (sound uses) name
    exact ⟨answers.1, fun _ => answers.2⟩
  | false => exact ⟨Cache.issue_answers _ _ cache name, fun used => nomatch used⟩

/-- So the shelf of an engine answers like a library that has no state. What renders through it
cannot see the cache. -/
theorem shelf_answers {settings : Settings} {registry : Registry}
    (consistent : registry.Consistent) :
    (shelf settings registry).Answers
      (fun cache => settings.cacheResolved = true → cache.Sound registry settings.maxDepth)
      (library settings registry) :=
  fun name cache sound => obtain_answers consistent name cache sound

/-- What a request to render is answered with, told without a cache: flatten, assemble the scope,
and say the nodes. -/
def answer (engine : Engine) (name : String) (bindings : Layer) : Except Fault String := do
  let template ← library engine.settings engine.registry name
  let scope ← Scope.assemble engine.providers bindings
  say (library engine.settings engine.registry) engine.settings.maxDepth
    engine.settings.autoescape [] template.nodes scope

/-- Only the cache of an engine changes when it resolves a template, and the engine stays sound. -/
theorem resolve_answers {engine : Engine} (sound : engine.Sound) (name : String) :
    (engine.resolve name).1.map (·.flattened) = library engine.settings engine.registry name ∧
      ∃ cache, (engine.resolve name).2 = { engine with cache } ∧ Sound { engine with cache } := by
  obtain ⟨same, stays⟩ := obtain_answers sound.consistent name engine.cache sound.cached
  exact ⟨same, _, rfl, sound.consistent, stays⟩

/-- Rendering gives the answer that is told without a cache, and only the cache changes. Whether it
fails before the first node or while rendering does not matter. -/
theorem render_answers {engine : Engine} (sound : engine.Sound) (name : String)
    (bindings : Layer) :
    (engine.render name bindings).1 = engine.answer name bindings ∧
      ∃ cache, (engine.render name bindings).2 = { engine with cache } ∧
        Sound { engine with cache } := by
  obtain ⟨same, cache, resolved, stillSound⟩ := resolve_answers sound name
  unfold render answer
  cases outcome : engine.resolve name with
  | mk result after =>
    rw [outcome] at same resolved
    obtain rfl : after = { engine with cache } := resolved
    cases result with
    | error fault =>
      rw [← same]
      exact ⟨rfl, cache, rfl, stillSound⟩
    | ok copy =>
      rw [← same]
      cases assembled : Scope.assemble engine.providers bindings with
      | error fault =>
        simp only [assembled]
        exact ⟨rfl, cache, rfl, stillSound⟩
      | ok scope =>
        obtain ⟨state, inOrder, ran⟩ := Rendering.render_wording (shelf_answers sound.consistent)
          engine.settings.maxDepth engine.settings.autoescape copy.flattened.nodes
          ⟨scope, [], cache⟩ stillSound.cached
        simp only [assembled, ran]
        exact ⟨rfl, state, rfl, sound.consistent, inOrder⟩

end Engine

end Stencil
