import Mathlib.Data.List.Induction
import Stencil.Proofs.Caching
import Stencil.Proofs.Rounds
import Stencil.Store

/-!
# When a copy goes out of date

A flattened template is current until one of the templates in its lineage is registered, inserted
or removed, and never again from then on: a template that comes back under an old name comes back
with a new generation, even if it is the same source. Nothing else puts it out of date. From this
follows when the cache hands out a copy for a second time: exactly as long as nothing in the
lineage of the copy is touched. Requests that fail touch nothing, and neither do requests about
other names.

A store is used step by step here. Every step that asks for a template brings a limit of its own,
since a copy that is current is handed out whatever the limit is.
-/

namespace Stencil

namespace Flattened

variable {registry : Registry} {flattened : Flattened}

/-- No template of the lineage has one of the names. A lineage is all that a flattened template was
made from, so changes under these names are no concern of it. -/
def Apart (flattened : Flattened) (names : List String) : Prop :=
  ∀ member generation, (member, generation) ∈ flattened.lineage → member ∉ names

/-- Nothing of the lineage is touched by two lists of names if nothing is by either. -/
theorem apart_append (flattened : Flattened) (names later : List String) :
    flattened.Apart (names ++ later) ↔ flattened.Apart names ∧ flattened.Apart later := by
  simp only [Apart, List.mem_append, not_or]
  constructor
  · intro apart
    exact ⟨fun member generation held => (apart member generation held).1,
      fun member generation held => (apart member generation held).2⟩
  · rintro ⟨first, second⟩ member generation held
    exact ⟨first member generation held, second member generation held⟩

/-- What has just been flattened is current: its lineage was put together from the entries that are
there. -/
theorem ofLeaf_current {limit : Nat} {leaf : String} (consistent : registry.Consistent)
    (made : ofLeaf registry limit leaf = .ok flattened) : flattened.isCurrent registry = true := by
  obtain ⟨root, rest, rises, -, rfl⟩ := ofLeaf_ok made
  refine current_iff.mpr fun member generation held => ?_
  obtain ⟨entry, inLineage, same⟩ := List.mem_map.mp held
  obtain ⟨rfl, rfl⟩ := Prod.mk.inj same
  obtain ⟨name, kept⟩ := Lineage.rises_kept rises inLineage
  rw [consistent.named kept, Registry.generation?, kept, Option.map_some]

/-- What is current stays so exactly until a template of its lineage is touched. An entry under a
name that is not touched stays, and one under a name that is touched has a generation that the
lineage does not know. -/
theorem current_iff_apart {reached : Registry} {names : List String}
    (consistent : registry.Consistent) (passes : registry.Passes names reached)
    (current : flattened.isCurrent registry = true) :
    flattened.isCurrent reached = true ↔ flattened.Apart names := by
  have stood (member : String) (generation : Nat)
      (held : (member, generation) ∈ flattened.lineage) :
      registry.generation? member = some generation :=
    current_iff.mp current member generation held
  constructor
  · intro still member generation held touched
    have stands : reached.generation? member = some generation :=
      current_iff.mp still member generation held
    obtain ⟨entry, kept, generated⟩ := Option.map_eq_some_iff.mp stands
    obtain ⟨before, keptBefore, generatedBefore⟩ :=
      Option.map_eq_some_iff.mp (stood member generation held)
    have new : registry.changes < entry.generation := Registry.entry_touched passes touched kept
    have old : before.generation ≤ registry.changes := consistent.dated member before keptBefore
    omega
  · intro apart
    refine current_iff.mpr fun member generation held => ?_
    have same := Registry.entry_untouched passes (apart member generation held)
    rw [Registry.generation?, same]
    exact stood member generation held

end Flattened

namespace Cache

variable {registry : Registry} {limit : Nat} {name : String} {cache : Cache}

/-- All that fetching can do: hand out the copy that is kept if it is current, and otherwise fail or
put a new copy in its place. Everything that is said of the cache below is said of these three
cases, and none of it looks at the code again. -/
inductive Fetched (registry : Registry) (limit : Nat) (name : String) (cache : Cache) :
    Except Fault Copy → Cache → Prop
  | kept {copy : Copy} (found : cache.copies.get? name = some copy)
      (current : copy.flattened.isCurrent registry = true) :
      Fetched registry limit name cache (.ok copy) cache
  | failed {fault : Fault}
      (stale : ∀ copy, cache.copies.get? name = some copy →
        copy.flattened.isCurrent registry = false)
      (failed : Flattened.ofLeaf registry limit name = .error fault) :
      Fetched registry limit name cache (.error fault) cache
  | renewed {flattened : Flattened}
      (stale : ∀ copy, cache.copies.get? name = some copy →
        copy.flattened.isCurrent registry = false)
      (made : Flattened.ofLeaf registry limit name = .ok flattened) :
      Fetched registry limit name cache (.ok ⟨cache.issued + 1, flattened⟩)
        ⟨cache.copies.insert name ⟨cache.issued + 1, flattened⟩, cache.issued + 1⟩

/-- Where no current copy is kept, a new one is made or the failure is handed on. A failure leaves
the cache as it is, the outdated copy included. -/
theorem fetched_renew
    (stale : ∀ copy, cache.copies.get? name = some copy →
      copy.flattened.isCurrent registry = false) :
    Fetched registry limit name cache (cache.renew registry limit name).1
      (cache.renew registry limit name).2 := by
  unfold renew issue
  cases made : Flattened.ofLeaf registry limit name with
  | error fault => exact .failed stale made
  | ok flattened => exact .renewed stale made

/-- Fetching does one of these. Where a copy is kept its lineage decides, and where none is kept
there is nothing to decide. -/
theorem fetched (registry : Registry) (limit : Nat) (name : String) (cache : Cache) :
    Fetched registry limit name cache (cache.fetch registry limit name).1
      (cache.fetch registry limit name).2 := by
  unfold fetch
  split
  · next copy found =>
    split
    · next current => exact .kept found current
    · next stale =>
      refine fetched_renew fun other foundOther => ?_
      obtain rfl : copy = other := Option.some.inj (found.symm.trans foundOther)
      simpa using stale
  · next nothing => exact fetched_renew fun other found => nomatch nothing.symm.trans found

/-- No kept copy has a serial number that is yet to come, so a new copy is told from all that are
kept. -/
def Numbered (cache : Cache) : Prop :=
  ∀ name copy, cache.copies.get? name = some copy → copy.serial ≤ cache.issued

/-- Of the copies that have been kept under a name from a certain one on, none has its serial
number but that one itself. -/
structure Follows (name : String) (copy : Copy) (cache : Cache) : Prop where
  issued : copy.serial ≤ cache.issued
  kept : ∀ other, cache.copies.get? name = some other →
    other = copy ∨ copy.serial < other.serial

variable {outcome : Except Fault Copy} {after : Cache}

/-- Fetching keeps the numbers in order: only a new copy is added, with the number counted last. -/
theorem numbered_fetched (numbered : cache.Numbered)
    (fetched : Fetched registry limit name cache outcome after) : after.Numbered := by
  cases fetched with
  | kept found current => exact numbered
  | failed stale failed => exact numbered
  | renewed stale made =>
    intro sought copy found
    rw [Dict.get?_insert] at found
    split at found
    · obtain rfl := Option.some.inj found
      exact Nat.le_refl _
    · exact Nat.le_succ_of_le (numbered sought copy found)

/-- Fetching keeps what is said of the numbers behind a copy. -/
theorem follows_fetched {held : String} {copy : Copy} (follows : cache.Follows held copy)
    (fetched : Fetched registry limit name cache outcome after) : after.Follows held copy := by
  cases fetched with
  | kept found current => exact follows
  | failed stale failed => exact follows
  | renewed stale made =>
    refine ⟨Nat.le_succ_of_le follows.issued, fun other found => ?_⟩
    rw [Dict.get?_insert] at found
    split at found
    · obtain rfl := Option.some.inj found
      exact .inr (Nat.lt_succ_of_le follows.issued)
    · exact follows.kept other found

/-- A copy that is current stays where it is, whatever is fetched. A new copy takes the place of one
under its own name, and only if that one is not current. -/
theorem held_fetched {held : String} {copy : Copy} (found : cache.copies.get? held = some copy)
    (current : copy.flattened.isCurrent registry = true)
    (fetched : Fetched registry limit name cache outcome after) :
    after.copies.get? held = some copy := by
  cases fetched with
  | kept foundNow currentNow => exact found
  | failed stale failed => exact found
  | renewed stale made =>
    rw [Dict.get?_insert]
    split
    · next same =>
      have outdated := stale copy (same ▸ found)
      rw [current] at outdated
      cases outdated
    · exact found

/-- A current copy is the one that is handed out. The other two ways of fetching presuppose that no
current copy is kept. -/
theorem outcome_fetched {copy : Copy} (found : cache.copies.get? name = some copy)
    (current : copy.flattened.isCurrent registry = true)
    (fetched : Fetched registry limit name cache outcome after) : outcome = .ok copy := by
  have notStale (stale : ∀ copy, cache.copies.get? name = some copy →
      copy.flattened.isCurrent registry = false) : False := by
    have outdated := stale copy found
    rw [current] at outdated
    cases outdated
  cases fetched with
  | kept foundNow currentNow => rw [Option.some.inj (found.symm.trans foundNow)]
  | failed stale failed => exact (notStale stale).elim
  | renewed stale made => exact (notStale stale).elim

/-- A serial number tells the copy that is handed out from those before. A new copy has a number
that none before it has had. -/
theorem serial_fetched {copy other : Copy} (follows : cache.Follows name copy)
    (fetched : Fetched registry limit name cache (.ok other) after)
    (same : other.serial = copy.serial) : other = copy := by
  cases fetched with
  | kept found current =>
    rcases follows.kept other found with equal | later
    · exact equal
    · omega
  | renewed stale made =>
    have issued := follows.issued
    simp only at same
    omega

/-- What is handed out is current, and it is kept from then on. A new copy is current because it was
flattened from this very registry. -/
theorem handed_fetched (consistent : registry.Consistent) {copy : Copy}
    (fetched : Fetched registry limit name cache (.ok copy) after) :
    copy.flattened.isCurrent registry = true ∧ after.copies.get? name = some copy := by
  cases fetched with
  | kept found current => exact ⟨current, found⟩
  | renewed stale made =>
    refine ⟨Flattened.ofLeaf_current consistent made, ?_⟩
    rw [Dict.get?_insert, if_pos rfl]

end Cache

namespace Store

/-- A step in the use of a store. The scope of the store plays no part in it. -/
inductive Step where
  /-- Register, insert or remove a template. -/
  | change (request : Change)
  /-- Load a directory that looks like this at the time, if it is there. -/
  | load (extensions : List String) (root : Option Tree)
  /-- Ask the cache for a template. -/
  | resolve (limit : Nat) (name : String)
  /-- Empty the cache. -/
  | clear

/-- The store after a step, whether the step has succeeded or not. A change or a load works on the
registry alone, a question on the cache alone. -/
def perform (store : Store) : Step → Store
  | .change request => { store with registry := store.registry.change request }
  | .load extensions root =>
    { store with registry := (Loading.load extensions root store.registry).2 }
  | .resolve limit name => (store.resolve limit name).2
  | .clear => { store with cache := store.cache.clear }

/-- The store after steps one behind the other. What holds of it is shown by induction over the
steps from what one of them preserves. -/
def after (store : Store) (steps : List Step) : Store := steps.foldl perform store

/-- The names under which a step registers, inserts or removes a template. A load touches those of
the files that become templates; a question touches none. -/
def touched (store : Store) : Step → List String
  | .change request => store.registry.touched request
  | .load extensions root => Registry.touchedByLoad extensions root store.registry
  | .resolve _ _ | .clear => []

/-- The names that are touched in the course of steps. What a step touches is told in the store that
it is taken in. -/
def touchedBy (store : Store) : List Step → List String
  | [] => []
  | step :: rest => store.touched step ++ (store.perform step).touchedBy rest

/-- In the course of the steps no template of the lineage is registered, inserted or removed. This
is what decides whether a copy is current still. -/
def Untouched (store : Store) (steps : List Step) (flattened : Flattened) : Prop :=
  flattened.Apart (store.touchedBy steps)

/-- A template that the store gives at this time, flattened for the occasion or handed out by the
cache. -/
def Gives (store : Store) (flattened : Flattened) : Prop :=
  (∃ limit leaf, Flattened.ofLeaf store.registry limit leaf = .ok flattened) ∨
    ∃ limit name copy, (store.resolve limit name).1 = .ok copy ∧ copy.flattened = flattened

variable {store : Store}

/-- Steps are taken one after the other. -/
theorem after_append (store : Store) (steps later : List Step) :
    store.after (steps ++ later) = (store.after steps).after later :=
  List.foldl_append

/-- So are the names that they touch. The later steps are taken in the store that the earlier ones
have left, on which it depends what they touch. -/
theorem touchedBy_append (store : Store) (steps later : List Step) :
    store.touchedBy (steps ++ later) =
      store.touchedBy steps ++ (store.after steps).touchedBy later := by
  induction steps generalizing store with
  | nil => rfl
  | cons step rest inductionHypothesis =>
    have behind := inductionHypothesis (store.perform step)
    simp only [List.cons_append, touchedBy, behind, List.append_assoc]
    rfl

/-- What is untouched by steps is untouched by the first of them. -/
theorem untouched_append {flattened : Flattened} {steps later : List Step}
    (untouched : store.Untouched (steps ++ later) flattened) :
    store.Untouched steps flattened := by
  unfold Untouched at untouched
  rw [touchedBy_append, Flattened.apart_append] at untouched
  exact untouched.1

/-- A step changes the registry under the names that it touches; asking the cache and emptying it
change nothing. -/
theorem passes_step (store : Store) (step : Step) :
    store.registry.Passes (store.touched step) (store.perform step).registry := by
  cases step with
  | change request => exact Registry.passes_change store.registry request
  | load extensions root => exact Registry.passes_load extensions root store.registry
  | resolve limit name => exact .refl
  | clear => exact .refl

/-- Steps change the registry under the names that they touch, and under no others. The induction is
on the steps. -/
theorem passes_steps (store : Store) (steps : List Step) :
    store.registry.Passes (store.touchedBy steps) (store.after steps).registry := by
  induction steps generalizing store with
  | nil => exact .refl
  | cons step rest inductionHypothesis =>
    exact (passes_step store step).trans (inductionHypothesis (store.perform step))

/-- What a step that asks the cache does. -/
theorem resolve_fetched (store : Store) (limit : Nat) (name : String) :
    Cache.Fetched store.registry limit name store.cache (store.resolve limit name).1
      (store.resolve limit name).2.cache :=
  Cache.fetched store.registry limit name store.cache

/-- What holds of a store at any time, whatever has been asked of it: the registry is consistent,
and no kept copy has a number that is yet to come. -/
structure Orderly (store : Store) : Prop where
  consistent : store.registry.Consistent
  numbered : store.cache.Numbered

/-- It holds in the beginning, when there are no templates and no copies. -/
theorem orderly_new (trim : Bool) : (new trim).Orderly where
  consistent := Registry.consistent_empty trim
  numbered := fun _ _ kept => nomatch kept

/-- Every step keeps it: a registry stays consistent by any change, and the cache stays numbered by
any fetching. -/
theorem orderly_step (orderly : store.Orderly) (step : Step) : (store.perform step).Orderly where
  consistent := Registry.consistent_reaches orderly.consistent (passes_step store step).reaches
  numbered := by
    cases step with
    | change request => exact orderly.numbered
    | load extensions root => exact orderly.numbered
    | resolve limit name =>
      exact Cache.numbered_fetched orderly.numbered (resolve_fetched store limit name)
    | clear => exact fun _ _ kept => nomatch kept

/-- So it holds after any steps. -/
theorem orderly_after (orderly : store.Orderly) (steps : List Step) :
    (store.after steps).Orderly := by
  induction steps generalizing store with
  | nil => exact orderly
  | cons step rest inductionHypothesis => exact inductionHypothesis (orderly_step orderly step)

/-- Whatever a store gives is current at the time, be it flattened for the occasion or handed out by
the cache. -/
theorem gives_current (orderly : store.Orderly) {flattened : Flattened}
    (gives : store.Gives flattened) : flattened.isCurrent store.registry = true := by
  rcases gives with ⟨limit, leaf, made⟩ | ⟨limit, name, copy, resolved, rfl⟩
  · exact Flattened.ofLeaf_current orderly.consistent made
  · have fetched := resolve_fetched store limit name
    rw [resolved] at fetched
    exact (Cache.handed_fetched orderly.consistent fetched).1

section Kept

variable {name : String} {copy : Copy}

/-- Serial numbers behind that of a copy are not given a second time. The induction is on the steps;
emptying the cache does not take the count back. -/
theorem follows_after (follows : store.cache.Follows name copy) (steps : List Step) :
    (store.after steps).cache.Follows name copy := by
  induction steps generalizing store with
  | nil => exact follows
  | cons step rest inductionHypothesis =>
    apply inductionHypothesis
    cases step with
    | change request => exact follows
    | load extensions root => exact follows
    | resolve limit other => exact Cache.follows_fetched follows (resolve_fetched store limit other)
    | clear => exact ⟨follows.issued, fun _ kept => nomatch kept⟩

/-- A current copy is kept as long as nothing in its lineage is touched and the cache is not
emptied. The induction is on the steps: the copy is current before each of them, so no fetching
replaces it. -/
theorem held_after (orderly : store.Orderly) (found : store.cache.copies.get? name = some copy)
    (current : copy.flattened.isCurrent store.registry = true) {steps : List Step}
    (uncleared : .clear ∉ steps) (untouched : store.Untouched steps copy.flattened) :
    (store.after steps).cache.copies.get? name = some copy := by
  induction steps generalizing store with
  | nil => exact found
  | cons step rest inductionHypothesis =>
    obtain ⟨first, later⟩ : copy.flattened.Apart (store.touched step) ∧
        (store.perform step).Untouched rest copy.flattened :=
      (Flattened.apart_append _ _ _).mp untouched
    have stillCurrent : copy.flattened.isCurrent (store.perform step).registry = true :=
      (Flattened.current_iff_apart orderly.consistent (passes_step store step) current).mpr first
    refine inductionHypothesis (orderly_step orderly step) ?_ stillCurrent
      (fun member => uncleared (List.mem_cons_of_mem step member)) later
    cases step with
    | change request => exact found
    | load extensions root => exact found
    | resolve limit other =>
      exact Cache.held_fetched found current (resolve_fetched store limit other)
    | clear => exact absurd List.mem_cons_self uncleared

/-- A kept copy has been made by a step that asked for its name, with the serial number that was
next at that time. The induction is on the steps, from the last one back: if it was not made by the
last step, it was there before. -/
theorem made_of_kept (trim : Bool) (steps : List Step)
    (kept : ((new trim).after steps).cache.copies.get? name = some copy) :
    ∃ before limit behind, steps = before ++ .resolve limit name :: behind ∧
      (((new trim).after before).resolve limit name).1 = .ok copy ∧
      copy.serial = ((new trim).after before).cache.issued + 1 := by
  induction steps using List.reverseRecOn generalizing copy with
  | nil => cases kept
  | append_singleton steps step inductionHypothesis =>
    have before (keptBefore : ((new trim).after steps).cache.copies.get? name = some copy) :
        ∃ before limit behind, steps ++ [step] = before ++ .resolve limit name :: behind ∧
          (((new trim).after before).resolve limit name).1 = .ok copy ∧
          copy.serial = ((new trim).after before).cache.issued + 1 := by
      obtain ⟨before, limit, behind, rfl, made⟩ := inductionHypothesis keptBefore
      exact ⟨before, limit, behind ++ [step], by simp, made⟩
    rw [after_append] at kept
    cases step with
    | change request => exact before kept
    | load extensions root => exact before kept
    | clear => cases kept
    | resolve limit other =>
      have fetched := resolve_fetched ((new trim).after steps) limit other
      change ((((new trim).after steps).resolve limit other).2.cache.copies).get? name = _ at kept
      generalize outcome : (((new trim).after steps).resolve limit other).1 = result at fetched
      generalize (((new trim).after steps).resolve limit other).2.cache = after at fetched kept
      cases fetched with
      | kept found current => exact before kept
      | failed stale failed => exact before kept
      | renewed stale made =>
        rw [Dict.get?_insert] at kept
        split at kept
        · next same =>
          subst same
          obtain rfl := Option.some.inj kept
          exact ⟨steps, limit, [], rfl, outcome, rfl⟩
        · exact before kept

/-- Asked again for a name, the cache hands out the same copy exactly if nothing in the lineage of
the copy has been touched in between. If something has, the copy is not current and cannot be handed
out, and no other copy is the same. -/
theorem resolve_again (orderly : store.Orderly) {limit : Nat}
    (resolved : (store.resolve limit name).1 = .ok copy) {later : List Step}
    (uncleared : .clear ∉ later) (again : Nat) :
    (((store.after (.resolve limit name :: later)).resolve again name).1 = .ok copy ↔
      store.Untouched (.resolve limit name :: later) copy.flattened) := by
  have handed := resolve_fetched store limit name
  rw [resolved] at handed
  obtain ⟨current, found⟩ := Cache.handed_fetched orderly.consistent handed
  have orderlyNext : (store.after (.resolve limit name :: later)).Orderly :=
    orderly_after orderly _
  have fetched := resolve_fetched (store.after (.resolve limit name :: later)) again name
  have current_iff := Flattened.current_iff_apart orderly.consistent
    (passes_steps store (.resolve limit name :: later)) current
  constructor
  · intro same
    rw [same] at fetched
    exact current_iff.mp (Cache.handed_fetched orderlyNext.consistent fetched).1
  · intro untouched
    have held : (store.after (.resolve limit name :: later)).cache.copies.get? name = some copy :=
      held_after (orderly_step orderly (.resolve limit name)) found current uncleared untouched
    exact Cache.outcome_fetched held (current_iff.mpr untouched) fetched

/-- A copy that is handed out later under the same name has another serial number, unless it is the
same copy. So it can be told by the numbers whether a copy was made anew. -/
theorem serial_again (orderly : store.Orderly) {limit : Nat}
    (resolved : (store.resolve limit name).1 = .ok copy) (later : List Step) {again : Nat}
    {other : Copy}
    (resolvedAgain :
      ((store.after (.resolve limit name :: later)).resolve again name).1 = .ok other)
    (same : other.serial = copy.serial) : other = copy := by
  have handed := resolve_fetched store limit name
  rw [resolved] at handed
  have found := (Cache.handed_fetched orderly.consistent handed).2
  have numbered := Cache.numbered_fetched orderly.numbered handed
  have follows : (store.perform (.resolve limit name)).cache.Follows name copy := by
    refine ⟨numbered name copy found, fun kept keptNow => .inl ?_⟩
    exact Option.some.inj (keptNow.symm.trans found)
  have fetched := resolve_fetched (store.after (.resolve limit name :: later)) again name
  rw [resolvedAgain] at fetched
  exact Cache.serial_fetched (follows_after follows later) fetched same

end Kept

/-- Invalidation is exact. Take any store in use and whatever it gives at some time.

What was given then is current at a later time exactly if nothing in its lineage has been
registered, inserted or removed since, and once it is not, it never is again. A copy that the cache
gives has been made for the same name earlier in the run, unless it is made just then, so this
holds from the time on at which it was made. Asked for the name again, and not emptied in between,
the cache gives the very same copy exactly under that condition, where copies are told apart by
their serial numbers. And as long as nothing in the lineage is touched, the name resolves to the
same.

The limits of the requests may differ; requests that fail and all that happens to other names are
among the steps and do not count. -/
theorem invalidation_exact (trim : Bool) (earlier : List Step) :
    let store := (new trim).after earlier
    (∀ flattened, store.Gives flattened → ∀ later,
      (flattened.isCurrent (store.after later).registry = true ↔
        store.Untouched later flattened) ∧
      ∀ last, flattened.isCurrent (store.after later).registry = false →
        flattened.isCurrent (store.after (later ++ last)).registry = false) ∧
    (∀ limit name copy, (store.resolve limit name).1 = .ok copy →
      (∃ before depth behind,
        earlier ++ [.resolve limit name] = before ++ .resolve depth name :: behind ∧
        (((new trim).after before).resolve depth name).1 = .ok copy ∧
        copy.serial = ((new trim).after before).cache.issued + 1) ∧
      ∀ later again, .clear ∉ later →
        let next := store.after (.resolve limit name :: later)
        ((next.resolve again name).1 = .ok copy ↔
          store.Untouched (.resolve limit name :: later) copy.flattened) ∧
        ∀ other, (next.resolve again name).1 = .ok other → other.serial = copy.serial →
          other = copy) ∧
    ∀ limit leaf flattened, Flattened.ofLeaf store.registry limit leaf = .ok flattened →
      ∀ later, store.Untouched later flattened →
        Flattened.ofLeaf (store.after later).registry limit leaf = .ok flattened := by
  intro store
  have orderly : store.Orderly := orderly_after (orderly_new trim) earlier
  refine ⟨?_, ?_, ?_⟩
  · intro flattened gives later
    have current := gives_current orderly gives
    have current_iff (steps : List Step) : flattened.isCurrent (store.after steps).registry = true ↔
        store.Untouched steps flattened :=
      Flattened.current_iff_apart orderly.consistent (passes_steps store steps) current
    refine ⟨current_iff later, fun last stale => Bool.eq_false_iff.mpr fun again => ?_⟩
    have untouched : store.Untouched later flattened :=
      untouched_append ((current_iff (later ++ last)).mp again)
    -- A copy that is current after more steps was current before them, which it was not.
    rw [(current_iff later).mpr untouched] at stale
    cases stale
  · intro limit name copy resolved
    refine ⟨?_, fun later again uncleared => ⟨?_, ?_⟩⟩
    · have handed := resolve_fetched store limit name
      rw [resolved] at handed
      have found := (Cache.handed_fetched orderly.consistent handed).2
      -- The request that the copy was made for is found by looking back from where it is kept.
      apply made_of_kept trim
      rw [after_append]
      exact found
    · exact resolve_again orderly resolved uncleared again
    · exact fun other resolvedAgain => serial_again orderly resolved later resolvedAgain
  · intro limit leaf flattened made later untouched
    refine Flattened.ofLeaf_frame orderly.consistent made fun member generation held => ?_
    exact Registry.entry_untouched (passes_steps store later) (untouched member generation held)

/-- A template without a parent. -/
def baseTemplate : Template := ⟨"base", "a", [.text "a"]⟩

/-- A template that inherits all it has. -/
def leafTemplate : Template := ⟨"leaf", "\x7b% extends 'base' %\x7d", [.inherits "base"]⟩

/-- A leaf stays what it is while a source of its parent is refused, an absent name is removed and
other requests fail, and goes out of date for good when the parent is removed, although it comes
back. -/
theorem invalidation_exact_leaf :
    let store := (new false).after [.change (.register "base" baseTemplate.source),
      .change (.register "leaf" leafTemplate.source)]
    let copy : Copy := ⟨1, ⟨"leaf", [("base", 1), ("leaf", 2)], [.text "a"]⟩⟩
    let elsewhere : List Step := [.change (.register "base" "\x7b% if %\x7d"),
      .change (.remove "note"), .resolve 1 "base", .resolve 4 "absent"]
    let renewal : List Step := [.change (.remove "base"),
      .change (.register "base" baseTemplate.source)]
    store.Gives copy.flattened ∧ (store.resolve 4 "leaf").1 = .ok copy ∧
      Flattened.ofLeaf store.registry 4 "leaf" = .ok copy.flattened ∧
      .clear ∉ elsewhere ∧ store.Untouched (.resolve 4 "leaf" :: elsewhere) copy.flattened ∧
      ((store.after (.resolve 4 "leaf" :: elsewhere)).resolve 1 "leaf").1 = .ok copy ∧
      Flattened.ofLeaf (store.after elsewhere).registry 4 "leaf" = .ok copy.flattened ∧
      copy.flattened.isCurrent (store.after renewal).registry = false ∧
      copy.flattened.isCurrent (store.after (renewal ++ elsewhere)).registry = false := by
  have base : Template.ofSource "base" false baseTemplate.source = .ok baseTemplate := by
    decide +kernel
  have leaf : Template.ofSource "leaf" false leafTemplate.source = .ok leafTemplate := by
    decide +kernel
  have unread : Template.ofSource "base" false "\x7b% if %\x7d" =
      .error ⟨.expected .expression (.closing .statement), 1, 7⟩ := by
    decide +kernel
  intro store copy elsewhere renewal
  have state : store = ⟨⟨[("base", ⟨baseTemplate, 1⟩), ("leaf", ⟨leafTemplate, 2⟩)], 2, false⟩,
      .empty, .empty⟩ := by
    simp only [store, after, List.foldl, perform, Registry.change, Registry.register, new,
      Registry.empty, Registry.insert, base, leaf, Except.map]
    rfl
  have flat : Flattened.ofLeaf store.registry 4 "leaf" = .ok copy.flattened := by
    rw [state, Flattened.ofLeaf_eq_inRounds]
    decide +kernel
  have resolved : (store.resolve 4 "leaf").1 = .ok copy := by
    rw [state]
    delta resolve Cache.fetch Cache.renew Cache.issue
    rw [Flattened.ofLeaf_eq_inRounds]
    decide +kernel
  have touchedElsewhere : store.touchedBy elsewhere = [] := by
    rw [state]
    simp only [elsewhere, touchedBy, touched, perform, Registry.touched, Registry.change,
      Registry.register, unread, Except.map]
    rfl
  have removed : store.touched (.change (.remove "base")) = ["base"] := by
    rw [state]
    rfl
  have touched : ¬ store.Untouched renewal copy.flattened := by
    intro untouched
    refine untouched "base" 1 List.mem_cons_self (List.mem_append_left _ ?_)
    rw [removed]
    exact List.mem_cons_self
  have untouched : store.Untouched elsewhere copy.flattened := by
    intro member generation _
    rw [touchedElsewhere]
    exact List.not_mem_nil
  have uncleared : .clear ∉ elsewhere := by simp [elsewhere]
  have gives : store.Gives copy.flattened := .inl ⟨4, "leaf", flat⟩
  obtain ⟨exactly, again, same⟩ := invalidation_exact false
    [.change (.register "base" baseTemplate.source), .change (.register "leaf" leafTemplate.source)]
  obtain ⟨renewed, forEver⟩ := exactly copy.flattened gives renewal
  have stale : copy.flattened.isCurrent (store.after renewal).registry = false :=
    Bool.eq_false_iff.mpr fun current => touched (renewed.mp current)
  have kept := ((again 4 "leaf" copy resolved).2 elsewhere 1 uncleared).1.mpr untouched
  exact ⟨gives, resolved, flat, uncleared, untouched, kept,
    same 4 "leaf" copy.flattened flat elsewhere untouched, stale, forEver elsewhere stale⟩

end Store

end Stencil
