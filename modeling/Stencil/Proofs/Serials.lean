import Mathlib.Logic.Relator
import Mathlib.Order.Basic
import Stencil.Proofs.Depth
import Stencil.Proofs.Invalidation

/-!
# Telling copies apart

Serial numbers tell copies apart and serve no other purpose. Two engines that differ only in what
their caches hold hand out copies with different numbers, so their replies are compared by tying
the numbers of one to those of the other, one to one. All that can be seen of the numbers is which
of them are equal, and of that the ties leave nothing out.

A cache may get ahead of the other: a rendering keeps copies that nobody has been given. Such a copy
has a number that is not tied, and it is tied to its counterpart when both are handed out. What
carries this through a run is that under every name the copies of the two caches are tied, or none
of them has been handed out.
-/

namespace Stencil

/-- What was current later, and met nothing that was yet to come, was current before. The entries of
its lineage carry generations that the earlier registry has issued, so they were there already. -/
theorem Flattened.current_earlier {registry later : Registry} {flattened : Flattened}
    (isLater : registry.Later later)
    (dated : ∀ member generation, (member, generation) ∈ flattened.lineage →
      generation ≤ registry.changes)
    (current : flattened.isCurrent later = true) : flattened.isCurrent registry = true := by
  apply current_iff.mpr
  intro member generation held
  have found := current_iff.mp current member generation held
  rwa [Registry.generation?, current_later isLater dated current held] at found

namespace Cache

/-- A copy is kept under a name and is current. A copy that has gone out of date is not handed out
again, so its number does not matter. -/
def Holds (cache : Cache) (registry : Registry) (name : String) (copy : Copy) : Prop :=
  cache.copies.get? name = some copy ∧ copy.flattened.isCurrent registry = true

/-- What holds of the copies in a cache at any time. It needs no second cache, and is kept by
everything that an engine does. -/
structure Orderly (registry : Registry) (cache : Cache) : Prop where
  /-- No kept copy was made from an entry that is yet to come. -/
  dated : ∀ name copy, cache.copies.get? name = some copy →
    ∀ member generation, (member, generation) ∈ copy.flattened.lineage →
      generation ≤ registry.changes
  numbered : cache.Numbered
  /-- Copies under different names have different numbers. -/
  distinct : ∀ name other copy found, cache.copies.get? name = some copy →
    cache.copies.get? other = some found → copy.serial = found.serial → name = other

/-- All that asking for a template can do to a cache: nothing, or count a copy that is not kept, or
put a new copy in a place where none is current. What is kept by these three is kept by rendering as
well, which does nothing else to a cache. -/
inductive Next (registry : Registry) (cache : Cache) : Cache → Prop
  | same : Next registry cache cache
  | counted : Next registry cache { cache with issued := cache.issued + 1 }
  | renewed {limit : Nat} {name : String} {flattened : Flattened}
      (stale : ∀ copy, cache.copies.get? name = some copy →
        copy.flattened.isCurrent registry = false)
      (made : Flattened.ofLeaf registry limit name = .ok flattened) :
      Next registry cache
        ⟨cache.copies.insert name ⟨cache.issued + 1, flattened⟩, cache.issued + 1⟩

/-- No current copy under a name has a number of a certain kind. It is used for numbers that have
been handed out. -/
def Spares (cache : Cache) (registry : Registry) (kind : Nat → Prop) (name : String) : Prop :=
  ∀ copy, cache.Holds registry name copy → ¬kind copy.serial

/-- Two caches hold copies under a name that are tied and have the same content. The numbers of the
two may differ, and the tie says which belong together. -/
def Shares (registry : Registry) (tie : Nat → Nat → Prop) (first second : Cache)
    (name : String) : Prop :=
  ∃ copy other, first.Holds registry name copy ∧ second.Holds registry name other ∧
    tie copy.serial other.serial ∧ copy.flattened = other.flattened

/-- The numbers of two caches are tied one to one. Under every name they share a copy, or neither
has a copy whose number is tied. The second case is that of a cache that has got ahead: what it
holds there has been given to nobody. -/
structure Tied (registry : Registry) (tie : Nat → Nat → Prop) (first second : Cache) : Prop where
  oneToOne : Relator.BiUnique tie
  issued : ∀ serial other, tie serial other → serial ≤ first.issued ∧ other ≤ second.issued
  firstOrderly : first.Orderly registry
  secondOrderly : second.Orderly registry
  held : ∀ name, Shares registry tie first second name ∨
    first.Spares registry (fun serial => ∃ other, tie serial other) name ∧
      second.Spares registry (fun other => ∃ serial, tie serial other) name

/-- Two more numbers that are tied, besides those that are tied already. It is what two caches come
to that make a new copy at once. -/
def tieUp (tie : Nat → Nat → Prop) (serial other : Nat) : Nat → Nat → Prop :=
  fun m n => tie m n ∨ m = serial ∧ n = other

section Single

variable {registry reached : Registry} {cache after : Cache}

/-- An empty cache is in order, for whatever registry. All three conditions are about copies that
are kept, of which there are none. -/
theorem orderly_empty (registry : Registry) : Orderly registry empty where
  dated := by
    intro name copy kept
    cases kept
  numbered := by
    intro name copy kept
    cases kept
  distinct := by
    intro name other copy found kept
    cases kept

/-- A copy that is held at a later time is held before. It was current before, since it was not made
from anything that came later. -/
theorem Orderly.holds_earlier (orderly : cache.Orderly registry) (isLater : registry.Later reached)
    {name : String} {copy : Copy} (holds : cache.Holds reached name copy) :
    cache.Holds registry name copy :=
  ⟨holds.1, Flattened.current_earlier isLater (orderly.dated name copy holds.1) holds.2⟩

/-- A cache stays in order as time goes on: generations only become more. -/
theorem Orderly.later (orderly : cache.Orderly registry) (isLater : registry.Later reached) :
    cache.Orderly reached where
  dated := by
    intro name copy kept member generation held
    exact Nat.le_trans (orderly.dated name copy kept member generation held) isLater.counted
  numbered := orderly.numbered
  distinct := orderly.distinct

/-- A cache stays in order when it is asked: a new copy gets a number that none has had. It was made
from entries that are there now, so it is dated as well. -/
theorem Orderly.next (consistent : registry.Consistent) (orderly : cache.Orderly registry)
    (next : cache.Next registry after) : after.Orderly registry := by
  cases next with
  | same => exact orderly
  | counted =>
    refine ⟨orderly.dated, ?_, orderly.distinct⟩
    intro name copy kept
    exact Nat.le_succ_of_le (orderly.numbered name copy kept)
  | @renewed limit name flattened stale made =>
    have kept (sought : String) :
        Dict.get? (Dict.insert cache.copies name ⟨cache.issued + 1, flattened⟩) sought =
          if name = sought then some ⟨cache.issued + 1, flattened⟩
          else Dict.get? cache.copies sought :=
      Dict.get?_insert cache.copies name sought _
    have fresh {sought : String} {copy : Copy} (found : cache.copies.get? sought = some copy) :
        copy.serial < cache.issued + 1 := Nat.lt_succ_of_le (orderly.numbered sought copy found)
    refine ⟨?_, ?_, ?_⟩
    · intro sought copy found
      rw [kept] at found
      split at found
      · obtain rfl := Option.some.inj found
        exact Flattened.ofLeaf_dated consistent made
      · exact orderly.dated sought copy found
    · intro sought copy found
      rw [kept] at found
      split at found
      · obtain rfl := Option.some.inj found
        exact Nat.le_refl _
      · exact Nat.le_of_lt (fresh found)
    -- Two names hold the new copy only if they are one name; older copies have smaller numbers.
    · intro sought other copy found foundHere foundThere equal
      rw [kept] at foundHere foundThere
      split at foundHere <;> split at foundThere
      · next here there => exact here.symm.trans there
      · obtain rfl := Option.some.inj foundHere
        have less := fresh foundThere
        simp only at equal
        omega
      · obtain rfl := Option.some.inj foundThere
        have less := fresh foundHere
        simp only at equal
        omega
      · exact orderly.distinct sought other copy found foundHere foundThere equal

end Single

section Pair

variable {registry : Registry} {tie : Nat → Nat → Prop} {first second after : Cache}

/-- A cache is tied to itself by what it has issued so far. Every copy that it holds has such a
number, so under every name it shares with itself whatever it holds. -/
theorem tied_self (orderly : first.Orderly registry) :
    Tied registry (fun serial other => serial = other ∧ serial ≤ first.issued) first first where
  oneToOne := by
    constructor
    · rintro serial other number ⟨rfl, _⟩ ⟨rfl, _⟩
      rfl
    · rintro serial other number ⟨rfl, _⟩ ⟨rfl, _⟩
      rfl
  issued := by
    rintro serial other ⟨rfl, bound⟩
    exact ⟨bound, bound⟩
  firstOrderly := orderly
  secondOrderly := orderly
  held := by
    intro name
    by_cases holds : ∃ copy, first.Holds registry name copy
    · obtain ⟨copy, holds⟩ := holds
      left
      exact ⟨copy, copy, holds, holds, ⟨rfl, orderly.numbered name copy holds.1⟩, rfl⟩
    · right
      constructor
      · intro copy held
        exact absurd ⟨copy, held⟩ holds
      · intro copy held
        exact absurd ⟨copy, held⟩ holds

/-- Ties read from the other side. What is shown for the first of two caches is so shown for the
second. -/
theorem Tied.symm (tied : Tied registry tie first second) :
    Tied registry (flip tie) second first where
  oneToOne := ⟨fun _ _ _ left right => tied.oneToOne.2 left right,
    fun _ _ _ left right => tied.oneToOne.1 left right⟩
  issued := fun serial other tie => (tied.issued other serial tie).symm
  firstOrderly := tied.secondOrderly
  secondOrderly := tied.firstOrderly
  held := by
    intro name
    rcases tied.held name with ⟨copy, other, here, there, numbers, content⟩ | ⟨here, there⟩
    · exact .inl ⟨other, copy, there, here, numbers, content.symm⟩
    · exact .inr ⟨there, here⟩

/-- Ties outlast changes of the registry: copies of the same content go out of date together. Copies
that are not tied may go out of date on their own. What is out of date does not come back, so no
untied copy turns up. -/
theorem Tied.later (tied : Tied registry tie first second) {later : Registry}
    (isLater : registry.Later later) : Tied later tie first second where
  oneToOne := tied.oneToOne
  issued := tied.issued
  firstOrderly := tied.firstOrderly.later isLater
  secondOrderly := tied.secondOrderly.later isLater
  held := by
    intro name
    rcases tied.held name with ⟨copy, other, here, there, numbers, content⟩ | ⟨here, there⟩
    · by_cases current : copy.flattened.isCurrent later = true
      · left
        exact ⟨copy, other, ⟨here.1, current⟩, ⟨there.1, content ▸ current⟩, numbers, content⟩
      · right
        constructor
        · intro held holds
          obtain rfl : held = copy := Option.some.inj (holds.1.symm.trans here.1)
          exact absurd holds.2 current
        · intro held holds
          obtain rfl : held = other := Option.some.inj (holds.1.symm.trans there.1)
          exact absurd (content ▸ holds.2) current
    · right
      constructor
      · intro copy holds
        exact here copy (tied.firstOrderly.holds_earlier isLater holds)
      · intro copy holds
        exact there copy (tied.secondOrderly.holds_earlier isLater holds)

/-- One of two caches may be asked on its own: what it makes has a number that is not tied. Where it
makes something none was current, so under that name nothing had been shared. -/
theorem Tied.next (consistent : registry.Consistent) (tied : Tied registry tie first second)
    (next : first.Next registry after) : Tied registry tie after second := by
  have orderly := tied.firstOrderly.next consistent next
  cases next with
  | same => exact tied
  | counted =>
    refine ⟨tied.oneToOne, ?_, orderly, tied.secondOrderly, tied.held⟩
    intro serial other numbers
    obtain ⟨here, there⟩ := tied.issued serial other numbers
    exact ⟨Nat.le_succ_of_le here, there⟩
  | @renewed limit name flattened stale made =>
    refine ⟨tied.oneToOne, ?_, orderly, tied.secondOrderly, ?_⟩
    · intro serial other numbers
      obtain ⟨here, there⟩ := tied.issued serial other numbers
      exact ⟨Nat.le_succ_of_le here, there⟩
    · intro sought
      by_cases same : name = sought
      · -- Nothing was current under this name, so nothing was shared.
        subst same
        rcases tied.held name with ⟨copy, other, here, -⟩ | ⟨-, there⟩
        · have outdated := stale copy here.1
          rw [here.2] at outdated
          cases outdated
        · right
          refine ⟨?_, there⟩
          rintro copy ⟨found, -⟩ ⟨other, numbers⟩
          rw [Dict.get?_insert, if_pos rfl] at found
          obtain rfl := Option.some.inj found
          have bound := (tied.issued _ _ numbers).1
          simp only at bound
          omega
      · have elsewhere (copy : Copy) :
            Holds ⟨first.copies.insert name ⟨first.issued + 1, flattened⟩, first.issued + 1⟩
              registry sought copy ↔ first.Holds registry sought copy := by
          rw [Holds, Dict.get?_insert, if_neg same, Holds]
        simpa only [Shares, Spares, elsewhere] using tied.held sought

/-- Two numbers that are not tied yet can be tied to each other, if they are the numbers of copies
under one name that have the same content, or of copies that are not kept. The premise `held` covers
both, name by name. -/
theorem Tied.extend (tied : Tied registry tie first second) {serial other : Nat}
    (issued : serial ≤ first.issued ∧ other ≤ second.issued)
    (free : (∀ number, ¬tie serial number) ∧ ∀ number, ¬tie number other)
    (held : ∀ name, Shares registry (fun m n => m = serial ∧ n = other) first second name ∨
      first.Spares registry (· = serial) name ∧ second.Spares registry (· = other) name) :
    Tied registry (tieUp tie serial other) first second where
  oneToOne := by
    constructor
    · rintro one two number (numbers | ⟨rfl, rfl⟩) (others | ⟨rfl, same⟩)
      · exact tied.oneToOne.1 numbers others
      · exact absurd numbers (same ▸ free.2 one)
      · exact absurd others (free.2 two)
      · rfl
    · rintro number one two (numbers | ⟨rfl, rfl⟩) (others | ⟨same, rfl⟩)
      · exact tied.oneToOne.2 numbers others
      · exact absurd numbers (same ▸ free.1 one)
      · exact absurd others (free.1 two)
      · rfl
  issued := by
    rintro one two (numbers | ⟨rfl, rfl⟩)
    · exact tied.issued one two numbers
    · exact issued
  firstOrderly := tied.firstOrderly
  secondOrderly := tied.secondOrderly
  held := by
    intro name
    rcases held name with ⟨copy, found, here, there, numbers, content⟩ | ⟨spared, sparedThere⟩
    · exact .inl ⟨copy, found, here, there, .inr numbers, content⟩
    -- Shared before, the copies are tied by another pair of numbers; else neither number is theirs.
    · rcases tied.held name with ⟨copy, found, here, there, numbers, content⟩ | ⟨here, there⟩
      · exact .inl ⟨copy, found, here, there, .inl numbers, content⟩
      · right
        constructor
        · rintro copy holds ⟨number, numbers | ⟨same, -⟩⟩
          · exact here copy holds ⟨number, numbers⟩
          · exact spared copy holds same
        · rintro copy holds ⟨number, numbers | ⟨-, same⟩⟩
          · exact there copy holds ⟨number, numbers⟩
          · exact sparedThere copy holds same

/-- Copies of the same content that both caches hand out under a name get tied, unless they are. If
one of them is tied, so is the other, and to each other, since under that name they share a copy. -/
theorem Tied.handed (tied : Tied registry tie first second) {name : String} {copy other : Copy}
    (holds : first.Holds registry name copy) (holdsOther : second.Holds registry name other)
    (content : copy.flattened = other.flattened) :
    ∃ wider, tie ≤ wider ∧ Tied registry wider first second ∧ wider copy.serial other.serial := by
  rcases tied.held name with ⟨found, foundOther, here, there, numbers, -⟩ | ⟨here, there⟩
  · obtain rfl : found = copy := Option.some.inj (here.1.symm.trans holds.1)
    obtain rfl : foundOther = other := Option.some.inj (there.1.symm.trans holdsOther.1)
    exact ⟨tie, le_rfl, tied, numbers⟩
  · refine ⟨tieUp tie copy.serial other.serial, fun _ _ => .inl, ?_, .inr ⟨rfl, rfl⟩⟩
    apply tied.extend
    · exact ⟨tied.firstOrderly.numbered name copy holds.1,
        tied.secondOrderly.numbered name other holdsOther.1⟩
    · exact ⟨fun number numbers => here copy holds ⟨number, numbers⟩,
        fun number numbers => there other holdsOther ⟨number, numbers⟩⟩
    · intro sought
      by_cases same : sought = name
      · left
        subst same
        exact ⟨copy, other, holds, holdsOther, ⟨rfl, rfl⟩, content⟩
      · right
        constructor
        · intro found held equal
          exact same (tied.firstOrderly.distinct sought name found copy held.1 holds.1 equal)
        · intro found held equal
          exact same
            (tied.secondOrderly.distinct sought name found other held.1 holdsOther.1 equal)

/-- Copies that both caches count but do not keep get tied. Their numbers are new on both sides, and
no name holds them. Both caches are counted on first, one after the other. -/
theorem Tied.counted (consistent : registry.Consistent) (tied : Tied registry tie first second) :
    Tied registry (tieUp tie (first.issued + 1) (second.issued + 1))
      { first with issued := first.issued + 1 } { second with issued := second.issued + 1 } := by
  have ahead : Tied registry tie { first with issued := first.issued + 1 }
      { second with issued := second.issued + 1 } :=
    ((tied.next consistent .counted).symm.next consistent .counted).symm
  apply ahead.extend
  · exact ⟨Nat.le_refl _, Nat.le_refl _⟩
  · constructor
    · intro number numbers
      have bound := (tied.issued _ _ numbers).1
      omega
    · intro number numbers
      have bound := (tied.issued _ _ numbers).2
      omega
  · intro name
    right
    constructor
    · intro copy holds same
      have bound := tied.firstOrderly.numbered name copy holds.1
      omega
    · intro copy holds same
      have bound := tied.secondOrderly.numbered name copy holds.1
      omega

end Pair

end Cache

/-- Two replies have the same content, and their copies, if there are any, have numbers that are
tied. This is all that can be compared of replies from two engines. -/
structure Reply.Alike (tie : Nat → Nat → Prop) (reply other : Reply) : Prop where
  content : reply.content = other.content
  numbers : ∀ copy found, reply = .resolved (.ok copy) → other = .resolved (.ok found) →
    tie copy.serial found.serial

namespace Engine

variable {engine first second : Engine} {tie : Nat → Nat → Prop}

/-- Asked for a template, an engine asks its cache or has a copy counted. Which of them it does is a
setting, and what comes of a failure is the same: nothing. -/
theorem next_obtain (settings : Settings) (registry : Registry) (name : String) (cache : Cache) :
    cache.Next registry (obtain settings registry name cache).2 := by
  unfold obtain
  split
  · have fetched := Cache.fetched registry settings.maxDepth name cache
    generalize (cache.fetch registry settings.maxDepth name).1 = outcome at fetched
    generalize (cache.fetch registry settings.maxDepth name).2 = after at fetched ⊢
    cases fetched with
    | kept found current => exact .same
    | failed stale failed => exact .same
    | renewed stale made => exact .renewed stale made
  · unfold Cache.issue
    cases Flattened.ofLeaf registry settings.maxDepth name with
    | error fault => exact .same
    | ok flattened => exact .counted

/-- A rendering changes the cache by asking for templates, and in no other way. So a property that
asking keeps is kept by a rendering, however deep templates are embedded in it. -/
theorem render_cache (Invariant : Cache → Prop) (sound : engine.Sound)
    (asked : ∀ cache after, Invariant cache → cache.Next engine.registry after → Invariant after)
    (start : Invariant engine.cache) (name : String) (bindings : Layer) :
    Invariant (engine.render name bindings).2.cache := by
  have resolved : Invariant (engine.resolve name).2.cache := asked _ _ start (next_obtain _ _ _ _)
  obtain ⟨-, cache, resolvedCache, stillSound⟩ := resolve_answers sound name
  have answers : (shelf engine.settings engine.registry).Answers
      (fun cache => (engine.settings.cacheResolved = true →
        cache.Sound engine.registry engine.settings.maxDepth) ∧ Invariant cache)
      (library engine.settings engine.registry) := by
    rintro sought cache ⟨soundCache, holds⟩
    obtain ⟨same, stays⟩ := shelf_answers sound.consistent sought cache soundCache
    exact ⟨same, stays, asked cache _ holds (next_obtain _ _ _ _)⟩
  unfold render
  cases outcome : engine.resolve name with
  | mk result found =>
    rw [outcome] at resolved resolvedCache
    obtain rfl : found = { engine with cache } := resolvedCache
    cases result with
    | error fault => exact resolved
    | ok copy =>
      cases assembled : Scope.assemble engine.providers bindings with
      | error fault =>
        simp only [assembled]
        exact resolved
      | ok scope =>
        obtain ⟨state, ⟨-, holds⟩, ran⟩ := Rendering.render_wording answers
          engine.settings.maxDepth engine.settings.autoescape copy.flattened.nodes
          ⟨scope, [], cache⟩ ⟨stillSound.cached, resolved⟩
        simp only [assembled, ran]
        exact holds

/-- So does every request. Most requests leave the cache alone, and the others resolve or render.
The invariant is any that outlasts being asked, so that it may be about a second cache as well. -/
theorem perform_cache (Invariant : Cache → Prop) (sound : engine.Sound)
    (asked : ∀ cache after, Invariant cache → cache.Next engine.registry after → Invariant after)
    (start : Invariant engine.cache) (request : Request) :
    Invariant (engine.perform request).2.cache := by
  by_cases resolves : request.Resolves
  · cases request with
    | resolve name => exact asked _ _ start (next_obtain _ _ _ _)
    | render name bindings => exact render_cache Invariant sound asked start name bindings
    | renderValue name value =>
      simp only [perform, renderValue]
      cases Layer.ofValue value with
      | error fault => exact start
      | ok bindings => exact render_cache Invariant sound asked start name bindings
    | _ => exact resolves.elim
  · have frame := perform_frame engine resolves engine.settings engine.cache rfl
    have kept : (engine.perform request).2.cache = engine.cache :=
      congrArg (fun answer => answer.2.cache) frame
    rw [kept]
    exact start

/-- A request changes the registry by insertions and removals alone. Loading a directory is a number
of insertions, and a request that is refused makes none. -/
theorem perform_reaches (sound : engine.Sound) (request : Request) :
    engine.registry.Reaches (engine.perform request).2.registry := by
  by_cases resolves : request.Resolves
  · obtain ⟨cache, performed⟩ := perform_cached sound resolves
    rw [performed]
    exact .refl
  · cases request with
    | register name source =>
      simp only [perform, register]
      cases registered : engine.registry.register name source with
      | error refusal => exact .refl
      | ok changed => exact Registry.reaches_register registered
    | insert name trim source =>
      simp only [perform]
      cases read : Template.ofSource name trim source with
      | error refusal => exact .refl
      | ok template => exact Registry.Reaches.refl.insert read
    | remove name => exact Registry.Reaches.refl.remove name
    | load root => exact Registry.reaches_load _ root _
    | addGlobal name value => exact .refl
    | addProvider provider => exact .refl
    | supply position supplied => exact .refl
    | _ => exact absurd trivial resolves

/-- Copies are handed out to those who ask for them, and no other request is replied to with one.
Rendering uses a copy, but replies with a text. -/
theorem resolve_of_reply {request : Request} {outcome : Except Fault Copy}
    (replied : (engine.perform request).1 = .resolved outcome) :
    ∃ name, request = .resolve name := by
  cases request with
  | resolve name => exact ⟨name, rfl⟩
  | register name source =>
    simp only [perform] at replied
    split at replied <;> cases replied
  | insert name trim source =>
    simp only [perform] at replied
    split at replied <;> cases replied
  | _ => cases replied

/-- The cache of an engine stays in order. Being in order is kept by asking, and it outlasts what a
request does to the registry. -/
theorem orderly_perform (sound : engine.Sound) (orderly : engine.cache.Orderly engine.registry)
    (request : Request) :
    (engine.perform request).2.cache.Orderly (engine.perform request).2.registry := by
  apply Cache.Orderly.later _ (Registry.later_of_reaches (perform_reaches sound request))
  exact perform_cache _ sound (fun _ _ orderly next => orderly.next sound.consistent next) orderly
    request

/-- So it does after requests one behind the other. -/
theorem orderly_after (sound : engine.Sound) (orderly : engine.cache.Orderly engine.registry)
    (requests : List Request) :
    (engine.after requests).cache.Orderly (engine.after requests).registry := by
  induction requests generalizing engine with
  | nil => exact orderly
  | cons request rest inductionHypothesis =>
    exact inductionHypothesis (sound_perform sound request) (orderly_perform sound orderly request)

section Obtaining

variable {settings : Settings} {registry : Registry} {here there : Cache} {name : String}

/-- What a cache in use hands out is held by it: it was current before, or is new. -/
theorem holds_obtained (uses : settings.cacheResolved = true) (consistent : registry.Consistent)
    {copy : Copy} (handed : (obtain settings registry name here).1 = .ok copy) :
    (obtain settings registry name here).2.Holds registry name copy := by
  have fetched := Cache.fetched registry settings.maxDepth name here
  rw [obtain, uses, if_pos rfl] at handed ⊢
  rw [handed] at fetched
  exact (Cache.handed_fetched consistent fetched).symm

/-- Two copies of the same content that two caches give under a name. That the contents are the same
follows from soundness, and is a part of the definition so that ties need not speak of it. -/
def GivesSame (settings : Settings) (registry : Registry) (name : String) (here there : Cache)
    (copy other : Copy) : Prop :=
  (obtain settings registry name here).1 = .ok copy ∧
    (obtain settings registry name there).1 = .ok other ∧ copy.flattened = other.flattened

/-- Asked for a template, two caches are tied as before, and what they give is tied as well. More
may be tied afterwards, and nothing is untied. -/
def TiesGiven (settings : Settings) (registry : Registry) (name : String) (tie : Nat → Nat → Prop)
    (here there : Cache) : Prop :=
  ∃ wider, tie ≤ wider ∧
    Cache.Tied registry wider (obtain settings registry name here).2
      (obtain settings registry name there).2 ∧
    ∀ copy other, GivesSame settings registry name here there copy other →
      wider copy.serial other.serial

/-- Caches in use hold what they give, and that can be tied. Each of the two is asked on its own
first, and then the copies are tied. If one of them gives nothing, or they give different contents,
nothing has to be tied. -/
theorem tied_kept (uses : settings.cacheResolved = true) (consistent : registry.Consistent)
    (tied : Cache.Tied registry tie here there) :
    TiesGiven settings registry name tie here there := by
  have asked : Cache.Tied registry tie (obtain settings registry name here).2
      (obtain settings registry name there).2 :=
    ((tied.next consistent (next_obtain settings registry name here)).symm.next consistent
      (next_obtain settings registry name there)).symm
  by_cases given : ∃ copy other, GivesSame settings registry name here there copy other
  · obtain ⟨copy, other, handed, handedThere, content⟩ := given
    obtain ⟨wider, wide, stillTied, numbers⟩ :=
      asked.handed (holds_obtained uses consistent handed)
        (holds_obtained uses consistent handedThere) content
    refine ⟨wider, wide, stillTied, ?_⟩
    rintro found foundOther ⟨gave, gaveOther, -⟩
    obtain rfl : copy = found := Except.ok.inj (handed.symm.trans gave)
    obtain rfl : other = foundOther := Except.ok.inj (handedThere.symm.trans gaveOther)
    exact numbers
  · refine ⟨tie, le_rfl, asked, ?_⟩
    intro copy other gives
    exact absurd ⟨copy, other, gives⟩ given

/-- Where nothing is kept both counts go up, and the new numbers can be tied, or neither does. Which
of them it is depends on the registry alone, so it is the same for both. -/
theorem tied_counted (unused : settings.cacheResolved = false) (consistent : registry.Consistent)
    (tied : Cache.Tied registry tie here there) :
    TiesGiven settings registry name tie here there := by
  simp only [TiesGiven, GivesSame, obtain, unused, Cache.issue]
  cases Flattened.ofLeaf registry settings.maxDepth name with
  | error fault =>
    refine ⟨tie, le_rfl, tied, ?_⟩
    rintro copy other ⟨handed, -⟩
    cases handed
  | ok flattened =>
    refine ⟨_, ?_, tied.counted consistent, ?_⟩
    · exact fun _ _ => .inl
    · rintro copy other ⟨handed, handedThere, -⟩
      obtain rfl := Except.ok.inj handed
      obtain rfl := Except.ok.inj handedThere
      exact .inr ⟨rfl, rfl⟩

end Obtaining

/-- Engines that differ in nothing but what is in their caches, with the numbers of their copies
tied. -/
structure Twins (tie : Nat → Nat → Prop) (first second : Engine) : Prop where
  inStep : InStep first second
  settings : first.settings = second.settings
  tied : Cache.Tied first.registry tie first.cache second.cache

/-- What twins hand out when they are asked for a template gets tied. With the cache in use the
copies are held, and without it they are only counted. Twins have the same templates, so they hand
out the same content. -/
theorem Twins.resolve (twins : Twins tie first second) (name : String) :
    ∃ wider, tie ≤ wider ∧ Twins wider (first.resolve name).2 (second.resolve name).2 ∧
      ∀ copy other, (first.resolve name).1 = .ok copy → (second.resolve name).1 = .ok other →
        wider copy.serial other.serial := by
  obtain ⟨content, inStep⟩ := twins.inStep.resolve name
  have consistent := twins.inStep.firstSound.consistent
  obtain ⟨wider, wide, tied, numbers⟩ :
      TiesGiven first.settings first.registry name tie first.cache second.cache := by
    cases uses : first.settings.cacheResolved with
    | true => exact tied_kept uses consistent twins.tied
    | false => exact tied_counted uses consistent twins.tied
  have same : second.resolve name = ((obtain first.settings first.registry name second.cache).1,
      { second with cache := (obtain first.settings first.registry name second.cache).2 }) := by
    rw [Engine.resolve, ← twins.settings, ← twins.inStep.registry]
  refine ⟨wider, wide, ⟨inStep, twins.settings, ?_⟩, ?_⟩
  · rw [same]
    exact tied
  · intro copy other handed handedThere
    have equal : copy.flattened = other.flattened := by
      rw [handed, handedThere] at content
      exact Except.ok.inj content
    rw [same] at handedThere
    exact numbers copy other ⟨handed, handedThere, equal⟩

/-- Twins reply to a request alike and stay twins. Rendering may ask the two caches for different
templates, which ties allow: each cache is asked on its own, and only a copy that is handed out has
to be tied. -/
theorem Twins.perform (twins : Twins tie first second) (request : Request) :
    ∃ wider, tie ≤ wider ∧
      Reply.Alike wider (first.perform request).1 (second.perform request).1 ∧
      Twins wider (first.perform request).2 (second.perform request).2 := by
  obtain ⟨content, inStep⟩ := perform_in_step twins.inStep request
  by_cases asks : ∃ name, request = .resolve name
  · obtain ⟨name, rfl⟩ := asks
    obtain ⟨wider, wide, stillTwins, numbers⟩ := twins.resolve name
    refine ⟨wider, wide, ⟨content, ?_⟩, stillTwins⟩
    intro copy found replied repliedThere
    exact numbers copy found (Reply.resolved.inj replied) (Reply.resolved.inj repliedThere)
  · refine ⟨tie, le_rfl, ⟨content, ?_⟩, inStep, ?_, ?_⟩
    · intro copy found replied
      exact absurd (resolve_of_reply replied) asks
    · rw [perform_settings, perform_settings, twins.settings]
    · -- Each cache is asked on its own, before the registry changes.
      have consistent := twins.inStep.firstSound.consistent
      have firstAsked := perform_cache
        (fun cache => Cache.Tied first.registry tie cache second.cache) twins.inStep.firstSound
        (fun _ _ tied next => tied.next consistent next) twins.tied request
      have bothAsked := perform_cache
        (fun cache => Cache.Tied first.registry tie (first.perform request).2.cache cache)
        twins.inStep.secondSound
        (fun _ _ tied next =>
          (tied.symm.next consistent (twins.inStep.registry ▸ next)).symm) firstAsked request
      exact bothAsked.later
        (Registry.later_of_reaches (perform_reaches twins.inStep.firstSound request))

/-- Twins reply to any requests alike. The ties grow from one request to the next, so in the end one
relation serves all replies. -/
theorem Twins.replies (twins : Twins tie first second) (requests : List Request) :
    ∃ wider, tie ≤ wider ∧ Relator.BiUnique wider ∧
      List.Forall₂ (Reply.Alike wider) (first.replies requests) (second.replies requests) := by
  induction requests generalizing tie first second with
  | nil => exact ⟨tie, le_rfl, twins.tied.oneToOne, .nil⟩
  | cons request rest inductionHypothesis =>
    obtain ⟨wider, wide, alike, stillTwins⟩ := twins.perform request
    obtain ⟨widest, wideBehind, oneToOne, later⟩ := inductionHypothesis stillTwins
    refine ⟨widest, wide.trans wideBehind, oneToOne, .cons ⟨alike.content, ?_⟩ later⟩
    intro copy found replied repliedThere
    exact wideBehind _ _ (alike.numbers copy found replied repliedThere)

/-- A rendering leaves behind a twin of the engine, with all the numbers that it had issued. The
cache is tied to itself, and the rendering asks one side only. -/
theorem twins_render (sound : engine.Sound) (orderly : engine.cache.Orderly engine.registry)
    (name : String) (bindings : Layer) :
    Twins (fun serial other => serial = other ∧ serial ≤ engine.cache.issued) engine
      (engine.render name bindings).2 := by
  obtain ⟨-, cache, rendered, stillSound⟩ := render_answers sound name bindings
  have tied := render_cache
    (fun cache => Cache.Tied engine.registry _ engine.cache cache) sound
    (fun _ _ tied next => (tied.symm.next sound.consistent next).symm) (Cache.tied_self orderly)
    name bindings
  rw [rendered] at tied ⊢
  exact ⟨⟨rfl, rfl, rfl, sound, stillSound⟩, rfl, tied⟩

end Engine

end Stencil
