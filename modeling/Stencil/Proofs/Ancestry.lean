import Mathlib.Data.List.Basic
import Mathlib.Order.Bounds.Basic
import Stencil.Lineage

/-!
# How far up a lineage goes

The names above a leaf are told by the registry alone: each is that of the parent of the one
before, as long as that one is registered and has a parent. Three things can end the walk along
them. A name comes that is one too many, either because it came before or because the limit is
reached; a name comes that nothing is registered under; or a template without a parent comes. Which
of them comes first decides what the walk gives, and of two that come at one name it is the first
that counts.
-/

namespace Stencil

namespace Registry

variable (registry : Registry) (leaf : String)

/-- The parent of the template under a name, if there is such a template and it has one. The two
ways of having none are told apart only where the way up ends. -/
def parent? (name : String) : Option String :=
  (registry.entry? name).bind (·.template.parent?)

/-- The name that is so many parents above a leaf; there is none where the way up ends before. The
limit plays no part in it. -/
def ancestor? : Nat → Option String
  | 0 => some leaf
  | height + 1 => (ancestor? height).bind registry.parent?

/-- The names from a leaf up to the given height, both included. A height without an ancestor has
`none`, so the list always has one entry more than the height. -/
def ancestors (height : Nat) : List (Option String) :=
  (List.range (height + 1)).map (registry.ancestor? leaf)

/-- The name at this height came before, or the limit is reached with those below it. Both are
reported in one way. -/
def Overlong (limit height : Nat) : Prop :=
  ∃ name, registry.ancestor? leaf height = some name ∧
    ((∃ lower < height, registry.ancestor? leaf lower = some name) ∨ limit ≤ height)

/-- Nothing is registered under the name at this height. There is such a name: it is the leaf, or a
template that is registered below names it as its parent. -/
def Missing (height : Nat) : Prop :=
  ∃ name, registry.ancestor? leaf height = some name ∧ registry.entry? name = none

/-- The template at this height has no parent. It is registered, and its nodes are those that the
blocks of the templates below it are put into. -/
def Rooted (height : Nat) : Prop :=
  ∃ name entry, registry.ancestor? leaf height = some name ∧ registry.entry? name = some entry ∧
    entry.template.parent? = none

variable {registry leaf}

/-- The way up goes through every height below one that it reaches. So a name at some height speaks
for all that are lower. -/
theorem ancestor_below {low height : Nat} (below : low ≤ height) {name : String}
    (reached : registry.ancestor? leaf height = some name) :
    ∃ lower, registry.ancestor? leaf low = some lower := by
  induction height generalizing name with
  | zero =>
    obtain rfl : low = 0 := Nat.le_zero.mp below
    exact ⟨name, reached⟩
  | succ height inductionHypothesis =>
    rcases Nat.le_succ_iff.mp below with lower | rfl
    · obtain ⟨before, reachedBefore, -⟩ := Option.bind_eq_some_iff.mp reached
      exact inductionHypothesis lower reachedBefore
    · exact ⟨name, reached⟩

/-- The way up ends at a root. -/
theorem ancestor_above_root {height : Nat} (rooted : registry.Rooted leaf height) :
    registry.ancestor? leaf (height + 1) = none := by
  obtain ⟨name, entry, reached, kept, ends⟩ := rooted
  rw [ancestor?, reached, Option.bind_some, parent?, kept, Option.bind_some, ends]

/-- It has one root only, for behind a root the way up does not go on. Neither of two roots can be
above the other, since the higher one would not be reached. -/
theorem rooted_unique {height other : Nat} (rooted : registry.Rooted leaf height)
    (otherRooted : registry.Rooted leaf other) : height = other := by
  have notBelow {low high : Nat} (ends : registry.Rooted leaf low)
      (reached : registry.Rooted leaf high) : high ≤ low := by
    by_contra above
    obtain ⟨name, -, found, -⟩ := reached
    obtain ⟨lower, goesOn⟩ := ancestor_below (Nat.lt_of_not_le above) found
    rw [Nat.succ_eq_add_one, ancestor_above_root ends] at goesOn
    cases goesOn
  exact Nat.le_antisymm (notBelow otherRooted rooted) (notBelow rooted otherRooted)

/-- Nothing is missing on the way to it: each name up to the root is that of a template. A missing
name has nothing above it, and it cannot be the root itself. -/
theorem not_missing_below_root {height root : Nat} (rooted : registry.Rooted leaf root)
    (within : height ≤ root) : ¬registry.Missing leaf height := by
  rintro ⟨name, reached, absent⟩
  have ends : registry.ancestor? leaf (height + 1) = none := by
    rw [ancestor?, reached, Option.bind_some, parent?, absent, Option.bind_none]
  obtain ⟨top, entry, found, kept, -⟩ := rooted
  rcases Nat.eq_or_lt_of_le within with rfl | above
  · obtain rfl : name = top := Option.some.inj (reached.symm.trans found)
    cases absent.symm.trans kept
  · obtain ⟨lower, goesOn⟩ := ancestor_below above found
    cases ends.symm.trans goesOn

/-- From one name the way up goes on in one way, wherever it is met. The induction is on how much
further it goes. -/
theorem ancestor_again {low high : Nat}
    (same : registry.ancestor? leaf low = registry.ancestor? leaf high) (further : Nat) :
    registry.ancestor? leaf (low + further) = registry.ancestor? leaf (high + further) := by
  induction further with
  | zero => exact same
  | succ further inductionHypothesis =>
    rw [← Nat.add_assoc, ← Nat.add_assoc, ancestor?, ancestor?, inductionHypothesis]

/-- So no name comes twice on a way up that ends at a root: it would go round for ever. What is
above the first of the two would be above the second, and so there would be something above the
root. -/
theorem ancestor_once {low high root : Nat} (rooted : registry.Rooted leaf root)
    (below : low < high) (within : high ≤ root) :
    registry.ancestor? leaf low ≠ registry.ancestor? leaf high := by
  intro same
  have again := ancestor_again same (root - high + 1)
  have behind : high + (root - high + 1) = root + 1 := by omega
  rw [behind, ancestor_above_root rooted] at again
  obtain ⟨name, -, reached, -⟩ := rooted
  obtain ⟨lower, goesOn⟩ := ancestor_below (show low + (root - high + 1) ≤ root by omega) reached
  rw [again] at goesOn
  cases goesOn

/-- A way up that ends at a root is overlong only where the limit is reached. -/
theorem overlong_below_root {limit height root : Nat} (rooted : registry.Rooted leaf root)
    (within : height ≤ root) (overlong : registry.Overlong leaf limit height) : limit ≤ height := by
  obtain ⟨name, reached, ⟨lower, below, met⟩ | full⟩ := overlong
  · exact absurd (met.trans reached.symm) (ancestor_once rooted below within)
  · exact full

/-- A walk up ends at this height: the chain is too long, a name is missing, or a template has no
parent. These are the three ways in which it can end, and the first height with one of them decides
the outcome. -/
def Ends (registry : Registry) (leaf : String) (limit height : Nat) : Prop :=
  registry.Overlong leaf limit height ∨ registry.Missing leaf height ∨ registry.Rooted leaf height

/-- A name that is one too many ends a walk. -/
theorem ends_of_overlong (registry : Registry) (leaf : String) (limit : Nat) :
    {height | registry.Overlong leaf limit height} ⊆ {height | registry.Ends leaf limit height} :=
  fun _ overlong => .inl overlong

/-- A name that nothing is registered under ends a walk. -/
theorem ends_of_missing (registry : Registry) (leaf : String) (limit : Nat) :
    {height | registry.Missing leaf height} ⊆ {height | registry.Ends leaf limit height} :=
  fun _ missing => .inr (.inl missing)

/-- A template without a parent ends a walk. -/
theorem ends_of_rooted (registry : Registry) (leaf : String) (limit : Nat) :
    {height | registry.Rooted leaf height} ⊆ {height | registry.Ends leaf limit height} :=
  fun _ rooted => .inr (.inr rooted)

/-- What a walk up gives that comes to this height with the entries from the height `start` on still
to be collected, and ends there. The three cases exclude each other, in the order in which the walk
asks: a name that is one too many goes first. -/
inductive EndsAt (registry : Registry) (leaf : String) (limit start height : Nat) :
    Except Fault (List Entry) → Prop
  | overlong (chain : List String) (overlong : registry.Overlong leaf limit height)
      (names : chain.map some = registry.ancestors leaf height) :
      EndsAt registry leaf limit start height (.error (.cycle chain))
  | missing (name : String) (free : ¬registry.Overlong leaf limit height)
      (missing : registry.Missing leaf height)
      (reached : registry.ancestor? leaf height = some name) :
      EndsAt registry leaf limit start height (.error (.notFound name))
  | rooted (lineage : List Entry) (free : ¬registry.Overlong leaf limit height)
      (rooted : registry.Rooted leaf height)
      (entries : lineage.reverse.map some = (List.range' start (height + 1 - start)).map
        fun height => (registry.ancestor? leaf height).bind registry.entry?) :
      EndsAt registry leaf limit start height (.ok lineage)

/-- Whatever a walk gives, it ends at this height for one of the three reasons. -/
theorem EndsAt.ends {limit start height : Nat} {outcome : Except Fault (List Entry)}
    (ended : registry.EndsAt leaf limit start height outcome) :
    registry.Ends leaf limit height := by
  cases ended with
  | overlong chain overlong names => exact .inl overlong
  | missing name free missing reached => exact .inr (.inl missing)
  | rooted lineage free rooted entries => exact .inr (.inr rooted)

/-- A walk has passed the names below the one that it has come to. This is the invariant that ties
what the walk carries along to the names above the leaf. -/
structure Walked (registry : Registry) (leaf : String) (passed : List String)
    (current : String) : Prop where
  below : passed.map some = (List.range passed.length).map (registry.ancestor? leaf)
  here : registry.ancestor? leaf passed.length = some current

section Walk

variable {limit : Nat} {passed : List String} {current : String}

/-- A walk stops where the name it has come to is one too many. The names that it has passed are
those below, so to look for it among them is to look at all lower heights. -/
theorem Walked.overlong_iff (walked : registry.Walked leaf passed current) :
    registry.Overlong leaf limit passed.length ↔ current ∈ passed ∨ limit ≤ passed.length := by
  have met : current ∈ passed ↔
      ∃ lower < passed.length, registry.ancestor? leaf lower = some current := by
    rw [← List.mem_map_of_injective (Option.some_injective String), walked.below]
    simp
  rw [met]
  constructor
  · rintro ⟨name, reached, stops⟩
    obtain rfl : current = name := Option.some.inj (walked.here.symm.trans reached)
    exact stops
  · exact fun stops => ⟨current, walked.here, stops⟩

/-- The names up to the one it has come to are the ancestors up to its height. -/
theorem Walked.names (walked : registry.Walked leaf passed current) :
    (passed ++ [current]).map some = registry.ancestors leaf passed.length := by
  rw [ancestors, List.map_append, walked.below, List.range_succ, List.map_append,
    List.map_singleton, List.map_singleton, walked.here]

/-- One more step is walked where there is a parent. The name passed is put behind those passed
before, and the height grows by one. -/
theorem Walked.parent (walked : registry.Walked leaf passed current) {entry : Entry}
    {parent : String} (kept : registry.entry? current = some entry)
    (inherits : entry.template.parent? = some parent) :
    registry.Walked leaf (passed ++ [current]) parent where
  below := by
    rw [walked.names, ancestors, List.length_append, List.length_singleton]
  here := by
    rw [List.length_append, List.length_singleton, ancestor?, walked.here, Option.bind_some,
      parent?, kept, Option.bind_some, inherits]

end Walk

end Registry

namespace Lineage

open Registry

variable {registry : Registry} {limit : Nat} {leaf : String}

/-- A walk goes on up to the first height where it ends. The induction is that of the walk itself:
each step is one height further up, and adds its entry to what comes from above. -/
theorem climb_ends (limit : Nat) {passed : List String} {current : String}
    (walked : registry.Walked leaf passed current) :
    ∃ height, passed.length ≤ height ∧
      (∀ other, passed.length ≤ other → registry.Ends leaf limit other → height ≤ other) ∧
      registry.EndsAt leaf limit passed.length height (climb registry limit passed current) := by
  have same {name : String} (reached : registry.ancestor? leaf passed.length = some name) :
      current = name := Option.some.inj (walked.here.symm.trans reached)
  induction passed, current using climb.induct registry limit with
  | case1 passed current stopped =>
    refine ⟨passed.length, Nat.le_refl _, fun other low _ => low, ?_⟩
    rw [climb, if_pos stopped]
    exact .overlong (passed ++ [current]) (walked.overlong_iff.mpr stopped) walked.names
  | case2 passed current free absent =>
    refine ⟨passed.length, Nat.le_refl _, fun other low _ => low, ?_⟩
    rw [climb, if_neg free, absent]
    exact .missing current (mt walked.overlong_iff.mp free) ⟨current, walked.here, absent⟩
      walked.here
  | case3 passed current free entry kept ends =>
    refine ⟨passed.length, Nat.le_refl _, fun other low _ => low, ?_⟩
    have single : passed.length + 1 - passed.length = 1 := by omega
    rw [climb, if_neg free]
    simp only [kept, ends]
    refine .rooted [entry] (mt walked.overlong_iff.mp free)
      ⟨current, entry, walked.here, kept, ends⟩ ?_
    rw [single, List.range'_one, List.map_singleton, walked.here, Option.bind_some, kept]
    rfl
  | case4 passed current free entry kept parent inherits inductionHypothesis =>
    have further := walked.parent kept inherits
    obtain ⟨height, above, least, ended⟩ :=
      inductionHypothesis further fun reached => Option.some.inj (further.here.symm.trans reached)
    rw [List.length_append, List.length_singleton] at above least ended
    -- The walk does not end at this height, so the first height where it ends is further up, and
    -- there the hypothesis of the induction has found it.
    have goesOn : ¬registry.Ends leaf limit passed.length := by
      rintro (overlong | ⟨name, reached, absent⟩ | ⟨name, other, reached, found, ends⟩)
      · exact free (walked.overlong_iff.mp overlong)
      · obtain rfl := same reached
        cases kept.symm.trans absent
      · obtain rfl := same reached
        obtain rfl : entry = other := Option.some.inj (kept.symm.trans found)
        cases inherits.symm.trans ends
    refine ⟨height, by omega, fun other low ends => ?_, ?_⟩
    · rcases Nat.eq_or_lt_of_le low with rfl | beyond
      · exact absurd ends goesOn
      · exact least other beyond ends
    · rw [climb, if_neg free]
      simp only [kept, inherits]
      generalize climb registry limit (passed ++ [current]) parent = outcome at ended ⊢
      cases ended with
      | overlong chain overlong names => exact .overlong chain overlong names
      | missing name free missing reached => exact .missing name free missing reached
      | rooted lineage free rooted entries =>
        refine .rooted (lineage ++ [entry]) free rooted ?_
        have heights : List.range' passed.length (height + 1 - passed.length) =
            passed.length ::
              List.range' (passed.length + 1) (height + 1 - (passed.length + 1)) := by
          have more : height + 1 - passed.length = height + 1 - (passed.length + 1) + 1 := by omega
          rw [more, List.range'_succ]
        -- The lineage is told from the root, and its heights are counted from the leaf.
        rw [List.reverse_append, List.reverse_singleton, List.singleton_append, List.map_cons,
          heights, List.map_cons, walked.here, Option.bind_some, kept, entries]

/-- The walk up from a leaf ends at the first height where it can. It starts with no name passed, so
the height is the first of all. -/
theorem ofLeaf_ends (registry : Registry) (limit : Nat) (leaf : String) :
    ∃ height, IsLeast {height | registry.Ends leaf limit height} height ∧
      registry.EndsAt leaf limit 0 height (ofLeaf registry limit leaf) := by
  have walked : registry.Walked leaf [] leaf := ⟨rfl, rfl⟩
  obtain ⟨height, -, least, ended⟩ := climb_ends limit walked
  exact ⟨height, ⟨ended.ends, fun other ends => least other (Nat.zero_le _) ends⟩, ended⟩

section Outcomes

variable (registry limit leaf)

/-- Where the first name that is one too many comes before anything else, or with it, the fault
is a cycle. The two premises compare it with the first missing name and the first root, if there
are any. -/
theorem ofLeaf_overlong {i : Nat}
    (first : IsLeast {height | registry.Overlong leaf limit height} i)
    (beforeMissing : ∀ j, IsLeast {height | registry.Missing leaf height} j → i ≤ j)
    (beforeRoot : ∀ k, IsLeast {height | registry.Rooted leaf height} k → i ≤ k) :
    ∃ chain, ofLeaf registry limit leaf = .error (.cycle chain) ∧
      chain.map some = registry.ancestors leaf i := by
  obtain ⟨height, least, ended⟩ := ofLeaf_ends registry limit leaf
  have notBefore : height ≤ i := least.2 (ends_of_overlong registry leaf limit first.1)
  generalize ofLeaf registry limit leaf = outcome at ended ⊢
  cases ended with
  | overlong chain overlong names =>
    obtain rfl : height = i := Nat.le_antisymm notBefore (first.2 overlong)
    exact ⟨chain, rfl, names⟩
  | missing name free missing reached =>
    have below := beforeMissing height
      ⟨missing, lowerBounds_mono_set (ends_of_missing registry leaf limit) least.2⟩
    obtain rfl : height = i := Nat.le_antisymm notBefore below
    exact absurd first.1 free
  | rooted lineage free rooted entries =>
    have below := beforeRoot height
      ⟨rooted, lowerBounds_mono_set (ends_of_rooted registry leaf limit) least.2⟩
    obtain rfl : height = i := Nat.le_antisymm notBefore below
    exact absurd first.1 free

/-- Where a missing name comes before that, and before a root, it is told to be missing. A name that
is one too many at the same height would come first, so it has to be strictly later. -/
theorem ofLeaf_missing {j : Nat} (first : IsLeast {height | registry.Missing leaf height} j)
    (beforeOverlong : ∀ i, IsLeast {height | registry.Overlong leaf limit height} i → j < i)
    (beforeRoot : ∀ k, IsLeast {height | registry.Rooted leaf height} k → j < k) :
    ∃ name, ofLeaf registry limit leaf = .error (.notFound name) ∧
      registry.ancestor? leaf j = some name := by
  obtain ⟨height, least, ended⟩ := ofLeaf_ends registry limit leaf
  have notBefore : height ≤ j := least.2 (ends_of_missing registry leaf limit first.1)
  generalize ofLeaf registry limit leaf = outcome at ended ⊢
  cases ended with
  | overlong chain overlong names =>
    have below := beforeOverlong height
      ⟨overlong, lowerBounds_mono_set (ends_of_overlong registry leaf limit) least.2⟩
    omega
  | missing name free missing reached =>
    obtain rfl : height = j := Nat.le_antisymm notBefore (first.2 missing)
    exact ⟨name, rfl, reached⟩
  | rooted lineage free rooted entries =>
    have below := beforeRoot height
      ⟨rooted, lowerBounds_mono_set (ends_of_rooted registry leaf limit) least.2⟩
    omega

/-- Where a root comes before both, the walk gives the entries on the way from it down, as they are
registered now. The walk ends at the first height where it may end, so the two premises rule out
that it ends there in another way. -/
theorem ofLeaf_rooted {k : Nat} (first : IsLeast {height | registry.Rooted leaf height} k)
    (beforeOverlong : ∀ i, IsLeast {height | registry.Overlong leaf limit height} i → k < i)
    (beforeMissing : ∀ j, IsLeast {height | registry.Missing leaf height} j → k < j) :
    ∃ lineage, ofLeaf registry limit leaf = .ok lineage ∧ lineage.reverse.map some =
      (registry.ancestors leaf k).map (·.bind registry.entry?) := by
  obtain ⟨height, least, ended⟩ := ofLeaf_ends registry limit leaf
  have notBefore : height ≤ k := least.2 (ends_of_rooted registry leaf limit first.1)
  generalize ofLeaf registry limit leaf = outcome at ended ⊢
  cases ended with
  | overlong chain overlong names =>
    have below := beforeOverlong height
      ⟨overlong, lowerBounds_mono_set (ends_of_overlong registry leaf limit) least.2⟩
    omega
  | missing name free missing reached =>
    have below := beforeMissing height
      ⟨missing, lowerBounds_mono_set (ends_of_missing registry leaf limit) least.2⟩
    omega
  | rooted lineage free rooted entries =>
    obtain rfl : height = k := Nat.le_antisymm notBefore (first.2 rooted)
    refine ⟨lineage, rfl, ?_⟩
    rw [entries, ancestors, List.map_map, List.range_eq_range', Nat.sub_zero]
    rfl

variable {leaf}

/-- A lineage with a root is accepted just if it is not longer than the limit. No name comes twice
on the way to a root, so the limit is all that can stop it. -/
theorem ofLeaf_within {k : Nat} (rooted : registry.Rooted leaf k) :
    (∃ lineage, ofLeaf registry limit leaf = .ok lineage) ↔ k + 1 ≤ limit := by
  obtain ⟨height, least, ended⟩ := ofLeaf_ends registry limit leaf
  have within : height ≤ k := least.2 (ends_of_rooted registry leaf limit rooted)
  generalize ofLeaf registry limit leaf = outcome at ended ⊢
  cases ended with
  | overlong chain overlong names =>
    have full := overlong_below_root rooted within overlong
    constructor
    · rintro ⟨lineage, impossible⟩
      cases impossible
    · intro short
      omega
  | missing name free missing reached => exact absurd missing (not_missing_below_root rooted within)
  | rooted lineage free other entries =>
    obtain rfl : height = k := rooted_unique other rooted
    obtain ⟨name, -, reached, -⟩ := rooted
    have room : ¬limit ≤ height := fun full => free ⟨name, reached, .inr full⟩
    exact ⟨fun _ => Nat.lt_of_not_le room, fun _ => ⟨lineage, rfl⟩⟩

end Outcomes

/-- The walk up from a leaf ends at the first name that is one too many, that nothing is registered
under, or whose template has no parent, and there is one. If it is one too many, the fault is a
cycle with all names up to it, whatever else there is to say of it; if it is missing, that is the
fault; and else the walk gives the entries registered now, from the root down. So a lineage with a
root is accepted just if it has no more templates than the limit says. -/
theorem first_end_decides (registry : Registry) (limit : Nat) (leaf : String) :
    let climbed := ofLeaf registry limit leaf
    (∃ height, registry.Overlong leaf limit height ∨ registry.Missing leaf height ∨
      registry.Rooted leaf height) ∧
    (∀ i, IsLeast {height | registry.Overlong leaf limit height} i →
      (∀ j, IsLeast {height | registry.Missing leaf height} j → i ≤ j) →
      (∀ k, IsLeast {height | registry.Rooted leaf height} k → i ≤ k) →
      ∃ chain, climbed = .error (.cycle chain) ∧ chain.map some = registry.ancestors leaf i) ∧
    (∀ j, IsLeast {height | registry.Missing leaf height} j →
      (∀ i, IsLeast {height | registry.Overlong leaf limit height} i → j < i) →
      (∀ k, IsLeast {height | registry.Rooted leaf height} k → j < k) →
      ∃ name, climbed = .error (.notFound name) ∧ registry.ancestor? leaf j = some name) ∧
    (∀ k, IsLeast {height | registry.Rooted leaf height} k →
      (∀ i, IsLeast {height | registry.Overlong leaf limit height} i → k < i) →
      (∀ j, IsLeast {height | registry.Missing leaf height} j → k < j) →
      ∃ lineage, climbed = .ok lineage ∧ lineage.reverse.map some =
        (registry.ancestors leaf k).map (·.bind registry.entry?)) ∧
    (∀ k, registry.Rooted leaf k →
      ((∃ lineage, climbed = .ok lineage) ↔ k + 1 ≤ limit)) := by
  obtain ⟨height, least, -⟩ := ofLeaf_ends registry limit leaf
  exact ⟨⟨height, least.1⟩, fun i => ofLeaf_overlong registry limit leaf,
    fun j => ofLeaf_missing registry limit leaf, fun k => ofLeaf_rooted registry limit leaf,
    fun k => ofLeaf_within registry limit⟩

/-- A template that does nothing but inherit. -/
def heirTemplate (name parent : String) : Template :=
  ⟨name, "\x7b% extends '" ++ parent ++ "' %\x7d", [.inherits parent]⟩

/-- Two templates that inherit from each other, one that inherits from the first of them, and a
template with a parent. -/
def roundRegistry : Registry :=
  ⟨[("a", ⟨heirTemplate "a" "b", 1⟩), ("b", ⟨heirTemplate "b" "c", 2⟩),
    ("c", ⟨heirTemplate "c" "b", 3⟩), ("d", ⟨heirTemplate "d" "e", 4⟩),
    ("e", ⟨⟨"e", "!", [.text "!"]⟩, 5⟩)], 5, false⟩

/-- The way up from the first template goes round, and its second name is the first to come twice.
The last lineage is accepted with a limit of two, but not of one. -/
theorem first_end_decides_round :
    IsLeast {height | roundRegistry.Overlong "a" 9 height} 3 ∧
      (∀ j, ¬roundRegistry.Missing "a" j) ∧ (∀ k, ¬roundRegistry.Rooted "a" k) ∧
      (∃ chain, ofLeaf roundRegistry 9 "a" = .error (.cycle chain) ∧
        chain.map some = [some "a", some "b", some "c", some "b"]) ∧
      roundRegistry.Rooted "d" 1 ∧
      (∃ lineage, ofLeaf roundRegistry 2 "d" = .ok lineage) ∧
      ¬∃ lineage, ofLeaf roundRegistry 1 "d" = .ok lineage := by
  have names (height : Nat) : roundRegistry.ancestor? "a" height = some "a" ∨
      roundRegistry.ancestor? "a" height = some "b" ∨
      roundRegistry.ancestor? "a" height = some "c" := by
    induction height with
    | zero => exact .inl rfl
    | succ height inductionHypothesis =>
      rw [ancestor?]
      rcases inductionHypothesis with here | here | here <;> rw [here]
      · exact .inr (.inl rfl)
      · exact .inr (.inr rfl)
      · exact .inr (.inl rfl)
  have noneMissing (j : Nat) : ¬roundRegistry.Missing "a" j := by
    rintro ⟨name, reached, absent⟩
    rcases names j with here | here | here <;> rw [here] at reached <;>
      cases reached <;> cases absent
  have noneRooted (k : Nat) : ¬roundRegistry.Rooted "a" k := by
    rintro ⟨name, entry, reached, kept, ends⟩
    rcases names k with here | here | here <;> rw [here] at reached <;>
      cases reached <;> cases kept <;> cases ends
  have first : IsLeast {height | roundRegistry.Overlong "a" 9 height} 3 := by
    refine ⟨⟨"b", rfl, .inl ⟨1, by decide, rfl⟩⟩, ?_⟩
    rintro height ⟨name, reached, ⟨lower, below, met⟩ | full⟩
    · by_contra short
      have same := met.trans reached.symm
      obtain ⟨rfl, rfl⟩ | ⟨rfl, rfl⟩ | ⟨rfl, rfl⟩ : (lower = 0 ∧ height = 1) ∨
          (lower = 0 ∧ height = 2) ∨ (lower = 1 ∧ height = 2) := by omega
      all_goals exact absurd same (by decide)
    · omega
  have rooted : roundRegistry.Rooted "d" 1 := ⟨"e", _, rfl, rfl, rfl⟩
  refine ⟨first, noneMissing, noneRooted, ?_, rooted, ?_, ?_⟩
  · exact (first_end_decides roundRegistry 9 "a").2.1 3 first
      (fun j missing => absurd missing.1 (noneMissing j))
      (fun k rooted => absurd rooted.1 (noneRooted k))
  · exact ((first_end_decides roundRegistry 2 "d").2.2.2.2 1 rooted).mpr (Nat.le_refl 2)
  · exact fun accepted => absurd
      (((first_end_decides roundRegistry 1 "d").2.2.2.2 1 rooted).mp accepted) (by decide)

end Lineage

end Stencil
