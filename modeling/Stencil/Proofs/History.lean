import Stencil.Directory.Loading
import Stencil.Proofs.TemplateShape

/-!
# The history of a registry

A registry changes by insertions and removals alone, whatever request caused them, and
every template that is inserted has been read from a source. From this follows what can be
said of a registry at any time: a template is kept under its own name, and the generation
of an entry is no later than the last change. So the next insertion brings a generation
that no entry has.
-/

namespace Stencil

/-- A request to change a registry. A source comes with it as it was given, whether it can be read
or not. -/
inductive Change where
  | register (name source : String)
  /-- Keep a template that has been read on its own, with its own choice of `trim`. -/
  | insert (name : String) (trim : Bool) (source : String)
  | remove (name : String)

namespace Registry

/-- The registry after a request. A source that cannot be read changes nothing, and a name that is
not there may be removed all the same. -/
def change (registry : Registry) : Change → Registry
  | .register name source =>
    match registry.register name source with
    | .ok changed => changed
    | .error _ => registry
  | .insert name trim source =>
    match Template.ofSource name trim source with
    | .ok template => registry.insert template
    | .error _ => registry
  | .remove name => registry.remove name

/-- The registry after requests one behind the other, where there was none before. Every registry
that can be reached is one of these, as loading does nothing but register. -/
def ofChanges (trim : Bool) (changes : List Change) : Registry :=
  changes.foldl change (.empty trim)

/-- The names under which a request registers, inserts or removes a template. A source that
cannot be read leaves its name untouched, and so does a removal where there is nothing. -/
def touched (registry : Registry) : Change → List String
  | .register name source =>
    match registry.register name source with
    | .ok _ => [name]
    | .error _ => []
  | .insert name trim source =>
    match Template.ofSource name trim source with
    | .ok _ => [name]
    | .error _ => []
  | .remove name => if registry.contains name then [name] else []

/-- The names under which loading files registers templates, in the order of the files. The registry
is handed on from file to file, as in loading. -/
def touchedByFiles (extensions : List String) (registry : Registry) :
    List (List FileName × List UInt8) → List String
  | [] => []
  | (path, content) :: rest =>
    match Loading.loadFile? extensions registry path content with
    | none => touchedByFiles extensions registry rest
    | some changed =>
      (Loading.templateName? extensions path).toList ++ touchedByFiles extensions changed rest

/-- The names under which loading a directory registers templates. Where there is no directory
nothing is loaded, and no name is touched. -/
def touchedByLoad (extensions : List String) (root : Option Tree) (registry : Registry) :
    List String :=
  match root with
  | none => []
  | some tree => touchedByFiles extensions registry tree.files

/-- One registry turns into another by insertions of templates that have been read, and by removals,
one under each of the given names. A removal takes part only where there is something to remove, so
that the names are those under which something happened. -/
inductive Passes (registry : Registry) : List String → Registry → Prop
  | refl : Passes registry [] registry
  | insert {names : List String} {reached : Registry} {name source : String} {trim : Bool}
      {template : Template} (earlier : Passes registry names reached)
      (read : Template.ofSource name trim source = .ok template) :
      Passes registry (names ++ [name]) (reached.insert template)
  | remove {names : List String} {reached : Registry} {name : String}
      (earlier : Passes registry names reached) (kept : reached.contains name = true) :
      Passes registry (names ++ [name]) (reached.remove name)

/-- Changes may be made one after the other, and their names come in the same order. The induction
is on the later ones. -/
theorem Passes.trans {first second third : Registry} {names later : List String}
    (before : first.Passes names second) (behind : second.Passes later third) :
    first.Passes (names ++ later) third := by
  induction behind with
  | refl => rwa [List.append_nil]
  | insert earlier read inductionHypothesis =>
    rw [← List.append_assoc]
    exact inductionHypothesis.insert read
  | remove earlier kept inductionHypothesis =>
    rw [← List.append_assoc]
    exact inductionHypothesis.remove kept

/-- A source that is registered has been read, and its template is inserted. A refusal is no
registration, so there is nothing to be said of it. -/
theorem passes_register {registry changed : Registry} {name source : String}
    (registered : registry.register name source = .ok changed) :
    registry.Passes [name] changed := by
  unfold register at registered
  cases read : Template.ofSource name registry.trim source with
  | error refusal =>
    rw [read] at registered
    cases registered
  | ok template =>
    rw [read] at registered
    cases registered
    exact Passes.refl.insert read

/-- A request inserts or removes under the names that it touches. Each kind of request makes one
change or none; one that is refused, and the removal of a name that is not there, touch no name. -/
theorem passes_change (registry : Registry) (request : Change) :
    registry.Passes (registry.touched request) (registry.change request) := by
  cases request with
  | register name source =>
    simp only [change, touched]
    split
    · next registered => exact passes_register registered
    · exact .refl
  | insert name trim source =>
    simp only [change, touched]
    split
    · next read => exact Passes.refl.insert read
    · exact .refl
  | remove name =>
    simp only [change, touched]
    split
    · next kept => exact Passes.refl.remove kept
    · next absent =>
      rw [remove, if_neg absent]
      exact .refl

/-- Loading files inserts the templates in them. The induction is over the files, and those without
a template are passed over. Each file starts from the registry that the ones before it have left. -/
theorem passes_files (extensions : List String) (registry : Registry)
    (files : List (List FileName × List UInt8)) :
    registry.Passes (touchedByFiles extensions registry files)
      (Loading.loadFiles extensions registry files).2 := by
  induction files generalizing registry with
  | nil => exact .refl
  | cons file rest inductionHypothesis =>
    obtain ⟨path, content⟩ := file
    cases loaded : Loading.loadFile? extensions registry path content with
    | none =>
      simp only [Loading.loadFiles, touchedByFiles, loaded]
      exact inductionHypothesis registry
    | some changed =>
      simp only [Loading.loadFiles, touchedByFiles, loaded]
      refine Passes.trans ?_ (inductionHypothesis changed)
      simp only [Loading.loadFile?, Option.bind_eq_bind, Option.bind_eq_some_iff] at loaded
      obtain ⟨name, named, source, -, registered⟩ := loaded
      rw [named]
      cases outcome : registry.register name source with
      | error refusal => simp [outcome, Except.toOption] at registered
      | ok reached =>
        obtain rfl : reached = changed := by simpa [outcome, Except.toOption] using registered
        exact passes_register outcome

/-- Loading a directory inserts the templates below it. -/
theorem passes_load (extensions : List String) (root : Option Tree) (registry : Registry) :
    registry.Passes (touchedByLoad extensions root registry)
      (Loading.load extensions root registry).2 := by
  cases root with
  | none => exact .refl
  | some tree => exact passes_files extensions registry tree.files

/-- One registry turns into another by insertions of templates that have been read, and by
removals, under whatever names. What holds of a registry at any time hangs on this alone; the names
count only for what becomes of a single entry. -/
def Reaches (registry reached : Registry) : Prop := ∃ names, registry.Passes names reached

/-- Where the names do not matter they are left out. -/
theorem Passes.reaches {registry reached : Registry} {names : List String}
    (passes : registry.Passes names reached) : registry.Reaches reached := ⟨names, passes⟩

namespace Reaches

variable {first second third : Registry}

/-- A registry reaches itself, under no names. -/
theorem refl : first.Reaches first := Passes.refl.reaches

/-- One change after another, under the names of both. -/
theorem trans (before : first.Reaches second) (behind : second.Reaches third) :
    first.Reaches third := by
  obtain ⟨names, passes⟩ := before
  obtain ⟨later, passesLater⟩ := behind
  exact (passes.trans passesLater).reaches

/-- A template that has been read may be inserted behind any changes. -/
theorem insert (earlier : first.Reaches second) {name source : String} {trim : Bool}
    {template : Template} (read : Template.ofSource name trim source = .ok template) :
    first.Reaches (second.insert template) := by
  obtain ⟨names, passes⟩ := earlier
  exact (passes.insert read).reaches

/-- Any name may be removed behind any changes. A name that is absent is not touched: its removal
is no change at all. -/
theorem remove (earlier : first.Reaches second) (name : String) :
    first.Reaches (second.remove name) := by
  by_cases kept : second.contains name = true
  · obtain ⟨names, passes⟩ := earlier
    exact (passes.remove kept).reaches
  · rw [Registry.remove, if_neg kept]
    exact earlier

end Reaches

/-- A source that is registered makes one change. -/
theorem reaches_register {registry changed : Registry} {name source : String}
    (registered : registry.register name source = .ok changed) : registry.Reaches changed :=
  (passes_register registered).reaches

/-- Requests one behind the other are made of insertions and removals. Each request makes a pass,
which may have no names, and passes are joined. -/
theorem reaches_changes (registry : Registry) (changes : List Change) :
    registry.Reaches (changes.foldl change registry) := by
  induction changes generalizing registry with
  | nil => exact .refl
  | cons request rest inductionHypothesis =>
    have first : registry.Reaches (registry.change request) :=
      (passes_change registry request).reaches
    exact first.trans (inductionHypothesis (registry.change request))

/-- Loading a directory is made of insertions. -/
theorem reaches_load (extensions : List String) (root : Option Tree) (registry : Registry) :
    registry.Reaches (Loading.load extensions root registry).2 :=
  (passes_load extensions root registry).reaches

section Entries

variable (registry : Registry)

/-- An insertion brings a new generation for its name, and leaves every other name as it is. -/
@[simp] theorem entry_insert (template : Template) (sought : String) :
    Registry.entry? (registry.insert template) sought =
      if template.name = sought then some ⟨template, registry.changes + 1⟩
      else registry.entry? sought :=
  Dict.get?_insert registry.entries template.name sought ⟨template, registry.changes + 1⟩

/-- A removal leaves no entry for its name, and leaves every other name as it is. -/
@[simp] theorem entry_remove (name sought : String) :
    Registry.entry? (registry.remove name) sought =
      if name = sought then none else registry.entry? sought := by
  unfold remove
  split
  · exact Dict.get?_erase registry.entries name sought
  · next absent =>
    have nothing : registry.entry? name = none := by simpa [contains] using absent
    split
    · next same => rw [← same, nothing]
    · rfl

/-- An insertion is counted. -/
@[simp] theorem changes_insert (template : Template) :
    (registry.insert template).changes = registry.changes + 1 := rfl

/-- A removal never takes the count back. -/
theorem changes_remove (name : String) : registry.changes ≤ (registry.remove name).changes := by
  unfold remove
  split
  · exact Nat.le_succ registry.changes
  · exact Nat.le_refl registry.changes

end Entries

/-- A registry at a later time. Where a name does not stand for the same entry any more, what it
stands for, if anything, was made after the changes so far. So an entry with an old generation is
the old entry. -/
structure Later (registry later : Registry) : Prop where
  counted : registry.changes ≤ later.changes
  entries : ∀ name, later.entry? name = registry.entry? name ∨
    ∀ entry, later.entry? name = some entry → registry.changes < entry.generation

/-- What is later than something later is later. An entry that is new for the third registry is
newer than what the first has counted, since the count only grows. -/
theorem Later.trans {first second third : Registry} (before : first.Later second)
    (behind : second.Later third) : first.Later third where
  counted := Nat.le_trans before.counted behind.counted
  entries := by
    intro name
    rcases behind.entries name with same | made
    · rw [same]
      exact before.entries name
    · exact .inr fun entry kept => Nat.lt_of_le_of_lt before.counted (made entry kept)

/-- Insertions and removals lead to a later time: an insertion has a new generation, and a
removal leaves no entry. The induction is on the changes, each of which is a later time by
itself. -/
theorem later_of_passes {registry reached : Registry} {names : List String}
    (passes : registry.Passes names reached) : registry.Later reached := by
  induction passes with
  | refl => exact ⟨Nat.le_refl _, fun _ => .inl rfl⟩
  | insert earlier read inductionHypothesis =>
    refine inductionHypothesis.trans ⟨Nat.le_succ _, fun sought => ?_⟩
    rw [entry_insert]
    split
    · right
      intro entry made
      cases made
      exact Nat.lt_succ_self _
    · exact .inl rfl
  | remove earlier kept inductionHypothesis =>
    refine inductionHypothesis.trans ⟨changes_remove _ _, fun sought => ?_⟩
    rw [entry_remove]
    split
    · exact .inr fun entry none => nomatch none
    · exact .inl rfl

/-- So do changes whose names do not matter. -/
theorem later_of_reaches {registry reached : Registry} (reaches : registry.Reaches reached) :
    registry.Later reached := by
  obtain ⟨names, passes⟩ := reaches
  exact later_of_passes passes

/-- Under a name that is not touched the entry stays. A template is kept under its own name, which
is the one it was read for, so insertions elsewhere do not matter. -/
theorem entry_untouched {registry reached : Registry} {names : List String}
    (passes : registry.Passes names reached) {name : String} (untouched : name ∉ names) :
    reached.entry? name = registry.entry? name := by
  induction passes with
  | refl => rfl
  | insert earlier read inductionHypothesis =>
    simp only [List.mem_append, List.mem_singleton, not_or] at untouched
    have apart : _ ≠ name := (Template.source_shape read).1 ▸ Ne.symm untouched.2
    rw [entry_insert, if_neg apart]
    exact inductionHypothesis untouched.1
  | remove earlier kept inductionHypothesis =>
    simp only [List.mem_append, List.mem_singleton, not_or] at untouched
    rw [entry_remove, if_neg (Ne.symm untouched.2)]
    exact inductionHypothesis untouched.1

/-- Under a name that is touched there is no entry, or one made after the changes so far, whatever
was done to the name afterwards. The induction is on the changes, and the last one is about the name
or leaves it alone. -/
theorem entry_touched {registry reached : Registry} {names : List String}
    (passes : registry.Passes names reached) {name : String} (touched : name ∈ names)
    {entry : Entry} (kept : reached.entry? name = some entry) :
    registry.changes < entry.generation := by
  induction passes generalizing entry with
  | refl => cases touched
  | insert earlier read inductionHypothesis =>
    rw [entry_insert] at kept
    split at kept
    · cases kept
      exact Nat.lt_succ_of_le (later_of_passes earlier).counted
    · next apart =>
      rw [(Template.source_shape read).1] at apart
      rcases List.mem_append.mp touched with before | last
      · exact inductionHypothesis before kept
      · exact absurd (List.mem_singleton.mp last).symm apart
  | remove earlier present inductionHypothesis =>
    rw [entry_remove] at kept
    split at kept
    · cases kept
    · next apart =>
      rcases List.mem_append.mp touched with before | last
      · exact inductionHypothesis before kept
      · exact absurd (List.mem_singleton.mp last).symm apart

/-- What holds of every registry at any time. Both parts are about single entries, so an insertion
has to account for its own entry only. -/
structure Consistent (registry : Registry) : Prop where
  /-- A kept template has been read under the name that it is kept under. -/
  read : ∀ name entry, registry.entry? name = some entry →
    ∃ trim source, Template.ofSource name trim source = .ok entry.template
  /-- No generation lies ahead. -/
  dated : ∀ name entry, registry.entry? name = some entry → entry.generation ≤ registry.changes

/-- A kept template is kept under its own name, since that is the name that it was read with. -/
theorem Consistent.named {registry : Registry} (consistent : registry.Consistent) {name : String}
    {entry : Entry} (kept : registry.entry? name = some entry) : entry.template.name = name := by
  obtain ⟨trim, source, read⟩ := consistent.read name entry kept
  exact (Template.source_shape read).1

/-- Nothing is kept in an empty registry. -/
theorem consistent_empty (trim : Bool) : (empty trim).Consistent where
  read := fun _ _ kept => nomatch kept
  dated := fun _ _ kept => nomatch kept

/-- A template that has been read may be inserted. Its generation is the new count, and the older
generations do not lie ahead of a count that has grown. Its name is the one that it was read
under. -/
theorem consistent_insert {registry : Registry} (consistent : registry.Consistent)
    {name source : String} {trim : Bool} {template : Template}
    (read : Template.ofSource name trim source = .ok template) :
    (registry.insert template).Consistent where
  read := by
    intro sought entry kept
    rw [entry_insert] at kept
    split at kept
    · next same =>
      cases kept
      obtain rfl : name = sought := (Template.source_shape read).1.symm.trans same
      exact ⟨trim, source, read⟩
    · exact consistent.read sought entry kept
  dated := by
    intro sought entry kept
    rw [entry_insert] at kept
    split at kept
    · cases kept
      exact Nat.le_refl _
    · exact Nat.le_succ_of_le (consistent.dated sought entry kept)

/-- A name may be removed: what is left was there before, and the count of changes does not become
less. -/
theorem consistent_remove {registry : Registry} (consistent : registry.Consistent)
    (name : String) : (registry.remove name).Consistent where
  read := by
    intro sought entry kept
    rw [entry_remove] at kept
    split at kept
    · cases kept
    · exact consistent.read sought entry kept
  dated := by
    intro sought entry kept
    rw [entry_remove] at kept
    split at kept
    · cases kept
    · exact Nat.le_trans (consistent.dated sought entry kept) (changes_remove registry name)

/-- No change of a consistent registry does harm: consistency is what each insertion and each
removal keeps, and so it is kept by all of them. The induction is on the changes. -/
theorem consistent_reaches {registry reached : Registry} (consistent : registry.Consistent)
    (reaches : registry.Reaches reached) : reached.Consistent := by
  obtain ⟨names, passes⟩ := reaches
  induction passes with
  | refl => exact consistent
  | insert earlier read inductionHypothesis => exact consistent_insert inductionHypothesis read
  | remove earlier kept inductionHypothesis => exact consistent_remove inductionHypothesis _

/-- A registry is consistent after any requests. -/
theorem consistent_changes (trim : Bool) (changes : List Change) :
    (ofChanges trim changes).Consistent :=
  consistent_reaches (consistent_empty trim) (reaches_changes (.empty trim) changes)

end Registry

end Stencil
