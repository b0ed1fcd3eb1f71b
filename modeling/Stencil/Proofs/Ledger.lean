import Mathlib.Data.List.Induction
import Stencil.Proofs.Deciding
import Stencil.Proofs.History

/-!
# The ledger of a registry

What a registry holds can be told without it, from a ledger of all that has succeeded so far: a
template kept, by registering it, by inserting it or by loading a file, or a name removed. The
template of a name is the one that the ledger mentions last for it, unless the name has been
removed since, and its generation is the place of that entry in the ledger.

The ledger of a run is computed from the steps alone; whether a removal succeeds is decided by the
ledger, not by the registry. One relation ties the two together. Keeping a template and removing
a name preserve it, so each step does, so every run does, and all that is said of a registry is
read off its ledger.
-/

namespace Stencil

namespace Dict

variable {α : Type}

/-- The names are those with an entry; it is said by looking entries up, which does not ask for
their order. -/
theorem mem_names_iff (entries : Dict α) (sought : String) :
    sought ∈ entries.names ↔ (entries.get? sought).isSome = true := by
  induction entries with
  | nil => simp [names]
  | cons head rest inductionHypothesis =>
    obtain ⟨name, entry⟩ := head
    rw [names, List.map_cons, List.mem_cons, get?]
    by_cases here : name = sought
    · simp [here]
    · rw [if_neg here, ← inductionHypothesis]
      exact or_iff_right (Ne.symm here)

end Dict

namespace Loading

/-- The template in a file, if there is one: the path has to name a template, and the content has to
be text that can be read. -/
def template? (extensions : List String) (trim : Bool)
    (file : List FileName × List UInt8) : Option Template := do
  let name ← templateName? extensions file.1
  let source ← text? file.2
  (Template.ofSource name trim source).toOption

/-- Loading a file keeps the template in it. Where there is none, for whichever reason, the registry
is not changed at all. -/
theorem loadFile_template (extensions : List String) (registry : Registry)
    (path : List FileName) (content : List UInt8) :
    loadFile? extensions registry path content =
      (template? extensions registry.trim (path, content)).map registry.insert := by
  unfold loadFile? template? Registry.register
  cases templateName? extensions path with
  | none => rfl
  | some name =>
    cases text? content with
    | none => rfl
    | some source =>
      cases read : Template.ofSource name registry.trim source <;>
        simp [read, Except.map, Except.toOption]

end Loading

namespace Registry

/-- What may be asked of a registry that changes it. Loading comes with the tree that was there at
the time. -/
inductive Step where
  | register (name source : String)
  /-- Keep a template that is there already. -/
  | insert (template : Template)
  | remove (name : String)
  /-- Load a directory that looks like this at the time, if it is there. -/
  | load (extensions : List String) (root : Option Tree)

/-- The registry after a step. A source that cannot be read changes nothing, and neither does
removing a name that is not known. -/
def step (registry : Registry) : Step → Registry
  | .register name source =>
    match registry.register name source with
    | .ok changed => changed
    | .error _ => registry
  | .insert template => registry.insert template
  | .remove name => registry.remove name
  | .load extensions root => (Loading.load extensions root registry).2

/-- The registry after steps one behind the other, where there was none before. The ledger of the
same steps tells what is in it. -/
def run (trim : Bool) (steps : List Step) : Registry := steps.foldl step (.empty trim)

/-- To register a source is to insert the template that it is read as, or nothing. -/
theorem step_register (registry : Registry) (name source : String) :
    registry.step (.register name source) =
      match Template.ofSource name registry.trim source with
      | .ok template => registry.insert template
      | .error _ => registry := by
  simp only [step, register]
  cases Template.ofSource name registry.trim source <;> rfl

/-- A change that has succeeded. Only these are in a ledger; what has failed leaves no trace in
it. -/
inductive Event where
  | kept (template : Template)
  | removed (name : String)

namespace Event

/-- The name that a change is about. A template brings its own, and only one name is concerned in
any change. -/
def name : Event → String
  | .kept template => template.name
  | .removed name => name

/-- The template that a change leaves under its name. There is none if the name was removed. -/
def template? : Event → Option Template
  | .kept template => some template
  | .removed _ => none

end Event

/-- The template of a name after changes: what the last change about the name has left. It is
computed from the ledger alone, by going through all of it. -/
def current? (past : List Event) (name : String) : Option Template :=
  (past.filter (·.name = name)).getLast?.bind Event.template?

/-- The changes that succeed in a step, after others. Only a removal asks what there was before; for
a directory the templates are listed in the order of its files. -/
def events (trim : Bool) (past : List Event) : Step → List Event
  | .register name source => ((Template.ofSource name trim source).toOption.map .kept).toList
  | .insert template => [.kept template]
  | .remove name => if (current? past name).isSome then [.removed name] else []
  | .load extensions root =>
    ((root.map Tree.files).getD []).filterMap fun file =>
      (Loading.template? extensions trim file).map .kept

/-- All changes that succeed in steps one behind the other, in their order. No registry is asked for
it. -/
def ledger (trim : Bool) (steps : List Step) : List Event :=
  steps.foldl (fun past step => past ++ events trim past step) []

/-- An entry is what a name stands for after changes: one of them has kept its template, at the
place that is its generation, and none behind that is about the name. -/
def Stands (past : List Event) (name : String) (entry : Entry) : Prop :=
  ∃ before behind, past = before ++ .kept entry.template :: behind ∧
    entry.generation = before.length + 1 ∧ entry.template.name = name ∧
    ∀ event ∈ behind, event.name ≠ name

section Standing

variable {past : List Event} {name : String} {entry : Entry}

/-- Without any changes no name stands for anything. -/
theorem not_stands_nil : ¬ Stands [] name entry := by
  rintro ⟨before, behind, split, -⟩
  cases before <;> cases split

/-- The last change decides if it is about the name, and does not matter otherwise. This is the step
from which all that is said of entries follows by induction. -/
theorem stands_snoc (event : Event) :
    Stands (past ++ [event]) name entry ↔
      (event = .kept entry.template ∧ entry.template.name = name ∧
          entry.generation = past.length + 1) ∨
        (event.name ≠ name ∧ Stands past name entry) := by
  constructor
  · rintro ⟨before, behind, split, dated, named, since⟩
    rcases List.eq_nil_or_concat behind with rfl | ⟨others, last, rfl⟩
    · obtain ⟨rfl, same⟩ := List.append_inj' split rfl
      exact .inl ⟨List.head_eq_of_cons_eq same, named, dated⟩
    · rw [List.concat_eq_append, ← List.cons_append, ← List.append_assoc] at split
      obtain ⟨rfl, same⟩ := List.append_inj' split rfl
      obtain rfl := List.head_eq_of_cons_eq same
      simp only [List.concat_eq_append, List.forall_mem_append, List.forall_mem_singleton]
        at since
      exact .inr ⟨since.2, before, others, rfl, dated, named, since.1⟩
  · rintro (⟨rfl, named, dated⟩ | ⟨apart, before, behind, rfl, dated, named, since⟩)
    · exact ⟨past, [], rfl, dated, named, fun event none => nomatch none⟩
    · refine ⟨before, behind ++ [event], by simp, dated, named, ?_⟩
      simp only [List.forall_mem_append, List.forall_mem_singleton]
      exact ⟨since, apart⟩

/-- A generation says where in the ledger its template is. -/
theorem stands_at (stands : Stands past name entry) :
    past[entry.generation - 1]? = some (.kept entry.template) := by
  obtain ⟨before, behind, rfl, dated, -⟩ := stands
  rw [dated, Nat.add_sub_cancel, List.getElem?_append_right (Nat.le_refl _), Nat.sub_self]
  rfl

/-- Generations begin at one and go no further than the number of changes. -/
theorem stands_dated (stands : Stands past name entry) :
    1 ≤ entry.generation ∧ entry.generation ≤ past.length := by
  obtain ⟨before, behind, rfl, dated, -⟩ := stands
  rw [List.length_append, List.length_cons]
  omega

/-- What a name stands for has that name. -/
theorem stands_named (stands : Stands past name entry) : entry.template.name = name := by
  obtain ⟨before, behind, split, dated, named, since⟩ := stands
  exact named

/-- A generation belongs to one template for ever, and to one name. It is the place of the template
in the ledger, and what is in a ledger stays at its place when the ledger grows. -/
theorem stands_unique {more : List Event} {otherName : String} {other : Entry}
    (stands : Stands past name entry) (later : Stands (past ++ more) otherName other)
    (same : entry.generation = other.generation) : name = otherName ∧ entry = other := by
  have inside : entry.generation - 1 < past.length := by
    have dated := stands_dated stands
    omega
  have here := stands_at stands
  have there := stands_at later
  rw [← same, List.getElem?_append_left inside, here] at there
  have template : entry.template = other.template := by
    injection there with event
    injection event
  refine ⟨?_, ?_⟩
  · rw [← stands_named stands, ← stands_named later, template]
  · cases entry
    cases other
    exact congrArg₂ Entry.mk template same

/-- Without any changes no name has a template. -/
@[simp] theorem current_nil : current? [] name = none := rfl

/-- The last change tells the template of its own name, and leaves the other names as they are. So
what is current can be followed change by change. -/
theorem current_snoc (event : Event) :
    current? (past ++ [event]) name =
      if event.name = name then event.template? else current? past name := by
  unfold current?
  rw [List.filter_append]
  split
  · next about => simp [about]
  · next apart => simp [apart]

/-- The template that is computed for a name is that of the entry the name stands for. The induction
is on the changes, from the last one back: either it is about the name and decides, or it is about
another one and does not count. -/
theorem current_iff (template : Template) :
    current? past name = some template ↔
      ∃ entry, Stands past name entry ∧ entry.template = template := by
  induction past using List.reverseRecOn with
  | nil => simp [not_stands_nil]
  | append_singleton past event inductionHypothesis =>
    rw [current_snoc]
    simp only [stands_snoc]
    by_cases about : event.name = name
    · rw [if_pos about]
      constructor
      · intro left
        refine ⟨⟨template, past.length + 1⟩, .inl ?_, rfl⟩
        cases event with
        | removed removed => cases left
        | kept kept =>
          cases left
          exact ⟨rfl, about, rfl⟩
      · rintro ⟨entry, ⟨rfl, -, -⟩ | ⟨apart, -⟩, rfl⟩
        · rfl
        · exact absurd about apart
    · rw [if_neg about, inductionHypothesis]
      refine exists_congr fun entry => and_congr_left fun _ => ?_
      constructor
      · exact fun stands => .inr ⟨about, stands⟩
      · rintro (⟨rfl, named, -⟩ | ⟨-, stands⟩)
        · exact absurd named about
        · exact stands

end Standing

/-- A registry and the changes that have led to it: the changes are counted, every entry is what its
name stands for, and the entries are in order. -/
structure Records (registry : Registry) (past : List Event) : Prop where
  counted : registry.changes = past.length
  entries : ∀ name entry, registry.entry? name = some entry ↔ Stands past name entry
  ordered : Dict.Ordered registry.entries

namespace Records

variable {registry : Registry} {past : List Event}

/-- An empty registry has no changes behind it. -/
theorem empty (trim : Bool) : Records (.empty trim) [] where
  counted := rfl
  entries _ _ := iff_of_false (fun kept => nomatch kept) not_stands_nil
  ordered := List.Pairwise.nil

/-- A template is kept at the next place. Its entry is the new one for its name, and for all other
names nothing has happened. The place is counted from one, as generations are. -/
theorem insert (records : Records registry past) (template : Template) :
    Records (registry.insert template) (past ++ [.kept template]) where
  counted := by rw [changes_insert, records.counted, List.length_append, List.length_singleton]
  entries := by
    intro name entry
    rw [entry_insert, stands_snoc]
    by_cases about : template.name = name
    · rw [if_pos about, records.counted]
      constructor
      · intro made
        obtain rfl := Option.some.inj made
        exact .inl ⟨rfl, about, rfl⟩
      · rintro (⟨same, -, dated⟩ | ⟨apart, -⟩)
        · cases entry
          cases same
          cases dated
          rfl
        · exact absurd about apart
    · rw [if_neg about, records.entries]
      constructor
      · exact fun stands => .inr ⟨about, stands⟩
      · rintro (⟨same, named, -⟩ | ⟨-, stands⟩)
        · injection same with same
          exact absurd (same ▸ named) about
        · exact stands
  ordered := Dict.ordered_insert records.ordered template.name _

/-- Whether there is a template can be told from the changes. It is asked when a name is removed,
since only a removal that finds something is a change. -/
theorem known (records : Records registry past) (name : String) :
    registry.contains name = (current? past name).isSome := by
  rw [contains, Bool.eq_iff_iff, Option.isSome_iff_exists, Option.isSome_iff_exists]
  simp only [records.entries, current_iff]
  constructor
  · rintro ⟨entry, stands⟩
    exact ⟨entry.template, entry, stands, rfl⟩
  · rintro ⟨template, entry, stands, -⟩
    exact ⟨entry, stands⟩

/-- A name is removed. The premise says that the removal succeeds; one that does not is no event. It
takes a place in the ledger, so the next generation is one further on. -/
theorem remove (records : Records registry past) {name : String}
    (known : registry.contains name = true) :
    Records (registry.remove name) (past ++ [.removed name]) where
  counted := by
    rw [Registry.remove, if_pos known, List.length_append, List.length_singleton,
      ← records.counted]
  entries := by
    intro sought entry
    rw [entry_remove, stands_snoc]
    by_cases about : name = sought
    · rw [if_pos about]
      refine iff_of_false (Option.some_ne_none entry).symm ?_
      rintro (⟨same, -⟩ | ⟨apart, -⟩)
      · cases same
      · exact apart about
    · rw [if_neg about, records.entries]
      constructor
      · exact fun stands => .inr ⟨about, stands⟩
      · rintro (⟨same, -⟩ | ⟨-, stands⟩)
        · cases same
        · exact stands
  ordered := by
    rw [Registry.remove, if_pos known]
    exact Dict.ordered_erase records.ordered name

/-- Loading files keeps the templates in them one after the other, and counts them. The induction is
over the files, with the registry and its ledger going along. -/
theorem files (records : Records registry past) (extensions : List String)
    (files : List (List FileName × List UInt8)) :
    let templates := files.filterMap (Loading.template? extensions registry.trim)
    let loaded := Loading.loadFiles extensions registry files
    loaded.1 = templates.length ∧ loaded.2.trim = registry.trim ∧
      Records loaded.2 (past ++ templates.map .kept) := by
  induction files generalizing registry past with
  | nil => exact ⟨rfl, rfl, (List.append_nil past).symm ▸ records⟩
  | cons file rest inductionHypothesis =>
    obtain ⟨path, content⟩ := file
    simp only [Loading.loadFiles, Loading.loadFile_template, List.filterMap_cons]
    cases Loading.template? extensions registry.trim (path, content) with
    | none => exact inductionHypothesis records
    | some template =>
      obtain ⟨counted, trim, kept⟩ := inductionHypothesis (records.insert template)
      refine ⟨congrArg (· + 1) counted, trim, ?_⟩
      rw [List.append_assoc] at kept
      exact kept

/-- Each step is recorded by the changes that succeed in it, and no step changes how line ends are
treated. Loading is the only step with several of them, one for each file with a template in it. -/
theorem step (records : Records registry past) (taken : Step) :
    Records (registry.step taken) (past ++ events registry.trim past taken) ∧
      (registry.step taken).trim = registry.trim := by
  cases taken with
  | register name source =>
    simp only [step_register, events]
    cases Template.ofSource name registry.trim source with
    | error refusal => exact ⟨(List.append_nil past).symm ▸ records, rfl⟩
    | ok template => exact ⟨records.insert template, rfl⟩
  | insert template => exact ⟨records.insert template, rfl⟩
  | remove name =>
    simp only [Registry.step, events, Registry.remove, ← records.known name]
    by_cases known : registry.contains name = true
    · rw [if_pos known, if_pos known]
      have removed := records.remove known
      rw [Registry.remove, if_pos known] at removed
      exact ⟨removed, rfl⟩
    · rw [if_neg known, if_neg known, List.append_nil]
      exact ⟨records, rfl⟩
  | load extensions root =>
    cases root with
    | none => exact ⟨(List.append_nil past).symm ▸ records, rfl⟩
    | some tree =>
      obtain ⟨-, trim, kept⟩ := records.files extensions tree.files
      rw [List.map_filterMap] at kept
      exact ⟨kept, trim⟩

/-- The template of a name is told by the changes, and where they tell none the name is not found.
It does not matter for this under which generation the template is kept. -/
theorem get (records : Records registry past) (name : String) :
    registry.get name =
      match current? past name with
      | some template => .ok template
      | none => .error (.notFound name) := by
  unfold Registry.get
  cases kept : registry.entry? name with
  | none =>
    have nothing : (current? past name).isSome = false := by
      rw [← records.known, contains, kept]
      rfl
    rw [Option.not_isSome_iff_eq_none.mp (Bool.eq_false_iff.mp nothing)]
  | some entry =>
    have stands := (records.entries name entry).mp kept
    rw [(current_iff entry.template).mpr ⟨entry, stands, rfl⟩]

/-- A generation is a place in the ledger. The template stands there, and no later change is about
its name. -/
theorem generation (records : Records registry past) (name : String) (generation : Nat) :
    registry.generation? name = some generation ↔
      ∃ before template behind, past = before ++ .kept template :: behind ∧
        template.name = name ∧ (∀ event ∈ behind, event.name ≠ name) ∧
        generation = before.length + 1 := by
  rw [generation?, Option.map_eq_some_iff]
  simp only [records.entries]
  constructor
  · rintro ⟨entry, ⟨before, behind, split, dated, named, since⟩, rfl⟩
    exact ⟨before, entry.template, behind, split, named, since, dated⟩
  · rintro ⟨before, template, behind, split, named, since, rfl⟩
    exact ⟨⟨template, before.length + 1⟩, ⟨before, behind, split, rfl, named, since⟩, rfl⟩

end Records

/-- The last step is taken in the registry that the steps before it have led to. -/
theorem run_snoc (trim : Bool) (steps : List Step) (last : Step) :
    run trim (steps ++ [last]) = (run trim steps).step last := by
  rw [run, List.foldl_append]
  rfl

/-- The last step adds the changes that succeed in it. -/
theorem ledger_snoc (trim : Bool) (steps : List Step) (last : Step) :
    ledger trim (steps ++ [last]) =
      ledger trim steps ++ events trim (ledger trim steps) last := by
  rw [ledger, List.foldl_append]
  rfl

/-- A run is recorded by its ledger. The induction is on the steps, from the last one back, and each
step is recorded by what is known of one step. -/
theorem records_run (trim : Bool) (steps : List Step) :
    Records (run trim steps) (ledger trim steps) ∧ (run trim steps).trim = trim := by
  induction steps using List.reverseRecOn with
  | nil => exact ⟨.empty trim, rfl⟩
  | append_singleton steps last inductionHypothesis =>
    obtain ⟨records, same⟩ := inductionHypothesis
    obtain ⟨further, kept⟩ := records.step last
    rw [same] at further kept
    rw [run_snoc, ledger_snoc]
    exact ⟨further, kept⟩

/-- A ledger only grows. A step puts the changes that it makes behind those that are there, and the
induction is on the steps from the last one. -/
theorem ledger_append (trim : Bool) (earlier later : List Step) :
    ∃ more, ledger trim (earlier ++ later) = ledger trim earlier ++ more := by
  induction later using List.reverseRecOn with
  | nil => exact ⟨[], by simp⟩
  | append_singleton later last inductionHypothesis =>
    obtain ⟨more, same⟩ := inductionHypothesis
    exact ⟨more ++ events trim (ledger trim (earlier ++ later)) last, by
      rw [← List.append_assoc, ledger_snoc, same, List.append_assoc]⟩

/-- A registry is a map with a counter. For any steps one behind the other, told by their ledger:
the template of a name is the one that the ledger holds for it; the generation of an entry is the
place of its template in the ledger, whose length is the counter; and the entry is kept under the
name of its template. What has a generation once is all that ever has it. The names are in their
order, one for each entry, and they are those with a template.

A source that is refused, and a name to remove that is not there, change nothing at all. A
directory counts as many templates as it adds to the ledger. -/
theorem run_follows_ledger (trim : Bool) (steps : List Step) :
    let registry := run trim steps
    let past := ledger trim steps
    (∀ name, registry.get name =
      match current? past name with
      | some template => .ok template
      | none => .error (.notFound name)) ∧
    (∀ name generation, registry.generation? name = some generation ↔
      ∃ before template behind, past = before ++ .kept template :: behind ∧
        template.name = name ∧ (∀ event ∈ behind, event.name ≠ name) ∧
        generation = before.length + 1) ∧
    registry.changes = past.length ∧
    (∀ name entry, registry.entry? name = some entry → entry.template.name = name) ∧
    (∀ earlier later, steps = earlier ++ later → ∀ firstName first secondName second,
      Registry.entry? (run trim earlier) firstName = some first →
      registry.entry? secondName = some second →
      first.generation = second.generation → firstName = secondName ∧ first = second) ∧
    (registry.names.Pairwise (· < ·) ∧ registry.names.length = registry.size ∧
      ∀ name, name ∈ registry.names ↔ (current? past name).isSome = true) ∧
    (∀ name source refusal, Template.ofSource name trim source = .error refusal →
      registry.register name source = .error refusal ∧
        registry.step (.register name source) = registry) ∧
    (∀ name, current? past name = none →
      registry.get name = .error (.notFound name) ∧ registry.step (.remove name) = registry) ∧
    (∀ extensions root, (Loading.load extensions root registry).1 =
      (events trim past (.load extensions root)).length) := by
  intro registry past
  obtain ⟨records, same⟩ : Records registry past ∧ registry.trim = trim := records_run trim steps
  have standing : ∀ name, registry.get name =
      match current? past name with
      | some template => .ok template
      | none => .error (.notFound name) := records.get
  refine ⟨standing, records.generation, records.counted, ?_, ?_, ?_, ?_, ?_, ?_⟩
  · exact fun name entry kept => stands_named ((records.entries name entry).mp kept)
  -- The earlier ledger begins the later one, so one generation is one place in one ledger.
  · intro earlier later steps firstName first secondName second before after
    obtain ⟨more, grown⟩ := ledger_append trim earlier later
    have recorded := (records_run trim earlier).1
    have standsLater : Stands (ledger trim earlier ++ more) secondName second := by
      rw [← grown, ← steps]
      exact (records.entries secondName second).mp after
    exact stands_unique ((recorded.entries firstName first).mp before) standsLater
  · refine ⟨records.ordered, List.length_map _, fun name => ?_⟩
    rw [← records.known name]
    exact Dict.mem_names_iff registry.entries name
  -- Nothing is written down for a source that is refused.
  · intro name source refusal refused
    rw [← same] at refused
    rw [step_register, register, refused]
    exact ⟨rfl, rfl⟩
  · intro name nothing
    rw [standing, nothing]
    refine ⟨rfl, ?_⟩
    rw [step, remove, records.known, nothing]
    rfl
  · intro extensions root
    cases root with
    | none => rfl
    | some tree =>
      obtain ⟨counted, -⟩ := records.files extensions tree.files
      rw [events, ← List.map_filterMap, List.length_map, ← same]
      exact counted

/-- After a template is registered, a removal fails and another is inserted, the second has the
second generation: what fails is not counted. Neither is a source that is refused. -/
theorem run_follows_ledger_example :
    let steps : List Step := [.register "a" "x", .remove "b", .insert ⟨"b", "y", [.text "y"]⟩]
    (run false steps).generation? "b" = some 2 ∧
      (run false steps).get "a" = .ok ⟨"a", "x", [.text "x"]⟩ ∧
      (run false steps).step (.register "a" "\x7b\x7b") = run false steps ∧
      (run false steps).step (.remove "c") = run false steps ∧
      ∀ other, Registry.entry? (run false steps) other = some ⟨⟨"a", "x", [.text "x"]⟩, 1⟩ →
        other = "a" := by
  have read : Template.ofSource "a" false "x" = .ok ⟨"a", "x", [.text "x"]⟩ := by decide +kernel
  have refused : Template.ofSource "a" false "\x7b\x7b" =
      .error ⟨.fault (.openTag .output), 1, 3⟩ := by decide +kernel
  intro steps
  have past : ledger false steps =
      [.kept ⟨"a", "x", [.text "x"]⟩, .kept ⟨"b", "y", [.text "y"]⟩] := by
    simp only [ledger, steps, List.foldl, events, read]
    rfl
  have first : Registry.entry? (run false [.register "a" "x"]) "a" =
      some ⟨⟨"a", "x", [.text "x"]⟩, 1⟩ := by
    simp only [run, List.foldl, step_register, empty, read]
    rfl
  obtain ⟨gets, dates, -, -, once, -, refuses, removes, -⟩ := run_follows_ledger false steps
  rw [past] at gets dates removes
  refine ⟨?_, ?_, (refuses "a" _ _ refused).2, (removes "c" (by decide)).2, ?_⟩
  · exact (dates "b" 2).mpr
      ⟨[.kept ⟨"a", "x", [.text "x"]⟩], ⟨"b", "y", [.text "y"]⟩, [], rfl, rfl,
        List.forall_mem_nil _, rfl⟩
  · rw [gets]
    rfl
  · intro other kept
    exact (once [.register "a" "x"] _ rfl "a" _ other _ first kept rfl).1.symm

end Registry

end Stencil
