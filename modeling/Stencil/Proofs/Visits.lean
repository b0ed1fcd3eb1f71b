import Mathlib.Data.List.TakeWhile
import Mathlib.Data.Option.Basic
import Stencil.Proofs.Directories
import Stencil.Proofs.Ledger
import Stencil.Proofs.Relative

/-!
# Loading as visiting files

To load a directory is to visit the files in it that may be templates, in the order of their paths,
and to keep what can be read. Which files are visited is told by their paths alone, and where they
come is told by comparing paths, so nothing is left of the way through the tree. Paths of different
files have different names, since names of files hold no slash: no visit undoes what an earlier one
has kept, and each file decides by itself what is registered under its name.
-/

namespace Stencil.Loading

section Extensions

/-- What is behind the last dot of a file name counts as extension if something is in front. That it
is the last dot is said by the premise. -/
theorem extension_dotted (stem : List Char) {ext : List Char} (undotted : '.' ∉ ext) :
    extension? (stem ++ '.' :: ext) = if stem = [] then none else some ext := by
  have backward : (stem ++ '.' :: ext).reverse = ext.reverse ++ '.' :: stem.reverse := by simp
  have behind : ((stem ++ '.' :: ext).reverse.takeWhile (· ≠ '.')).reverse = ext := by
    rw [backward, List.takeWhile_append_of_pos fun c member => ?_,
      List.takeWhile_cons_of_neg (by simp), List.append_nil, List.reverse_reverse]
    exact decide_eq_true fun dot => undotted (dot ▸ List.mem_reverse.mp member)
  have longer : ext.length + 1 < (stem ++ '.' :: ext).length ↔ stem ≠ [] := by
    rw [List.length_append, List.length_cons, ← List.length_pos_iff]
    omega
  simp only [extension?, behind, longer, ne_eq, ite_not]

/-- A name without a dot has no extension. -/
theorem extension_dotless {name : List Char} (undotted : '.' ∉ name) : extension? name = none := by
  have whole : name.reverse.takeWhile (· ≠ '.') = name.reverse := by
    refine List.takeWhile_eq_self_iff.mpr fun c member => ?_
    exact decide_eq_true fun dot => undotted (dot ▸ List.mem_reverse.mp member)
  simp only [extension?, whole, List.reverse_reverse]
  exact if_neg (by omega)

/-- The extension of a file name is what follows the last dot in it, if something is in front of
that dot. So a name that begins with its only dot has none. -/
theorem extension_iff {name ext : List Char} : extension? name = some ext ↔
    ∃ stem, stem ≠ [] ∧ name = stem ++ '.' :: ext ∧ '.' ∉ ext := by
  constructor
  · intro found
    by_cases dotted : '.' ∈ name
    · obtain ⟨behind, front, backward, undotted⟩ :=
        List.eq_append_cons_of_mem (List.mem_reverse.mpr dotted)
      have parts : name = front.reverse ++ '.' :: behind.reverse := by
        rw [← List.reverse_reverse name, backward]
        simp
      rw [← List.mem_reverse] at undotted
      rw [parts, extension_dotted _ undotted] at found
      obtain ⟨filled, same⟩ := Option.ite_none_left_eq_some.mp found
      obtain rfl := Option.some.inj same
      exact ⟨front.reverse, filled, parts, undotted⟩
    · rw [extension_dotless dotted] at found
      cases found
  · rintro ⟨stem, filled, rfl, undotted⟩
    rw [extension_dotted stem undotted, if_neg filled]

/-- A file name that a template may have: it has one of the extensions, if case is left out in the
name. The extensions are taken as they are. -/
def Fits (extensions : List String) (name : String) : Prop :=
  ∃ stem ext : List Char, stem ≠ [] ∧ name.toList = stem ++ '.' :: ext ∧ '.' ∉ ext ∧
    String.ofList (Text.lower ext) ∈ extensions

/-- The check on file names is this condition. Only the extension of the file is put in lower case,
and it is then looked for in the list as it stands. -/
theorem isTemplate_iff {extensions : List String} {name : String} :
    isTemplate extensions name = true ↔ Fits extensions name := by
  unfold isTemplate
  constructor
  · intro fits
    cases found : extension? name.toList with
    | none => simp [found] at fits
    | some ext =>
      obtain ⟨stem, filled, parts, undotted⟩ := extension_iff.mp found
      simp only [found] at fits
      exact ⟨stem, ext, filled, parts, undotted, List.contains_iff_mem.mp fits⟩
  · rintro ⟨stem, ext, filled, parts, undotted, listed⟩
    rw [extension_iff.mpr ⟨stem, filled, parts, undotted⟩]
    exact List.contains_iff_mem.mpr listed

end Extensions

/-- A file that may be a template: its path, the texts in it, and what is in the file. The texts are
kept with the path, so that its name is put together without reading the path again. -/
structure Visit where
  path : List FileName
  segments : List String
  content : List UInt8

namespace Visit

/-- The name of a template in the file: the texts of its path with slashes between them. -/
def name (visit : Visit) : String := String.intercalate "/" visit.segments

/-- The template in the file, if it is text and can be read under its name. Bytes that are no text
and sources that are refused are passed over alike. -/
def template? (trim : Bool) (visit : Visit) : Option Template := do
  let source ← text? visit.content
  (Template.ofSource visit.name trim source).toOption

/-- The visits that a directory asks for: files below its root whose paths are text, with one of the
extensions. Whether a file can be read as a template is not asked. -/
structure Sought (extensions : List String) (tree : Tree) (visit : Visit) : Prop where
  below : visit.path ≠ []
  isFile : tree.at? visit.path = some (.file visit.content)
  isText : visit.path.mapM text? = some visit.segments
  fits : ∃ leaf ∈ visit.segments.getLast?, Fits extensions leaf

end Visit

/-- The visit of a file, if it is asked for. All parts of its path must be text, since its name is
made from them, and its extension must be one of those given. -/
def visit? (extensions : List String) (file : List FileName × List UInt8) : Option Visit := do
  let segments ← file.1.mapM text?
  guard (isTemplate extensions (← segments.getLast?))
  return ⟨file.1, segments, file.2⟩

/-- Keep the template in a file, if there is one, and count it. The registry says how it is read,
and a file without a template leaves it as it is. -/
def keep (loaded : Nat × Registry) (visit : Visit) : Nat × Registry :=
  match visit.template? loaded.2.trim with
  | some template => (loaded.1 + 1, loaded.2.insert template)
  | none => loaded

section Visiting

variable (extensions : List String)

/-- A file is visited exactly if its path is text and the last text fits, and the visit has what is
in the file. -/
theorem visit_iff {file : List FileName × List UInt8} {visit : Visit} :
    visit? extensions file = some visit ↔ file = (visit.path, visit.content) ∧
      visit.path.mapM text? = some visit.segments ∧
      ∃ leaf ∈ visit.segments.getLast?, Fits extensions leaf := by
  obtain ⟨path, content⟩ := file
  simp only [visit?, Option.bind_eq_bind, Option.bind_eq_some_iff, Option.guard_eq_some',
    isTemplate_iff]
  constructor
  · rintro ⟨segments, read, leaf, last, -, fits, made⟩
    cases made
    exact ⟨rfl, read, leaf, last, fits⟩
  · rintro ⟨same, read, leaf, last, fits⟩
    cases same
    exact ⟨visit.segments, read, leaf, last, (), fits, rfl⟩

/-- The template in a file is the one that a visit of it finds. Where no visit is asked for there is
no template. -/
theorem template_visit (trim : Bool) (file : List FileName × List UInt8) :
    template? extensions trim file = (visit? extensions file).bind (Visit.template? trim) := by
  unfold template? templateName? visit?
  cases file.1.mapM text? with
  | none => rfl
  | some segments =>
    cases last : segments.getLast? with
    | none => simp [last]
    | some leaf =>
      cases fits : isTemplate extensions leaf <;>
        simp [last, fits, guard, Visit.template?, Visit.name]

/-- Loading files is keeping what the visits find, one after the other. The count and the registry
that it starts with are general, since the induction on the files changes both. -/
theorem loadFiles_visits (files : List (List FileName × List UInt8)) (count : Nat)
    (registry : Registry) :
    (files.filterMap (visit? extensions)).foldl keep (count, registry) =
      let loaded := loadFiles extensions registry files
      (count + loaded.1, loaded.2) := by
  induction files generalizing count registry with
  | nil => rfl
  | cons file rest inductionHypothesis =>
    obtain ⟨path, content⟩ := file
    simp only [loadFiles, loadFile_template, template_visit, List.filterMap_cons]
    cases visit? extensions (path, content) with
    | none => exact inductionHypothesis count registry
    | some visit =>
      rw [List.foldl_cons, keep]
      simp only [Option.bind_some]
      cases visit.template? registry.trim with
      | none => exact inductionHypothesis count registry
      | some template =>
        refine (inductionHypothesis (count + 1) (registry.insert template)).trans ?_
        simp only [Option.map_some, Nat.add_assoc, Nat.add_comm 1]

end Visiting

section Names

/-- A path is made of the bytes of the texts that it is read as, so different paths are read as
different texts. -/
theorem path_of_texts {path : List FileName} {texts : List String}
    (read : path.mapM text? = some texts) :
    path = texts.map fun text => text.toList.flatMap String.utf8EncodeChar := by
  induction path generalizing texts with
  | nil =>
    obtain rfl := Option.some.inj read
    rfl
  | cons part rest inductionHypothesis =>
    simp only [List.mapM_cons, Option.bind_eq_bind, Option.bind_eq_some_iff] at read
    obtain ⟨first, here, others, behind, made⟩ := read
    obtain rfl := Option.some.inj made
    rw [List.map_cons, ← bytes_of_text here, ← inductionHypothesis behind]

variable {extensions : List String} {tree : Tree} {visit other : Visit}

/-- The names on the way to a file that is asked for can be read off the name of its template. They
hold no slash, so each slash of the name is one that has joined two of them. -/
theorem split_name (sought : visit.Sought extensions tree)
    (proper : ∀ part ∈ visit.path, part.Proper) :
    Path.split visit.name.toList = visit.segments.map String.toList := by
  have filled : visit.segments.map String.toList ≠ [] := by
    obtain ⟨leaf, last, -⟩ := sought.fits
    rintro none
    rw [List.map_eq_nil_iff.mp none] at last
    cases last
  rw [Visit.name, Path.join_texts]
  refine Path.split_join filled fun segment member => ?_
  obtain ⟨text, kept, rfl⟩ := List.mem_map.mp member
  obtain ⟨part, inside, same⟩ := texts_read sought.isText text kept
  exact (ordinary_of_proper (proper part inside) same).slashless

/-- Different files have different names. So no visit can undo what another one has done. -/
theorem path_of_name (sought : visit.Sought extensions tree)
    (otherSought : other.Sought extensions tree) (proper : ∀ part ∈ visit.path, part.Proper)
    (otherProper : ∀ part ∈ other.path, part.Proper) (same : visit.name = other.name) :
    visit.path = other.path := by
  have segments := split_name sought proper
  rw [same, split_name otherSought otherProper] at segments
  have texts : other.segments = visit.segments :=
    List.map_injective_iff.mpr (fun _ _ same => String.toList_injective same) segments
  rw [path_of_texts sought.isText, path_of_texts otherSought.isText, texts]

end Names

section Keeping

variable {visits : List Visit} {visit : Visit} {loaded : Nat × Registry} {template : Template}

/-- Whether a file has a template in it. -/
def Visit.isReadable (trim : Bool) (visit : Visit) : Bool := (visit.template? trim).isSome

/-- The template that a visit finds has the name of the visit. It was read for that name, and
reading does not change it. -/
theorem template_named {trim : Bool} (found : visit.template? trim = some template) :
    template.name = visit.name := by
  simp only [Visit.template?, Option.bind_eq_bind, Option.bind_eq_some_iff] at found
  obtain ⟨source, -, read⟩ := found
  cases outcome : Template.ofSource visit.name trim source with
  | error refusal => simp [outcome, Except.toOption] at read
  | ok kept =>
    obtain rfl : kept = template := by simpa [outcome, Except.toOption] using read
    exact (Template.source_shape outcome).1

/-- A visit that finds nothing changes nothing. -/
theorem keep_none (found : visit.template? loaded.2.trim = none) : keep loaded visit = loaded := by
  rw [keep, found]

/-- A visit that finds a template counts it and puts it into the registry. -/
theorem keep_some (found : visit.template? loaded.2.trim = some template) :
    keep loaded visit = (loaded.1 + 1, loaded.2.insert template) := by
  rw [keep, found]

/-- A visit leaves everything under other names as it is, whether it finds a template or not. -/
theorem keep_elsewhere {name : String} (apart : name ≠ visit.name) :
    Registry.entry? (keep loaded visit).2 name = Registry.entry? loaded.2 name := by
  cases found : visit.template? loaded.2.trim with
  | none => rw [keep_none found]
  | some template =>
    rw [keep_some found, Registry.entry_insert, template_named found, if_neg (Ne.symm apart)]

/-- What is counted is what the registry counts, and what has a template in it. Keeping changes no
other part of the registry that later visits look at. -/
theorem keep_counts (loaded : Nat × Registry) (visit : Visit) :
    let one := if visit.isReadable loaded.2.trim then 1 else 0
    (keep loaded visit).1 = loaded.1 + one ∧
      (keep loaded visit).2.changes = loaded.2.changes + one ∧
      (keep loaded visit).2.trim = loaded.2.trim := by
  cases found : visit.template? loaded.2.trim with
  | none =>
    rw [keep_none found, Visit.isReadable, found]
    exact ⟨rfl, rfl, rfl⟩
  | some template =>
    rw [keep_some found, Visit.isReadable, found]
    exact ⟨rfl, rfl, rfl⟩

/-- So it is with several visits: everything under names that are not visited stays as it is. The
induction is on the visits, from any count and registry. -/
theorem kept_elsewhere (loaded : Nat × Registry) {name : String}
    (apart : name ∉ visits.map Visit.name) :
    Registry.entry? (visits.foldl keep loaded).2 name = Registry.entry? loaded.2 name := by
  induction visits generalizing loaded with
  | nil => rfl
  | cons visit rest inductionHypothesis =>
    obtain ⟨here, later⟩ := not_or.mp (mt List.mem_cons.mpr apart)
    rw [List.foldl_cons, inductionHypothesis _ later, keep_elsewhere here]

/-- And they are counted: the count and the counter of the registry go up together, by one for every
visit that finds a template. The induction is on the visits; how line ends are treated stays, so all
of them are read alike. -/
theorem kept_counts (loaded : Nat × Registry) (visits : List Visit) :
    let count := visits.countP (Visit.isReadable loaded.2.trim)
    (visits.foldl keep loaded).1 = loaded.1 + count ∧
      (visits.foldl keep loaded).2.changes = loaded.2.changes + count ∧
      (visits.foldl keep loaded).2.trim = loaded.2.trim := by
  induction visits generalizing loaded with
  | nil => exact ⟨rfl, rfl, rfl⟩
  | cons visit rest inductionHypothesis =>
    obtain ⟨counted, changed, trim⟩ := keep_counts loaded visit
    obtain ⟨countedRest, changedRest, trimRest⟩ := inductionHypothesis (keep loaded visit)
    rw [trim] at countedRest changedRest trimRest
    simp only [List.foldl_cons, List.countP_cons]
    refine ⟨?_, ?_, trimRest⟩
    · rw [countedRest, counted]
      omega
    · rw [changedRest, changed]
      omega

/-- Where names are visited once, each name is decided by its own visit: what has been there stays
if nothing can be read, and else the template is there, with a generation of its own. The visits
before it and behind it leave its name alone. -/
theorem kept_here (loaded : Nat × Registry) (distinct : (visits.map Visit.name).Nodup)
    (member : visit ∈ visits) :
    let after := (visits.foldl keep loaded).2
    match visit.template? loaded.2.trim with
    | none => after.entry? visit.name = Registry.entry? loaded.2 visit.name
    | some template => ∃ generation, loaded.2.changes < generation ∧
        generation ≤ after.changes ∧ after.entry? visit.name = some ⟨template, generation⟩ := by
  induction visits generalizing loaded with
  | nil => cases member
  | cons first rest inductionHypothesis =>
    obtain ⟨alone, others⟩ := List.nodup_cons.mp distinct
    obtain ⟨-, changed, trim⟩ := keep_counts loaded first
    rcases List.mem_cons.mp member with rfl | later
    · cases found : visit.template? loaded.2.trim with
      | none =>
        simp only [List.foldl_cons, kept_elsewhere _ alone, keep_none found]
      | some template =>
        obtain ⟨-, changedRest, -⟩ := kept_counts (keep loaded visit) rest
        refine ⟨loaded.2.changes + 1, Nat.lt_succ_self _, ?_, ?_⟩
        · rw [List.foldl_cons, changedRest, keep_some found]
          exact Nat.le_add_right _ _
        · rw [List.foldl_cons, kept_elsewhere _ alone, keep_some found, Registry.entry_insert,
            if_pos (template_named found)]
    · have apart : visit.name ≠ first.name := fun same =>
        alone (same ▸ List.mem_map_of_mem later)
      have decided := inductionHypothesis (keep loaded first) others later
      rw [trim, keep_elsewhere apart, changed] at decided
      cases found : visit.template? loaded.2.trim with
      | none =>
        rw [found] at decided
        exact decided
      | some template =>
        rw [found] at decided
        obtain ⟨generation, newer, counted, kept⟩ := decided
        exact ⟨generation, Nat.lt_of_le_of_lt (Nat.le_add_right _ _) newer, counted, kept⟩

end Keeping

section Directories

variable {extensions : List String} {tree : Tree}

/-- The visits of a directory in their order, which is that of the files when the directory is
walked. -/
def visits (extensions : List String) (tree : Tree) : List Visit :=
  tree.files.filterMap (visit? extensions)

/-- Those files are visited that are asked for. The listing of an ordered directory has every file
of it, at any depth. -/
theorem mem_visits (ordered : tree.Ordered) {visit : Visit} :
    visit ∈ visits extensions tree ↔ visit.Sought extensions tree := by
  simp only [visits, List.mem_filterMap, visit_iff]
  constructor
  · rintro ⟨file, member, rfl, isText, fits⟩
    obtain ⟨below, isFile⟩ := (Tree.mem_files ordered _).mp member
    exact ⟨below, isFile, isText, fits⟩
  · rintro ⟨below, isFile, isText, fits⟩
    exact ⟨_, (Tree.mem_files ordered (visit.path, visit.content)).mpr ⟨below, isFile⟩, rfl,
      isText, fits⟩

/-- They are visited in the order of their paths, which is the order in which the listing has the
files. -/
theorem ascending_visits (ordered : tree.Ordered) :
    ((visits extensions tree).map Visit.path).Pairwise (· < ·) := by
  have files := Tree.ascending_filesOfEntries (Tree.ordered_entries ordered) []
  rw [List.pairwise_map] at files ⊢
  refine files.filterMap _ fun early late before visit isEarly other isLate => ?_
  obtain ⟨rfl, -⟩ := (visit_iff extensions).mp isEarly
  obtain ⟨rfl, -⟩ := (visit_iff extensions).mp isLate
  exact before

/-- No two of them have one name. Their paths ascend, so no two are the same, and different paths
have different names. -/
theorem distinct_visits (proper : tree.Proper) (ordered : tree.Ordered) :
    ((visits extensions tree).map Visit.name).Nodup := by
  have parts {visit : Visit} (sought : visit.Sought extensions tree) :
      ∀ part ∈ visit.path, part.Proper :=
    Tree.files_proper proper (visit.path, visit.content)
      ((Tree.mem_files ordered _).mpr ⟨sought.below, sought.isFile⟩)
  refine List.pairwise_map.mpr ?_
  refine (List.pairwise_map.mp (ascending_visits ordered)).imp_of_mem ?_
  intro visit other member otherMember before same
  have sought := (mem_visits ordered).mp member
  have otherSought := (mem_visits ordered).mp otherMember
  have paths := path_of_name sought otherSought (parts sought) (parts otherSought) same
  exact List.lt_irrefl _ (paths ▸ before)

end Directories

/-- Loading a directory is visiting its files in order. The files that are visited are those at any
depth below the root that have text for a path and one of the extensions. They are visited in the
order of their paths, name by name and byte by byte, and no two of them have one name. Each visit
registers the template in the file under the name of the file if there is one, and counts it, and
does nothing else otherwise. So the count is the number of files with a template in them, and what
the registry has counted meanwhile; the name of each of these files stands for its template, and
whatever was registered under any other name still is, also under the name of a file that cannot be
read. -/
theorem load_visits_files (extensions : List String) (registry : Registry) {tree : Tree}
    (proper : tree.Proper) (ordered : tree.Ordered) :
    ∃ visits : List Visit,
      (∀ visit, visit ∈ visits ↔ visit.Sought extensions tree) ∧
      (visits.map Visit.path).Pairwise (· < ·) ∧
      (visits.map Visit.name).Nodup ∧
      load extensions (some tree) registry = visits.foldl keep (0, registry) ∧
      let loaded := load extensions (some tree) registry
      loaded.1 = visits.countP (Visit.isReadable registry.trim) ∧
      loaded.2.changes = registry.changes + loaded.1 ∧
      (∀ visit ∈ visits, match visit.template? registry.trim with
        | none => Registry.entry? loaded.2 visit.name = registry.entry? visit.name
        | some template => ∃ generation, registry.changes < generation ∧
            generation ≤ loaded.2.changes ∧
            Registry.entry? loaded.2 visit.name = some ⟨template, generation⟩) ∧
      ∀ name, name ∉ visits.map Visit.name →
        Registry.entry? loaded.2 name = registry.entry? name := by
  have loads : load extensions (some tree) registry =
      (visits extensions tree).foldl keep (0, registry) := by
    rw [visits, loadFiles_visits, load]
    simp
  have distinct : ((visits extensions tree).map Visit.name).Nodup :=
    distinct_visits proper ordered
  obtain ⟨counted, changed, -⟩ := kept_counts (0, registry) (visits extensions tree)
  refine ⟨visits extensions tree, fun visit => mem_visits ordered, ascending_visits ordered,
    distinct, loads, ?_⟩
  rw [loads]
  refine ⟨?_, ?_, ?_, ?_⟩
  · rw [counted, Nat.zero_add]
  · rw [changed, counted, Nat.zero_add]
  · exact fun visit member => kept_here (0, registry) distinct member
  · exact fun name apart => kept_elsewhere (0, registry) apart

/-- In a directory called `a.html` the file `b.HTML` has a template in it. The file `c.html` is no
text, and the template of that name stays. The directory itself is no file, whatever its name ends
with. -/
theorem load_visits_files_site :
    let tree : Tree := .ofList [
      ([[0x63, 0x2E, 0x68, 0x74, 0x6D, 0x6C]], some [0xFF]),
      ([[0x61, 0x2E, 0x68, 0x74, 0x6D, 0x6C], [0x62, 0x2E, 0x48, 0x54, 0x4D, 0x4C]], some [0x78])]
    let registry := (Registry.empty false).insert ⟨"c.html", "y", [.text "y"]⟩
    let loaded := load ["html"] (some tree) registry
    tree.Proper ∧ tree.Ordered ∧
      Registry.entry? loaded.2 "c.html" = some ⟨⟨"c.html", "y", [.text "y"]⟩, 1⟩ ∧
      ∃ generation, 1 < generation ∧ generation ≤ loaded.2.changes ∧
        Registry.entry? loaded.2 "a.html/b.HTML" =
          some ⟨⟨"a.html/b.HTML", "x", [.text "x"]⟩, generation⟩ := by
  intro tree registry loaded
  have made : tree = .directory [
      ([0x61, 0x2E, 0x68, 0x74, 0x6D, 0x6C],
        .directory [([0x62, 0x2E, 0x48, 0x54, 0x4D, 0x4C], .file [0x78])]),
      ([0x63, 0x2E, 0x68, 0x74, 0x6D, 0x6C], .file [0xFF])] := by
    simp only [tree]
    rfl
  have proper : tree.Proper := by
    rw [made]
    simp only [Tree.Proper, Tree.ProperEntries]
    decide
  have ordered : tree.Ordered := Tree.ordered_ofList _
  let broken : Visit := ⟨[[0x63, 0x2E, 0x68, 0x74, 0x6D, 0x6C]], ["c.html"], [0xFF]⟩
  let nested : Visit := ⟨[[0x61, 0x2E, 0x68, 0x74, 0x6D, 0x6C],
    [0x62, 0x2E, 0x48, 0x54, 0x4D, 0x4C]], ["a.html", "b.HTML"], [0x78]⟩
  have lower : Fits ["html"] "c.html" := by
    refine ⟨['c'], ['h', 't', 'm', 'l'], List.cons_ne_nil _ _, rfl, by decide, ?_⟩
    exact List.mem_singleton.mpr rfl
  have upper : Fits ["html"] "b.HTML" := by
    refine ⟨['b'], ['H', 'T', 'M', 'L'], List.cons_ne_nil _ _, rfl, by decide, ?_⟩
    exact List.mem_singleton.mpr rfl
  have textBroken : broken.path.mapM text? = some broken.segments := by
    simp only [broken]
    rfl
  have textNested : nested.path.mapM text? = some nested.segments := by
    simp only [nested]
    rfl
  have soughtBroken : broken.Sought ["html"] tree :=
    ⟨List.cons_ne_nil _ _, made ▸ rfl, textBroken, "c.html", rfl, lower⟩
  have soughtNested : nested.Sought ["html"] tree :=
    ⟨List.cons_ne_nil _ _, made ▸ rfl, textNested, "b.HTML", rfl, upper⟩
  have unreadable : broken.template? false = none := by
    simp only [broken]
    rfl
  have readable : nested.template? false = some ⟨"a.html/b.HTML", "x", [.text "x"]⟩ := by
    simp only [nested]
    decide +kernel
  have named : broken.name = "c.html" := rfl
  have nestedName : nested.name = "a.html/b.HTML" := rfl
  obtain ⟨visits, sought, -, -, -, -, -, decides, -⟩ :=
    load_visits_files ["html"] registry proper ordered
  have stays := decides broken ((sought broken).mpr soughtBroken)
  have found := decides nested ((sought nested).mpr soughtNested)
  rw [show registry.trim = false from rfl, unreadable] at stays
  rw [show registry.trim = false from rfl, readable] at found
  refine ⟨proper, ordered, ?_, ?_⟩
  · rw [← named]
    exact stays
  · rw [← nestedName]
    exact found

end Stencil.Loading
