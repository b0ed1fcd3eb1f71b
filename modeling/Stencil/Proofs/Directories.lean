import Stencil.Directory.Basic

/-!
# Trees in order

The entries of a directory come in the order of their names, and no two of them have one name. A
tree in which this holds of every directory is told by what is at its paths: its files are what is
found at the paths below its root and is a file, each of them once. Going through the tree depth
first meets them in the order of their paths, where two paths are compared name by name: what two
files have in common is the way to a directory, and there the one comes from an earlier entry.
-/

namespace Stencil.Tree

mutual

/-- The entries of every directory in a tree are in the order of their names, each of another
name. -/
def Ordered : Tree → Prop
  | .file _ => True
  | .directory entries => OrderedEntries entries

/-- Entries are in the order of their names, and so are the entries in each of them. The order is
strict, so no two entries of a directory have the same name. -/
def OrderedEntries : List (FileName × Tree) → Prop
  | [] => True
  | (name, tree) :: rest => (∀ other ∈ rest, name < other.1) ∧ Ordered tree ∧ OrderedEntries rest

end

section Making

/-- The entries of a tree in order are in order; a file has none. -/
theorem ordered_entries {tree : Tree} (ordered : tree.Ordered) : OrderedEntries tree.entries := by
  cases tree with
  | file content => trivial
  | directory entries => exact ordered

/-- An entry that is changed or made has been there before, or has the name that is sought. So no
other name comes into a directory. The induction is on the entries, in the three ways in which names
compare. -/
theorem alter_names {name : FileName} {change : Option Tree → Tree}
    {entries : List (FileName × Tree)} {entry : FileName × Tree}
    (member : entry ∈ alter name change entries) : entry.1 = name ∨ entry ∈ entries := by
  induction entries with
  | nil =>
    obtain rfl := List.mem_singleton.mp member
    exact .inl rfl
  | cons head rest inductionHypothesis =>
    obtain ⟨other, tree⟩ := head
    unfold alter at member
    split at member
    · rcases List.mem_cons.mp member with rfl | later
      · exact .inr List.mem_cons_self
      · exact (inductionHypothesis later).imp_right (List.mem_cons_of_mem _)
    · split at member
      · rcases List.mem_cons.mp member with rfl | later
        · exact .inl rfl
        · exact .inr (List.mem_cons_of_mem _ later)
      · rcases List.mem_cons.mp member with rfl | later
        · exact .inl rfl
        · exact .inr later

/-- An entry is changed or made at its place. The premise asks that what is made of it is in order,
whether there was an entry or not. The induction is on the entries; a new one is less than those
behind it by transitivity. -/
theorem ordered_alter {name : FileName} {change : Option Tree → Tree}
    (changed : ∀ there : Option Tree, (∀ tree ∈ there, tree.Ordered) → (change there).Ordered)
    {entries : List (FileName × Tree)} (ordered : OrderedEntries entries) :
    OrderedEntries (alter name change entries) := by
  induction entries with
  | nil => exact ⟨List.forall_mem_nil _, changed none nofun, trivial⟩
  | cons head rest inductionHypothesis =>
    obtain ⟨other, tree⟩ := head
    obtain ⟨first, inside, behind⟩ := ordered
    unfold alter
    split
    · next before =>
      refine ⟨fun entry member => ?_, inside, inductionHypothesis behind⟩
      rcases alter_names member with named | kept
      · exact named ▸ before
      · exact first entry kept
    · next notBefore =>
      split
      · next same =>
        refine ⟨same ▸ first, changed _ ?_, behind⟩
        rintro _ ⟨⟩
        exact inside
      · next apart =>
        have before : name < other :=
          (List.le_iff_lt_or_eq.mp (List.not_lt.mp notBefore)).resolve_right (Ne.symm apart)
        refine ⟨List.forall_mem_cons.mpr ⟨before, fun entry member => ?_⟩, changed none nofun,
          first, inside, behind⟩
        exact List.lt_trans before (first entry member)

/-- Putting something at a path leaves a tree in order. The induction is on the path: each name of
it changes one entry. -/
theorem ordered_place (content : Option (List UInt8)) (path : List FileName) {there : Option Tree}
    (ordered : ∀ tree ∈ there, tree.Ordered) : (place content path there).Ordered := by
  have inside (there : Option Tree) (ordered : ∀ tree ∈ there, tree.Ordered) :
      OrderedEntries ((there.map entries).getD []) := by
    cases there with
    | none => trivial
    | some tree => exact ordered_entries (ordered tree rfl)
  induction path generalizing there with
  | nil =>
    cases content with
    | some content => trivial
    | none => exact inside there ordered
  | cons name rest inductionHypothesis =>
    exact ordered_alter (fun other held => inductionHypothesis held) (inside there ordered)

/-- However files and directories are placed, the tree is in order. Each of them is put into what
those before it have made. -/
theorem ordered_ofList (placed : List (List FileName × Option (List UInt8))) :
    (ofList placed).Ordered := by
  unfold ofList
  have start : (Tree.directory []).Ordered := trivial
  generalize Tree.directory [] = tree at start
  induction placed generalizing tree with
  | nil => exact start
  | cons first rest inductionHypothesis =>
    refine inductionHypothesis _ (ordered_place first.2 first.1 ?_)
    rintro _ ⟨⟩
    exact start

end Making

section Finding

/-- What is found under a name is an entry. -/
theorem mem_of_lookup {name : FileName} {tree : Tree} {entries : List (FileName × Tree)}
    (found : entries.lookup name = some tree) : (name, tree) ∈ entries := by
  obtain ⟨before, behind, rfl, -⟩ := List.lookup_eq_some_iff.mp found
  exact List.mem_append_right _ List.mem_cons_self

/-- Under the name of the first of several entries there is that entry; what is behind it has other
names. -/
theorem lookup_first {name other : FileName} {tree : Tree} {rest : List (FileName × Tree)}
    (first : ∀ entry ∈ rest, name < entry.1) (found : Tree) :
    ((name, tree) :: rest).lookup other = some found ↔
      other = name ∧ tree = found ∨ rest.lookup other = some found := by
  rw [List.lookup_cons]
  by_cases same : other = name
  · subst same
    have absent : rest.lookup other ≠ some found := fun later =>
      List.lt_irrefl other (first _ (mem_of_lookup later))
    simp [absent]
  · simp [beq_eq_false_iff_ne.mpr same, same]

mutual

/-- The files of a tree are what is found in it and is a file. The names on the way to the tree are
in front of each path. Order is needed because looking up takes the first entry of a name. -/
theorem mem_filesBelow {tree : Tree} (ordered : tree.Ordered) (path : List FileName)
    (file : List FileName × List UInt8) : file ∈ tree.filesBelow path ↔
      ∃ rest, file.1 = path ++ rest ∧ tree.at? rest = some (.file file.2) := by
  cases tree with
  | file content =>
    obtain ⟨place, bytes⟩ := file
    rw [filesBelow, List.mem_singleton, Prod.mk.injEq]
    constructor
    · rintro ⟨rfl, rfl⟩
      exact ⟨[], (List.append_nil place).symm, rfl⟩
    · rintro ⟨rest, way, found⟩
      cases rest with
      | nil =>
        cases found
        exact ⟨way.trans (List.append_nil path), rfl⟩
      | cons name rest => cases found
  | directory entries =>
    refine (mem_filesOfEntries ordered path file).trans ⟨?_, ?_⟩
    · rintro ⟨name, rest, way, tree, entry, found⟩
      exact ⟨name :: rest, way, Option.bind_eq_some_iff.mpr ⟨tree, entry, found⟩⟩
    · rintro ⟨rest, way, found⟩
      cases rest with
      | nil => cases found
      | cons name rest =>
        obtain ⟨tree, entry, inside⟩ := Option.bind_eq_some_iff.mp found
        exact ⟨name, rest, way, tree, entry, inside⟩

/-- So are the files of entries, each found by way of one of them. The two statements are proved
together, along the tree: a path begins with the name of an entry and goes on inside of it. -/
theorem mem_filesOfEntries {entries : List (FileName × Tree)} (ordered : OrderedEntries entries)
    (path : List FileName) (file : List FileName × List UInt8) :
    file ∈ filesOfEntries path entries ↔ ∃ name rest, file.1 = path ++ name :: rest ∧
      ∃ tree, entries.lookup name = some tree ∧ tree.at? rest = some (.file file.2) := by
  cases entries with
  | nil =>
    refine iff_of_false nofun ?_
    rintro ⟨name, rest, way, tree, entry, found⟩
    cases entry
  | cons entry rest =>
    obtain ⟨name, tree⟩ := entry
    obtain ⟨first, inside, behind⟩ := ordered
    rw [filesOfEntries, List.mem_append, mem_filesBelow inside, mem_filesOfEntries behind]
    constructor
    · rintro (⟨further, way, found⟩ | ⟨other, further, way, next, entry, found⟩)
      · refine ⟨name, further, ?_, tree, (lookup_first first tree).mpr (.inl ⟨rfl, rfl⟩), found⟩
        rw [way, List.append_assoc, List.singleton_append]
      · exact ⟨other, further, way, next, (lookup_first first next).mpr (.inr entry), found⟩
    · rintro ⟨other, further, way, next, entry, found⟩
      rcases (lookup_first first next).mp entry with ⟨rfl, rfl⟩ | later
      · refine .inl ⟨further, ?_, found⟩
        rw [way, List.append_assoc, List.singleton_append]
      · exact .inr ⟨other, further, way, next, later, found⟩

end

/-- The files of a tree are at the paths below its root where there is a file. A tree that is a file
itself has none below. -/
theorem mem_files {tree : Tree} (ordered : tree.Ordered) (file : List FileName × List UInt8) :
    file ∈ tree.files ↔ file.1 ≠ [] ∧ tree.at? file.1 = some (.file file.2) := by
  obtain ⟨path, content⟩ := file
  refine (mem_filesOfEntries (ordered_entries ordered) [] (path, content)).trans ?_
  constructor
  · rintro ⟨name, rest, rfl, next, entry, found⟩
    exact ⟨List.cons_ne_nil name rest, Option.bind_eq_some_iff.mpr ⟨next, entry, found⟩⟩
  · rintro ⟨below, found⟩
    obtain ⟨name, rest, rfl⟩ := List.exists_cons_of_ne_nil below
    obtain ⟨next, entry, inside⟩ := Option.bind_eq_some_iff.mp found
    exact ⟨name, rest, rfl, next, entry, inside⟩

mutual

/-- Files are met in the order of their paths. The names on the way are common to all of them, so
they do not count. -/
theorem ascending_filesBelow {tree : Tree} (ordered : tree.Ordered) (path : List FileName) :
    ((tree.filesBelow path).map Prod.fst).Pairwise (· < ·) := by
  cases tree with
  | file content => exact List.pairwise_singleton _ path
  | directory entries => exact ascending_filesOfEntries ordered path

/-- Entries one behind the other have the files of the first in front, since its name comes first.
Paths are compared name by name, so it does not matter how deep the files are. -/
theorem ascending_filesOfEntries {entries : List (FileName × Tree)}
    (ordered : OrderedEntries entries) (path : List FileName) :
    ((filesOfEntries path entries).map Prod.fst).Pairwise (· < ·) := by
  cases entries with
  | nil => exact .nil
  | cons entry rest =>
    obtain ⟨name, tree⟩ := entry
    obtain ⟨first, inside, behind⟩ := ordered
    rw [filesOfEntries, List.map_append, List.pairwise_append]
    refine ⟨ascending_filesBelow inside _, ascending_filesOfEntries behind path, ?_⟩
    intro early inEarly late inLate
    obtain ⟨file, member, rfl⟩ := List.mem_map.mp inEarly
    obtain ⟨other, later, rfl⟩ := List.mem_map.mp inLate
    obtain ⟨further, way, -⟩ := (mem_filesBelow inside _ file).mp member
    obtain ⟨next, beyond, wayLater, tree, entry, -⟩ :=
      (mem_filesOfEntries behind path other).mp later
    -- The two paths part at the names of their entries.
    rw [way, wayLater, List.append_assoc, List.singleton_append]
    exact List.append_left_lt (List.cons_lt_cons_iff.mpr (.inl (first _ (mem_of_lookup entry))))

end

end Finding

end Stencil.Tree
