import Stencil.Proofs.Boundaries
import Stencil.Proofs.Casing
import Stencil.Proofs.Joining
import Stencil.Proofs.Visits

/-!
# Extensions and case

Case is left out in the names of files and nowhere else. What is compared with the extensions asked
for is the lower case of the extension of a file, and lower case of lower case is the same; so an
extension that is asked for in any other way finds nothing, and two lists of extensions find the
same in all directories exactly if they hold the same extensions in lower case.

For files this means that nothing but a name changes with the case of an extension. Other templates
may be referred to from the template in the file, but where such references start from is its
directory, which stays the same.
-/

namespace Stencil

open Token (Kind)

namespace Template

namespace Reading

/-- The same state of a template of another name. Reading goes on from it in the same way, but where
a reference is resolved. -/
def called (reading : Reading) (name : Option String) : Reading := { reading with name }

variable (reading : Reading) (name : Option String)

/-- The end of a tag completes it whatever the template is called. -/
theorem complete_called (ending : Ending) :
    (reading.called name).complete ending = (reading.complete ending).called name := by
  cases ending <;> rfl

/-- A word ends or continues a construct whatever the template is called. -/
theorem terminate_called (word : Keyword) :
    (reading.called name).terminate word = (reading.terminate word).map (·.called name) := by
  unfold terminate
  cases around : reading.levels with
  | nil => simp [called, around, Except.map]
  | cons level outer =>
    cases opened : level.opened <;> simp only [called, around, opened] <;> split <;> rfl

/-- A statement begins whatever the template is called: what its word refers to comes only with
later tokens. The cases are those of the words, and only a word that ends a construct goes on to
another machine. -/
theorem statement_called (place : Place) (kind : Kind) :
    (reading.called name).statement place kind =
      (reading.statement place kind).map (·.called name) := by
  unfold statement
  split
  · rfl
  · rfl
  · rfl
  · show (if reading.inherited = true then _ else
      if (reading.levels.isEmpty && reading.nodes.isEmpty) = true then _ else _) = _
    split
    · rfl
    · split <;> rfl
  · rfl
  · split
    · exact terminate_called reading name _
    · rfl
  · rfl

variable {reading name}

/-- The name of the template matters where another template is referred to, and nowhere else. The
premise is about all targets, since a source may refer to any of them. -/
theorem next_called (resolves : ∀ target,
      Reference.resolve? name target = Reference.resolve? reading.name target) (token : Token) :
    (reading.called name).next token = (reading.next token).map (·.called name) := by
  have same : (reading.called name).stage = reading.stage := rfl
  unfold next
  rw [same]
  cases stage : reading.stage with
  | content =>
    simp only
    split <;> rfl
  | statement => exact statement_called reading name token.start token.kind
  | loopTarget place =>
    simp only
    split <;> rfl
  | loopIn place target =>
    simp only
    split <;> rfl
  | blockName place =>
    simp only
    split
    · show (if _ ∈ reading.blocks then _ else _) = _
      split <;> rfl
    · rfl
  | reference link =>
    simp only
    split
    · next target _ =>
      -- The one case that looks at the name.
      rw [show (reading.called name).name = name from rfl, resolves]
      cases Reference.resolve? reading.name target <;> rfl
    · rfl
  | expression purpose inner =>
    simp only
    split
    · rfl
    · rfl
    · split
      · exact congrArg Except.ok (complete_called reading name _)
      · rfl
  | blockEnd closing body =>
    simp only
    split
    · split <;> rfl
    · split <;> rfl
  | close ending =>
    simp only
    split
    · exact congrArg Except.ok (complete_called reading name ending)
    · rfl

/-- A run leads on in the same way under both names. The induction is on the tokens, and a refusal
on the way is the same refusal. -/
theorem run_called (resolves : ∀ target,
      Reference.resolve? name target = Reference.resolve? reading.name target)
    (tokens : List Token) :
    (reading.called name).run tokens = (reading.run tokens).map (·.called name) := by
  induction tokens generalizing reading with
  | nil => rfl
  | cons token rest inductionHypothesis =>
    rw [run, run, next_called resolves]
    cases read : reading.next token with
    | error reason => rfl
    | ok after =>
      have kept : after.name = reading.name := (moves_grow (next_moves read)).name
      exact inductionHypothesis fun target => kept ▸ resolves target

end Reading

/-- Sources are read to the same nodes under names from which references lead to the same, and they
are refused in the same way. -/
theorem nodesOfSource_called {name other : Option String} (resolves : ∀ target,
      Reference.resolve? other target = Reference.resolve? name target) (trim : Bool)
    (source : String) : nodesOfSource other trim source = nodesOfSource name trim source := by
  have start : Reading.start other = (Reading.start name).called other := rfl
  unfold nodesOfSource nodesOfStream
  rw [start, Reading.run_called resolves]
  cases (Reading.start name).run (Token.Stream.ofSource trim source).tokens with
  | error refusal => rfl
  | ok reading =>
    have result : (reading.called other).result = reading.result := rfl
    simp only [Except.map, result]

end Template

namespace Reference

/-- References from one directory lead to the same. Nothing but the directory of a name is used to
resolve them. -/
theorem resolve_directory {name other : String}
    (same : directory other.toList = directory name.toList) (target : String) :
    resolve? (some other) target = resolve? (some name) target := by
  simp only [resolve?, Option.map_some, same]

/-- The directory of a path of texts is what is in front of the last one. No text may hold a slash,
or the last segment would not be the last text. -/
theorem directory_joined {inside : List String} {leaf : String}
    (slashless : ∀ text ∈ inside ++ [leaf], '/' ∉ text.toList) :
    directory (String.intercalate "/" (inside ++ [leaf])).toList =
      ((inside.map String.toList).filter (· ≠ [])).reverse := by
  have parts : ∀ segment ∈ (inside ++ [leaf]).map String.toList, '/' ∉ segment := by
    intro segment member
    obtain ⟨text, held, rfl⟩ := List.mem_map.mp member
    exact slashless text held
  rw [directory, Path.join_texts, Path.split_join (by simp) parts, List.map_append,
    List.map_singleton, List.dropLast_concat]

end Reference

namespace Loading

section Effect

variable {extensions : List String} {tree : Tree} {registry : Registry}

/-- Loading a directory is keeping what its visits find, in the order of the files. -/
theorem load_visits (extensions : List String) (tree : Tree) (registry : Registry) :
    load extensions (some tree) registry = (visits extensions tree).foldl keep (0, registry) := by
  rw [visits, loadFiles_visits, load]
  simp

/-- As many templates are counted as there are files with a template in them, whatever the registry
holds before. -/
theorem load_counts (extensions : List String) (tree : Tree) (registry : Registry) :
    (load extensions (some tree) registry).1 =
      tree.files.countP fun file => (template? extensions registry.trim file).isSome := by
  rw [load_visits, (kept_counts (0, registry) _).1, Nat.zero_add, visits, List.countP_filterMap]
  refine List.countP_congr fun file _ => ?_
  rw [template_visit]
  cases visit? extensions file <;> simp [Visit.isReadable]

/-- The template in a file is there once the directory has been loaded. No other file of a proper
directory has a template of its name, so nothing can have replaced it. -/
theorem load_found (proper : tree.Proper) (ordered : tree.Ordered)
    {file : List FileName × List UInt8} (member : file ∈ tree.files) {template : Template}
    (found : template? extensions registry.trim file = some template) :
    (load extensions (some tree) registry).2.get template.name = .ok template := by
  rw [template_visit] at found
  obtain ⟨visit, visited, read⟩ := Option.bind_eq_some_iff.mp found
  have among : visit ∈ visits extensions tree := List.mem_filterMap.mpr ⟨file, member, visited⟩
  have decided := kept_here (0, registry) (distinct_visits proper ordered) among
  rw [read] at decided
  obtain ⟨generation, -, -, kept⟩ := decided
  rw [load_visits, Registry.get, template_named read, kept]

/-- What is under a name stays if no file has a template of that name. Files that cannot be read do
not count, even if they are called so. Either no file visits the name, or the one that does leaves
nothing there. -/
theorem load_apart (proper : tree.Proper) (ordered : tree.Ordered) {name : String}
    (apart : ∀ file ∈ tree.files, ∀ template,
      template? extensions registry.trim file = some template → template.name ≠ name) :
    Registry.entry? (load extensions (some tree) registry).2 name = registry.entry? name := by
  rw [load_visits]
  by_cases visited : name ∈ (visits extensions tree).map Visit.name
  · obtain ⟨visit, among, rfl⟩ := List.mem_map.mp visited
    obtain ⟨file, member, asked⟩ := List.mem_filterMap.mp among
    have decided := kept_here (0, registry) (distinct_visits proper ordered) among
    cases read : visit.template? registry.trim with
    | none =>
      rw [read] at decided
      exact decided
    | some template =>
      have found : template? extensions registry.trim file = some template := by
        rw [template_visit, asked]
        exact read
      exact absurd (template_named read) (apart file member template found)
  · exact kept_elsewhere (0, registry) visited

end Effect

section Lists

/-- An extension that a file may have, in lower case. Anything else that is asked for is compared in
vain. -/
structure Matchable (ext : String) : Prop where
  lower : Text.lower ext.toList = ext.toList
  undotted : '.' ∉ ext.toList
  slashless : '/' ∉ ext.toList

/-- The lower case of the extension of a file is such an extension: lower case of lower case is the
same, and it brings in neither a dot nor a slash. -/
theorem matchable_lower {ext : List Char} (undotted : '.' ∉ ext) (slashless : '/' ∉ ext) :
    Matchable (String.ofList (Text.lower ext)) where
  lower := by rw [String.toList_ofList, Text.lower_lower]
  undotted := by
    rw [String.toList_ofList]
    exact fun dot => undotted (Text.mem_of_mem_lowerAfter (by decide) [] dot)
  slashless := by
    rw [String.toList_ofList]
    exact fun slash => slashless (Text.mem_of_mem_lowerAfter (by decide) [] slash)

variable {first second : List String}

/-- So lists with the same extensions in lower case take the same file names. They may differ in
anything else that they hold. -/
theorem isTemplate_same (same : ∀ ext, Matchable ext → (ext ∈ first ↔ ext ∈ second))
    {name : String} (slashless : '/' ∉ name.toList) :
    isTemplate first name = isTemplate second name := by
  rw [Bool.eq_iff_iff, isTemplate_iff, isTemplate_iff]
  refine exists_congr fun stem => exists_congr fun ext => and_congr_right fun _ =>
    and_congr_right fun parts => and_congr_right fun undotted => same _ ?_
  refine matchable_lower undotted fun slash => slashless ?_
  rw [parts]
  exact List.mem_append_right stem (List.mem_cons_of_mem '.' slash)

/-- They load the same from every directory. The directory has to be proper, for a name with a slash
in it could end with an extension that has one. The files that are visited are the same, and the
rest of loading does not look at extensions. -/
theorem load_same (same : ∀ ext, Matchable ext → (ext ∈ first ↔ ext ∈ second)) {tree : Tree}
    (proper : tree.Proper) (registry : Registry) :
    load first (some tree) registry = load second (some tree) registry := by
  have visited : visits first tree = visits second tree := by
    refine List.filterMap_congr fun file member => ?_
    unfold visit?
    cases read : file.1.mapM text? with
    | none => rfl
    | some segments =>
      cases last : segments.getLast? with
      | none => simp [last]
      | some leaf =>
        obtain ⟨part, held, part_text⟩ := texts_read read leaf (List.mem_of_getLast? last)
        have slashless : '/' ∉ leaf.toList :=
          (ordinary_of_proper (Tree.files_proper proper file member part held) part_text).slashless
        simp [last, isTemplate_same same slashless]
  rw [load_visits, load_visits, visited]

/-- The name of the template in a file joins the texts of its path. The last of them decides whether
there is a template, and a part of the path that is no text leaves none. -/
theorem templateName_path (extensions : List String) (inside : List FileName) (leaf : FileName) :
    templateName? extensions (inside ++ [leaf]) =
      (inside.mapM text?).bind fun texts => (text? leaf).bind fun last =>
        if isTemplate extensions last then some (String.intercalate "/" (texts ++ [last]))
        else none := by
  unfold templateName?
  rw [List.mapM_append]
  cases inside.mapM text? with
  | none => rfl
  | some texts =>
    cases read : text? leaf with
    | none => simp [read]
    | some last => cases fits : isTemplate extensions last <;> simp [read, fits, guard]

/-- The bytes of a text are read as the text, so every text is the name of some file. -/
theorem text_utf8 (text : String) : text? (Text.utf8 text.toList) = some text := by
  rw [text?, Text.utf8_toList, Array.toArray_toList]
  exact dif_pos text.isValidUTF8

/-- The template in a file right below the root has the name of the file. No directories are in
front of it that would have to be joined. -/
theorem template_at_root {extensions : List String} {trim : Bool} (name source : String)
    {template : Template} (fits : isTemplate extensions name = true)
    (read : Template.ofSource name trim source = .ok template) :
    template? extensions trim ([Text.utf8 name.toList], Text.utf8 source.toList) =
      some template := by
  have path := templateName_path extensions [] (Text.utf8 name.toList)
  rw [text_utf8] at path
  simp only [List.mapM_nil, List.nil_append, Option.pure_def, Option.bind_some, fits, if_true,
    String.intercalate_singleton] at path
  simp only [template?, path, text_utf8, Option.bind_eq_bind, Option.bind_some, read,
    Except.toOption]

/-- A slash among the bytes of a text is a slash in the text. The encoding of any other character
has no byte with this value. -/
theorem slash_of_byte {text : List Char} (member : 0x2F ∈ Text.utf8 text) : '/' ∈ text := by
  obtain ⟨c, held, byte⟩ := List.mem_flatMap.mp member
  obtain ⟨b, others, encoded, single | high⟩ := Text.utf8EncodeChar_cases c
  · obtain ⟨same, -, rfl⟩ := single
    rw [encoded] at byte
    obtain rfl := List.mem_singleton.mp byte
    have slash : c = '/' := Char.toNat_inj.mp same.symm
    exact slash ▸ held
  · rw [encoded] at byte
    exact absurd (high.2 0x2F byte) (by decide)

/-- A directory with one file in it, which is empty and has an extension. It tells apart two lists
of which only one holds the extension. -/
def single (ext : String) : Tree :=
  .directory [(Text.utf8 ('a' :: '.' :: ext.toList), .file [])]

/-- The directory is proper if the extension has no slash in it: its one name is not empty and has
none either. -/
theorem single_proper {ext : String} (slashless : '/' ∉ ext.toList) : (single ext).Proper := by
  refine ⟨⟨?_, ?_, ?_, fun slash => ?_⟩, trivial, trivial⟩
  · exact List.cons_ne_nil 0x61 _
  · exact fun same => absurd (List.cons.inj same).1 (by decide)
  · exact fun same => absurd (List.cons.inj same).1 (by decide)
  · have inText := slash_of_byte slash
    simp only [List.mem_cons, slashless, or_false] at inText
    exact absurd inText (by decide)

/-- One entry is in order. -/
theorem single_ordered (ext : String) : (single ext).Ordered :=
  ⟨List.forall_mem_nil _, trivial, trivial⟩

/-- The file is loaded exactly if its extension is asked for. It is empty, so it can be read as a
template without nodes, and the count tells whether it was. -/
theorem load_single {ext : String} (matchable : Matchable ext) (extensions : List String) :
    (load extensions (some (single ext)) (.empty false)).1 =
      if ext ∈ extensions then 1 else 0 := by
  let leaf := 'a' :: '.' :: ext.toList
  have name : text? (Text.utf8 leaf) = some (String.ofList leaf) := by
    have bytes := text_utf8 (String.ofList leaf)
    rwa [String.toList_ofList] at bytes
  have dotted : extension? leaf = some ext.toList := extension_dotted ['a'] matchable.undotted
  have fits : isTemplate extensions (String.ofList leaf) = decide (ext ∈ extensions) := by
    unfold isTemplate
    rw [String.toList_ofList, dotted]
    simp only [matchable.lower, String.ofList_toList, List.contains_eq_mem]
  have named := templateName_path extensions [] (Text.utf8 leaf)
  have files : (single ext).files = [([] ++ [Text.utf8 leaf], [])] := rfl
  have trim : (Registry.empty false).trim = false := rfl
  have empty : text? [] = some "" := text_utf8 ""
  have read (name : String) : Template.ofSource name false "" = .ok ⟨name, "", []⟩ := by
    with_unfolding_all rfl
  rw [load_counts, files, trim, List.countP_singleton, template?, named, name]
  by_cases asked : ext ∈ extensions <;> simp [fits, asked, empty, read, Except.toOption]

end Lists

/-- Two names of a file that differ in the case of its extension, and in nothing else. Where a name
is no text it does not matter what it is, since no template is in the file. -/
inductive Recased : FileName → FileName → Prop
  | refl (leaf : FileName) : Recased leaf leaf
  | text {leaf other : FileName} {stem ext otherExt : List Char}
    (read : text? leaf = some (String.ofList (stem ++ '.' :: ext)))
    (otherRead : text? other = some (String.ofList (stem ++ '.' :: otherExt)))
    (undotted : '.' ∉ ext) (otherUndotted : '.' ∉ otherExt)
    (same : Text.lower otherExt = Text.lower ext) : Recased leaf other
  | unreadable {leaf other : FileName} (read : text? leaf = none) (otherRead : text? other = none) :
    Recased leaf other

/-- Two templates that differ in nothing but their names. Whether files are templates is asked by
name, so this is what stays when a file is renamed. -/
def SameBody (template other : Template) : Prop :=
  other.source = template.source ∧ other.nodes = template.nodes

section Files

variable {extensions : List String} {inside : List FileName} {leaf other : FileName}

/-- Whether a file is a template does not depend on the case of its extension. This needs no premise
about the extensions that are asked for. -/
theorem isTemplate_recased {stem ext otherExt : List Char} (undotted : '.' ∉ ext)
    (otherUndotted : '.' ∉ otherExt) (same : Text.lower otherExt = Text.lower ext) :
    isTemplate extensions (String.ofList (stem ++ '.' :: otherExt)) =
      isTemplate extensions (String.ofList (stem ++ '.' :: ext)) := by
  unfold isTemplate
  rw [String.toList_ofList, String.toList_ofList, extension_dotted stem undotted,
    extension_dotted stem otherUndotted]
  by_cases empty : stem = []
  · rw [if_pos empty, if_pos empty]
  · rw [if_neg empty, if_neg empty]
    simp only [same]

/-- Nothing is different in the templates of one directory but their names. References start from
the directory, so they lead to the same, and a source that is refused under one name is refused
under the other. -/
theorem ofSource_beside {texts : List String} {last otherLast : String}
    (slashless : ∀ text ∈ texts ++ [last], '/' ∉ text.toList)
    (otherSlashless : '/' ∉ otherLast.toList) (trim : Bool) (source : String) :
    Option.Rel SameBody
      (Template.ofSource (String.intercalate "/" (texts ++ [last])) trim source).toOption
      (Template.ofSource (String.intercalate "/" (texts ++ [otherLast])) trim source).toOption := by
  have directories : ∀ text ∈ texts ++ [otherLast], '/' ∉ text.toList := by
    intro text member
    rcases List.mem_append.mp member with before | here
    · exact slashless text (List.mem_append_left _ before)
    · exact List.mem_singleton.mp here ▸ otherSlashless
  have same : Reference.directory (String.intercalate "/" (texts ++ [otherLast])).toList =
      Reference.directory (String.intercalate "/" (texts ++ [last])).toList := by
    rw [Reference.directory_joined directories, Reference.directory_joined slashless]
  unfold Template.ofSource
  rw [Template.nodesOfSource_called (Reference.resolve_directory same)]
  cases Template.nodesOfSource (some (String.intercalate "/" (texts ++ [last]))) trim source with
  | error refusal => exact .none
  | ok nodes => exact .some ⟨rfl, rfl⟩

/-- With another case of its extension a file has the same template in it, but for its name. The
cases are those in which names may differ; where a part of the path is no text there is no template
either way. -/
theorem template_recased (proper : ∀ part ∈ inside ++ [leaf], part.Proper)
    (otherProper : other.Proper) (recased : Recased leaf other) (trim : Bool)
    (content : List UInt8) :
    Option.Rel SameBody (template? extensions trim (inside ++ [leaf], content))
      (template? extensions trim (inside ++ [other], content)) := by
  have refl (found : Option Template) : Option.Rel SameBody found found := by
    cases found with
    | none => exact .none
    | some template => exact .some ⟨rfl, rfl⟩
  cases recased with
  | refl => exact refl _
  | unreadable read otherRead =>
    unfold template?
    rw [templateName_path, templateName_path, read, otherRead]
    exact refl _
  | @text _ stem ext otherExt read otherRead undotted otherUndotted same =>
    unfold template?
    rw [templateName_path, templateName_path, read, otherRead]
    cases texts_read : inside.mapM text? with
    | none => exact .none
    | some texts =>
      -- Both file names count or neither does, so only the template itself is left to compare.
      simp only [Option.bind_some, isTemplate_recased undotted otherUndotted same]
      cases isTemplate extensions (String.ofList (stem ++ '.' :: ext)) with
      | false => exact .none
      | true =>
        cases text? content with
        | none => exact .none
        | some source =>
          refine ofSource_beside (fun text member => ?_)
            (ordinary_of_proper otherProper otherRead).slashless trim source
          rcases List.mem_append.mp member with before | here
          · obtain ⟨part, held, part_text⟩ := Loading.texts_read texts_read text before
            have partProper := proper part (List.mem_append_left _ held)
            exact (ordinary_of_proper partProper part_text).slashless
          · have leafProper := proper leaf (List.mem_append_right _ List.mem_cons_self)
            rw [List.mem_singleton.mp here]
            exact (ordinary_of_proper leafProper read).slashless

end Files

/-- A directory has the files of another one under other names: each of them is where it was, but
for the case of its extension. The files may come in another order, since names are compared with
their case. -/
structure Renamed (rename : List FileName → List FileName) (tree other : Tree) : Prop where
  each : ∀ file ∈ tree.files, ∃ inside leaf renamed, file.1 = inside ++ [leaf] ∧
    rename file.1 = inside ++ [renamed] ∧ Recased leaf renamed
  files : (tree.files.map fun file => (rename file.1, file.2)).Perm other.files

section Renaming

variable {rename : List FileName → List FileName} {tree other : Tree}

/-- What is related is there on both sides or on neither. So relating templates is enough to count
them. -/
theorem isSome_of_rel {α β : Type} {related : α → β → Prop} {first : Option α}
    {second : Option β} (rel : Option.Rel related first second) : second.isSome = first.isSome := by
  cases rel <;> rfl

/-- What is related may be related in another way as well. The implication is asked only of the two
values that are there. -/
theorem rel_imp {α β : Type} {related another : α → β → Prop} {first : Option α}
    {second : Option β} (rel : Option.Rel related first second)
    (implies : ∀ a b, first = some a → second = some b → related a b → another a b) :
    Option.Rel another first second := by
  cases rel with
  | none => exact .none
  | some holds => exact .some (implies _ _ rfl rfl holds)

/-- Each file has the same template in it, but for its name. Both directories have to be proper, so
that no name in them holds a slash. The file moves to a place that differs from its own in the last
name at most. -/
theorem Renamed.template (renamed : Renamed rename tree other) (proper : tree.Proper)
    (otherProper : other.Proper) (extensions : List String) (trim : Bool)
    {file : List FileName × List UInt8} (member : file ∈ tree.files) :
    Option.Rel SameBody (template? extensions trim file)
      (template? extensions trim (rename file.1, file.2)) := by
  obtain ⟨path, content⟩ := file
  obtain ⟨inside, leaf, last, placed, moved, recased⟩ := renamed.each (path, content) member
  have among : (rename path, content) ∈ other.files :=
    renamed.files.subset (List.mem_map_of_mem member)
  have parts := Tree.files_proper proper (path, content) member
  have otherParts := Tree.files_proper otherProper (rename path, content) among
  dsimp only at placed moved parts otherParts ⊢
  rw [moved] at otherParts ⊢
  subst placed
  have lastProper := otherParts last (List.mem_append_right _ List.mem_cons_self)
  exact template_recased parts lastProper recased trim content

end Renaming

/-- Extensions are compared in lower case, and case is left out in the names of files alone. Two
lists of extensions load the same from all directories into all registries exactly if the same
extensions in lower case are in both: an extension that is asked for in another case is as good as
none, also where a file has it just so.

For files the case of the extension does not matter. From two directories that differ in it as many
templates are loaded. Each file has a template in it in both or in neither, and these templates
differ in nothing but their names, under which they are registered. Whatever was registered under
other names still is. -/
theorem extensions_in_lower_case (extensions others : List String) :
    ((∀ (tree : Tree) (registry : Registry), tree.Proper → tree.Ordered →
        load extensions (some tree) registry = load others (some tree) registry) ↔
      ∀ ext, Matchable ext → (ext ∈ extensions ↔ ext ∈ others)) ∧
    ∀ (registry : Registry) (rename : List FileName → List FileName) (tree other : Tree),
      tree.Proper → tree.Ordered → other.Proper → other.Ordered → Renamed rename tree other →
      let loaded := load extensions (some tree) registry
      let renamed := load extensions (some other) registry
      renamed.1 = loaded.1 ∧
      (∀ file ∈ tree.files, Option.Rel
        (fun template moved => SameBody template moved ∧
          loaded.2.get template.name = .ok template ∧ renamed.2.get moved.name = .ok moved)
        (template? extensions registry.trim file)
        (template? extensions registry.trim (rename file.1, file.2))) ∧
      (∀ name, (∀ file ∈ tree.files, ∀ template,
          template? extensions registry.trim file = some template → template.name ≠ name) →
        Registry.entry? loaded.2 name = registry.entry? name) ∧
      ∀ name, (∀ file ∈ other.files, ∀ template,
          template? extensions registry.trim file = some template → template.name ≠ name) →
        Registry.entry? renamed.2 name = registry.entry? name := by
  constructor
  · constructor
    · intro same ext matchable
      -- A directory with one file of this extension tells whether the extension is asked for.
      have counts := congrArg Prod.fst
        (same (single ext) (.empty false) (single_proper matchable.slashless) (single_ordered ext))
      rw [load_single matchable, load_single matchable] at counts
      by_cases asked : ext ∈ extensions <;> by_cases also : ext ∈ others <;>
        simp [asked, also] at counts ⊢
    · exact fun same tree registry proper _ => load_same same proper registry
  · intro registry rename tree other proper ordered otherProper otherOrdered renames loaded renamed
    have bodies {file : List FileName × List UInt8} (member : file ∈ tree.files) :=
      renames.template proper otherProper extensions registry.trim member
    refine ⟨?_, fun file member => ?_, fun name apart => load_apart proper ordered apart,
      fun name apart => load_apart otherProper otherOrdered apart⟩
    · rw [load_counts, load_counts, ← renames.files.countP_eq, List.countP_map]
      refine List.countP_congr fun file member => ?_
      rw [Function.comp_apply, isSome_of_rel (bodies member)]
    · have among : (rename file.1, file.2) ∈ other.files :=
        renames.files.subset (List.mem_map_of_mem member)
      refine rel_imp (bodies member) fun template moved found foundThere same => ?_
      exact ⟨same, load_found proper ordered member found,
        load_found otherProper otherOrdered among foundThere⟩

/-- A page next to a note. The note has an extension that is not asked for, so only the page is
loaded, if its own extension is among those that are. -/
def pageAndNote (page : String) : Tree :=
  .directory [(Text.utf8 page.toList, .file [0x78]), (Text.utf8 "note.txt".toList, .file [0x79])]

/-- The page gets another name, and the note keeps its own. The extension is the same up to letter
case, which is all that a file may change here. -/
def capitals (path : List FileName) : List FileName :=
  if path = [Text.utf8 "a.html".toList] then [Text.utf8 "a.HTML".toList] else path

/-- A page whose extension is written in capitals is loaded all the same, and an extension that is
asked for in capitals, next to its lower case, adds nothing. -/
theorem extensions_in_lower_case_page :
    let tree := pageAndNote "a.html"
    let other := pageAndNote "a.HTML"
    let loaded := load ["html", "txt"] (some tree) (.empty false)
    let renamed := load ["html", "txt"] (some other) (.empty false)
    tree.Proper ∧ tree.Ordered ∧ other.Proper ∧ other.Ordered ∧ Renamed capitals tree other ∧
      loaded.1 = 2 ∧ renamed.1 = loaded.1 ∧
      loaded.2.get "a.html" = .ok ⟨"a.html", "x", [.text "x"]⟩ ∧
      renamed.2.get "a.HTML" = .ok ⟨"a.HTML", "x", [.text "x"]⟩ ∧
      load ["html"] (some tree) (.empty false) =
        load ["HTML", "html"] (some tree) (.empty false) := by
  intro tree other loaded renamed
  have bytes (page : String) : pageAndNote page = .directory [(Text.utf8 page.toList, .file [0x78]),
      ([0x6E, 0x6F, 0x74, 0x65, 0x2E, 0x74, 0x78, 0x74], .file [0x79])] := rfl
  have lower : Text.utf8 "a.html".toList = [0x61, 0x2E, 0x68, 0x74, 0x6D, 0x6C] := by decide
  have upper : Text.utf8 "a.HTML".toList = [0x61, 0x2E, 0x48, 0x54, 0x4D, 0x4C] := by decide
  have proper : tree.Proper ∧ other.Proper := by
    simp only [tree, other, bytes, lower, upper, Tree.Proper, Tree.ProperEntries]
    decide
  have ordered : tree.Ordered ∧ other.Ordered := by
    simp only [tree, other, bytes, lower, upper, Tree.Ordered, Tree.OrderedEntries]
    decide
  have recased : Recased (Text.utf8 "a.html".toList) (Text.utf8 "a.HTML".toList) :=
    @Recased.text _ _ ['a'] "html".toList "HTML".toList (text_utf8 _) (text_utf8 _) (by decide)
      (by decide) (by decide +kernel)
  have files (page : String) : (pageAndNote page).files =
      [([Text.utf8 page.toList], [0x78]), ([Text.utf8 "note.txt".toList], [0x79])] := rfl
  have page : capitals [Text.utf8 "a.html".toList] = [Text.utf8 "a.HTML".toList] := by decide
  have note : capitals [Text.utf8 "note.txt".toList] = [Text.utf8 "note.txt".toList] := by decide
  have renames : Renamed capitals tree other := by
    refine ⟨?_, ?_⟩
    · rw [files, List.forall_mem_cons, List.forall_mem_singleton]
      exact ⟨⟨[], _, _, rfl, page, recased⟩, [], _, _, rfl, note, .refl _⟩
    · rw [files, files, List.map_cons, List.map_cons, page, note]
      exact .refl _
  obtain ⟨counted, found, -, -⟩ := (extensions_in_lower_case ["html", "txt"] []).2 (.empty false)
    capitals tree other proper.1 ordered.1 proper.2 ordered.2 renames
  have here : template? ["html", "txt"] false ([Text.utf8 "a.html".toList], [0x78]) =
      some ⟨"a.html", "x", [.text "x"]⟩ :=
    template_at_root "a.html" "x" (by decide +kernel) (by decide +kernel)
  have there : template? ["html", "txt"] false ([Text.utf8 "a.HTML".toList], [0x78]) =
      some ⟨"a.HTML", "x", [.text "x"]⟩ :=
    template_at_root "a.HTML" "x" (by decide +kernel) (by decide +kernel)
  have beside : template? ["html", "txt"] false ([Text.utf8 "note.txt".toList], [0x79]) =
      some ⟨"note.txt", "y", [.text "y"]⟩ :=
    template_at_root "note.txt" "y" (by decide +kernel) (by decide +kernel)
  have two : loaded.1 = 2 := by
    refine (load_counts _ _ _).trans ?_
    rw [files, show (Registry.empty false).trim = false from rfl, List.countP_cons,
      List.countP_singleton, here, beside]
    rfl
  have among : ([Text.utf8 "a.html".toList], [0x78]) ∈ tree.files := List.mem_cons_self
  have both := found _ among
  rw [show (Registry.empty false).trim = false from rfl, page, here, there] at both
  obtain ⟨-, kept, moved⟩ := both
  refine ⟨proper.1, ordered.1, proper.2, ordered.2, renames, two, counted, kept, moved, ?_⟩
  have lists := (extensions_in_lower_case ["html"] ["HTML", "html"]).1
  refine lists.mpr (fun ext matchable => ?_) tree _ proper.1 ordered.1
  have notUpper : ext ≠ "HTML" := by
    rintro rfl
    exact absurd matchable.lower (by decide +kernel)
  simp [notUpper]

/-- An extension in capitals finds no file, neither one that has it in small letters, nor one that
has it as it is asked for. In small letters it finds both. -/
theorem capitals_find_nothing :
    let small := single "html"
    let large : Tree := .directory [(Text.utf8 "a.HTML".toList, .file [])]
    List.Forall₂ (fun ext other => Text.lower ext.toList = Text.lower other.toList)
        ["html"] ["HTML"] ∧
      small.Proper ∧ small.Ordered ∧ large.Proper ∧ large.Ordered ∧
      (load ["html"] (some small) (.empty false)).1 = 1 ∧
      (load ["html"] (some large) (.empty false)).1 = 1 ∧
      (load ["HTML"] (some small) (.empty false)).1 = 0 ∧
      (load ["HTML"] (some large) (.empty false)).1 = 0 := by
  intro small large
  have upper : Text.utf8 "a.HTML".toList = [0x61, 0x2E, 0x48, 0x54, 0x4D, 0x4C] := by decide
  have matchable : Matchable "html" := ⟨by decide +kernel, by decide, by decide⟩
  have proper : large.Proper := by
    simp only [large, upper, Tree.Proper, Tree.ProperEntries]
    decide
  have sameLower : Text.lower "html".toList = Text.lower "HTML".toList := by decide +kernel
  refine ⟨.cons sameLower .nil, single_proper (by decide), single_ordered "html", proper,
    ⟨List.forall_mem_nil _, trivial, trivial⟩, ?_, ?_, ?_, ?_⟩
  · exact (load_single matchable ["html"]).trans (if_pos (by decide))
  · simp only [large, upper]
    decide +kernel
  · exact (load_single matchable ["HTML"]).trans (if_neg (by decide))
  · simp only [large, upper]
    rfl

end Loading

end Stencil
