import Mathlib.Data.List.Infix
import Mathlib.Data.Option.Basic
import Stencil.Directory.Loading
import Stencil.Reference

/-!
# Relative references

Two parts of a project must agree on what a path is. The names that templates get from a
directory tree are the names of the directories on the way, joined by slashes; a relative
reference is cut at its slashes and followed segment by segment. Joining and cutting are
inverse to each other as long as no segment holds a slash, and no name of a file does.

From there everything is said of lists of segments. A reference climbs one directory for each
pair of dots and enters one for each ordinary segment. It fails exactly if at some point it has
climbed more often than there were directories to leave, and otherwise it ends at a place that
is made of ordinary segments alone, so no reference leads out of the root.
-/

namespace Stencil

namespace Path

/-- A segment that names a file or a directory: neither empty nor one of the dots that stand for
directories nearby, and without the slash that would end it. -/
structure Ordinary (segment : Segment) : Prop where
  filled : segment ≠ []
  notHere : segment ≠ ['.']
  notUp : segment ≠ ['.', '.']
  slashless : '/' ∉ segment

/-- Each of the four conditions can be checked. -/
instance (segment : Segment) : Decidable (Ordinary segment) :=
  decidable_of_iff
    (segment ≠ [] ∧ segment ≠ ['.'] ∧ segment ≠ ['.', '.'] ∧ '/' ∉ segment)
    ⟨fun ⟨filled, notHere, notUp, slashless⟩ => ⟨filled, notHere, notUp, slashless⟩,
      fun ⟨filled, notHere, notUp, slashless⟩ => ⟨filled, notHere, notUp, slashless⟩⟩

/-- A text without a slash is one segment. -/
theorem split_slashless {text : List Char} (slashless : '/' ∉ text) : split text = [text] := by
  induction text with
  | nil => rfl
  | cons c rest inductionHypothesis =>
    obtain ⟨here, behind⟩ := not_or.mp (mt List.mem_cons.mpr slashless)
    rw [split, if_neg (Ne.symm here), inductionHypothesis behind]

/-- A segment ends at the slash behind it. -/
theorem split_segment {segment : Segment} (slashless : '/' ∉ segment) (text : List Char) :
    split (segment ++ '/' :: text) = segment :: split text := by
  induction segment with
  | nil => rw [List.nil_append, split, if_pos rfl]
  | cons c rest inductionHypothesis =>
    obtain ⟨here, behind⟩ := not_or.mp (mt List.mem_cons.mpr slashless)
    rw [List.cons_append, split, if_neg (Ne.symm here), inductionHypothesis behind]

/-- The segments of a text hold no slash. The induction is over the text: a slash begins a new
segment, and every other character goes on with the one at hand. -/
theorem split_parts {text : List Char} {segment : Segment} (part : segment ∈ split text) :
    '/' ∉ segment := by
  induction text generalizing segment with
  | nil =>
    obtain rfl := List.mem_singleton.mp part
    exact List.not_mem_nil
  | cons c rest inductionHypothesis =>
    obtain ⟨first, others, parts⟩ := List.exists_cons_of_ne_nil (split_ne_nil rest)
    rw [split, parts] at part
    rw [parts] at inductionHypothesis
    split at part
    · rcases List.mem_cons.mp part with rfl | later
      · exact List.not_mem_nil
      · exact inductionHypothesis later
    · next ordinary =>
      rcases List.mem_cons.mp part with rfl | later
      · intro slash
        rcases List.mem_cons.mp slash with here | behind
        · exact ordinary here.symm
        · exact inductionHypothesis List.mem_cons_self behind
      · exact inductionHypothesis (List.mem_cons_of_mem first later)

/-- Cutting undoes joining, if no segment holds a slash and there is one at least. Without any the
text is empty, and cutting it gives one empty segment. -/
theorem split_join {segments : List Segment} (some : segments ≠ [])
    (slashless : ∀ segment ∈ segments, '/' ∉ segment) : split (join segments) = segments := by
  induction segments with
  | nil => exact absurd rfl some
  | cons segment rest inductionHypothesis =>
    obtain ⟨first, others⟩ := List.forall_mem_cons.mp slashless
    cases rest with
    | nil => exact split_slashless first
    | cons next rest =>
      rw [join.eq_def]
      exact (split_segment first _).trans
        (congrArg _ (inductionHypothesis (List.cons_ne_nil next rest) others))

/-- Joining is what the library does with texts, so what is said of lists of characters is said of
names. -/
theorem join_texts (texts : List String) :
    (String.intercalate "/" texts).toList = join (texts.map String.toList) := by
  induction texts with
  | nil => rfl
  | cons text rest inductionHypothesis =>
    cases rest with
    | nil => simp [join]
    | cons next rest =>
      rw [String.intercalate_cons_cons, String.toList_append, inductionHypothesis]
      simp [join]

/-- The filled segments of a text that is joined from segments are those that are filled. -/
theorem filled_join {segments : List Segment}
    (slashless : ∀ segment ∈ segments, '/' ∉ segment) :
    (split (join segments)).filter (· ≠ []) = segments.filter (· ≠ []) := by
  by_cases none : segments = []
  · subst none
    rfl
  · rw [split_join none slashless]

/-- Ordinary segments are filled. -/
theorem filter_ordinary {segments : List Segment}
    (ordinary : ∀ segment ∈ segments, Ordinary segment) :
    segments.filter (· ≠ []) = segments :=
  List.filter_eq_self.mpr fun segment member => decide_eq_true (ordinary segment member).filled

end Path

namespace Reference

open Stencil.Path (Segment Ordinary)

/-- The text of the directory of a template, or of the root where there is no template. The
directory is named by all segments of the template but the last one. -/
def directoryText (referrer : Option String) : List Char :=
  (referrer.map fun name => Path.join (Path.split name.toList).dropLast).getD []

/-- Where the references of a template start, as segments. Without a referrer they start at the
root, which has none. -/
def start (referrer : Option String) : List Segment :=
  (referrer.map fun name => directory name.toList).getD []

/-- A relative reference is followed from where it starts. -/
theorem resolve_relative {target : String} (relative : isRelative target.toList = true)
    (referrer : Option String) :
    resolve? referrer target =
      (follow (start referrer) (Path.split target.toList)).map fun place =>
        String.ofList (Path.join place.reverse) := by
  rw [resolve?, if_pos relative]
  rfl

/-- References start in the directory of the template. The segments of the directory may be read off
its text, since ordinary segments are neither empty nor cut by a slash. -/
theorem start_of_text {referrer : Option String} {directories : List Segment}
    (ordinary : ∀ segment ∈ directories, Ordinary segment)
    (placed : directoryText referrer = Path.join directories) :
    start referrer = directories.reverse := by
  have kept : (Path.split (Path.join directories)).filter (· ≠ []) = directories :=
    (Path.filled_join fun segment member => (ordinary segment member).slashless).trans
      (Path.filter_ordinary ordinary)
  rw [← placed] at kept
  cases referrer with
  | none => exact congrArg List.reverse kept
  | some name =>
    have parts : ∀ segment ∈ (Path.split name.toList).dropLast, '/' ∉ segment :=
      fun segment member => Path.split_parts (List.mem_of_mem_dropLast member)
    exact congrArg List.reverse ((Path.filled_join parts).symm.trans kept)

section Following

/-- How one segment is followed: it stays, climbs or enters, and climbing needs a directory to
leave. -/
theorem follow_cons (place : List Segment) (segment : Segment) (rest : List Segment) :
    follow place (segment :: rest) =
      if segment = [] ∨ segment = ['.'] then follow place rest
      else if segment = ['.', '.'] then
        match place with
        | [] => none
        | _ :: above => follow above rest
      else follow (segment :: place) rest :=
  (follow.eq_def place (segment :: rest)).trans rfl

/-- A step over an ordinary segment enters a directory. -/
theorem follow_enter {segment : Segment} (ordinary : Ordinary segment) (place : List Segment)
    (rest : List Segment) :
    follow place (segment :: rest) = follow (segment :: place) rest := by
  rw [follow_cons, if_neg (not_or.mpr ⟨ordinary.filled, ordinary.notHere⟩), if_neg ordinary.notUp]

/-- A step over two dots leaves a directory, where there is one. -/
theorem follow_leave (directory : Segment) (above rest : List Segment) :
    follow (directory :: above) (['.', '.'] :: rest) = follow above rest := by
  rw [follow_cons, if_neg (by decide), if_pos rfl]

/-- A step over two dots leads nowhere from the root. -/
theorem follow_out (rest : List Segment) : follow [] (['.', '.'] :: rest) = none := by
  rw [follow_cons, if_neg (by decide), if_pos rfl]

/-- A step over an empty segment or a single dot stays. -/
theorem follow_stay {segment : Segment} (idle : segment = [] ∨ segment = ['.'])
    (place rest : List Segment) : follow place (segment :: rest) = follow place rest := by
  rw [follow_cons, if_pos idle]

/-- Ordinary segments lead from a place to the place that they name from there. The place is kept
with the innermost directory first, so they come out reversed. -/
theorem follow_ordinary {segments : List Segment}
    (ordinary : ∀ segment ∈ segments, Ordinary segment) (place : List Segment) :
    follow place segments = some (segments.reverse ++ place) := by
  induction segments generalizing place with
  | nil => rfl
  | cons segment rest inductionHypothesis =>
    obtain ⟨first, others⟩ := List.forall_mem_cons.mp ordinary
    rw [follow_enter first, inductionHypothesis others, List.reverse_cons, List.append_assoc]
    rfl

/-- As many pairs of dots as there are directories lead out of these directories. -/
theorem follow_climb (directories above rest : List Segment) :
    follow (directories ++ above) (List.replicate directories.length ['.', '.'] ++ rest) =
      follow above rest := by
  induction directories with
  | nil => rfl
  | cons directory others inductionHypothesis => exact (follow_leave ..).trans inductionHypothesis

/-- How a segment without a slash is followed: it stays where it is, goes up, or enters a directory
of its name. These are all the ways there are. -/
theorem segment_cases {segment : Segment} (slashless : '/' ∉ segment) :
    (segment = [] ∨ segment = ['.']) ∨ segment = ['.', '.'] ∨ Ordinary segment := by
  by_cases filled : segment = []
  · exact .inl (.inl filled)
  · by_cases here : segment = ['.']
    · exact .inl (.inr here)
    · by_cases up : segment = ['.', '.']
      · exact .inr (.inl up)
      · exact .inr (.inr ⟨filled, here, up, slashless⟩)

/-- How often segments enter a directory, if they are followed one after the other. Each ordinary
segment enters one; empty ones and those of a single dot stay where they are. -/
def entered (segments : List Segment) : Nat := segments.countP fun segment => Ordinary segment

/-- How often segments leave a directory, if they are followed one after the other. Each pair of
dots leaves one, if there is one to leave. -/
def left (segments : List Segment) : Nat := segments.count ['.', '.']

/-- Whether segments, or a first part of them, leave more directories than there are from the
start and have been entered on the way. -/
def Escapes (height : Nat) (segments : List Segment) : Prop :=
  ∃ seen, seen <+: segments ∧ height + entered seen < left seen

/-- No segments enter nothing. -/
@[simp] theorem entered_nil : entered [] = 0 := rfl

/-- No segments leave nothing. -/
@[simp] theorem left_nil : left [] = 0 := rfl

/-- A segment in front enters a directory if it is ordinary. -/
theorem entered_cons (segment : Segment) (rest : List Segment) :
    entered (segment :: rest) = entered rest + if Ordinary segment then 1 else 0 := by
  simp [entered, List.countP_cons]

/-- A segment in front leaves a directory if it is two dots. -/
theorem left_cons (segment : Segment) (rest : List Segment) :
    left (segment :: rest) = left rest + if segment = ['.', '.'] then 1 else 0 := by
  simp [left, List.count_cons]

/-- No segments leave more than there is. -/
theorem not_escapes_nil (height : Nat) : ¬ Escapes height [] := by
  rintro ⟨seen, first, more⟩
  obtain rfl := List.prefix_nil.mp first
  exact Nat.not_lt_zero _ more

/-- Nothing has been left before the first segment, so it is part of every escape. This turns a
question about a list into one about its rest, as the induction needs it. -/
theorem escapes_cons (height : Nat) (segment : Segment) (rest : List Segment) :
    Escapes height (segment :: rest) ↔
      ∃ seen, seen <+: rest ∧ height + entered (segment :: seen) < left (segment :: seen) := by
  constructor
  · rintro ⟨seen, first, more⟩
    rcases List.prefix_cons_iff.mp first with rfl | ⟨others, rfl, behind⟩
    · exact absurd more (Nat.not_lt_zero _)
    · exact ⟨others, behind, more⟩
  · rintro ⟨seen, behind, more⟩
    exact ⟨segment :: seen, List.cons_prefix_cons.mpr ⟨rfl, behind⟩, more⟩

/-- A reference cannot be followed exactly if it escapes, and whatever place it leads to is made
of ordinary segments if it starts at such a place.

The induction is on the segments, from any place: entering and leaving a directory change the
height of the place as they change what may still be left. -/
theorem follow_exact {segments : List Segment}
    (slashless : ∀ segment ∈ segments, '/' ∉ segment) {place : List Segment}
    (ordinary : ∀ segment ∈ place, Ordinary segment) :
    (follow place segments = none ↔ Escapes place.length segments) ∧
      ∀ reached, follow place segments = some reached →
        (∀ segment ∈ reached, Ordinary segment) ∧
          reached.length + left segments = place.length + entered segments := by
  induction segments generalizing place with
  | nil =>
    refine ⟨iff_of_false (fun failed => nomatch failed) (not_escapes_nil _), ?_⟩
    rintro reached ⟨⟩
    exact ⟨ordinary, rfl⟩
  | cons segment rest inductionHypothesis =>
    obtain ⟨first, others⟩ := List.forall_mem_cons.mp slashless
    rw [escapes_cons]
    rcases segment_cases first with idle | rfl | named
    -- A segment that leads nowhere counts neither as entered nor as left.
    · have nowhere : ¬ Ordinary segment ∧ segment ≠ ['.', '.'] := by
        rcases idle with rfl | rfl <;> decide
      simp only [follow_stay idle, entered_cons, left_cons, if_neg nowhere.1, if_neg nowhere.2]
      exact inductionHypothesis others ordinary
    · have notNamed : ¬ Ordinary ['.', '.'] := by decide
      simp only [entered_cons, left_cons, if_neg notNamed, if_true]
      cases place with
      | nil =>
        -- Nothing can be left at the root: the first segment escapes.
        rw [follow_out]
        exact ⟨iff_of_true rfl ⟨[], List.nil_prefix, Nat.one_pos⟩, fun _ reached => nomatch reached⟩
      | cons directory above =>
        rw [follow_leave]
        -- One directory less is around, and one more has been left.
        obtain ⟨stuck, reaches⟩ :=
          inductionHypothesis others (List.forall_mem_cons.mp ordinary).2
        refine ⟨stuck.trans (exists_congr fun seen => and_congr_right fun _ => ?_), ?_⟩
        · rw [List.length_cons]
          omega
        · intro reached followed
          obtain ⟨inside, counted⟩ := reaches reached followed
          refine ⟨inside, ?_⟩
          rw [List.length_cons]
          omega
    · simp only [follow_enter named, entered_cons, left_cons, if_pos named, if_neg named.notUp]
      -- One directory more is around, and one more has been entered.
      obtain ⟨stuck, reaches⟩ :=
        inductionHypothesis others (List.forall_mem_cons.mpr ⟨named, ordinary⟩)
      refine ⟨stuck.trans (exists_congr fun seen => and_congr_right fun _ => ?_), ?_⟩
      · rw [List.length_cons]
        omega
      · intro reached followed
        obtain ⟨inside, counted⟩ := reaches reached followed
        refine ⟨inside, ?_⟩
        rw [List.length_cons] at counted
        omega

end Following

/-- The reference that climbs out of a number of directories and goes on with the segments `rest`
from there. Without any directory to climb out of it says that it starts where it stands. -/
def climbing (height : Nat) (rest : List Segment) : List Char :=
  (if height = 0 then ['.', '/'] else (List.replicate height ['.', '.', '/']).flatten) ++
    Path.join rest

/-- Such a reference is relative. -/
theorem climbing_relative (height : Nat) (rest : List Segment) :
    isRelative (climbing height rest) = true := by
  cases height with
  | zero => rfl
  | succ height => rfl

/-- The segments of such a reference, behind the pairs of dots. -/
theorem split_climbs (height : Nat) (text : List Char) :
    Path.split ((List.replicate height ['.', '.', '/']).flatten ++ text) =
      List.replicate height ['.', '.'] ++ Path.split text := by
  induction height with
  | zero => rfl
  | succ height inductionHypothesis =>
    exact (@Path.split_segment ['.', '.'] (by decide) _).trans (congrArg _ inductionHypothesis)

/-- Joined ordinary segments are followed as they are. Without any segments the text is empty, which
is a single empty segment and leads nowhere. -/
theorem follow_joined {segments : List Segment}
    (ordinary : ∀ segment ∈ segments, Ordinary segment) (place : List Segment) :
    follow place (Path.split (Path.join segments)) = some (segments.reverse ++ place) := by
  by_cases none : segments = []
  · subst none
    exact follow_stay (.inl rfl) place []
  · rw [Path.split_join none fun segment member => (ordinary segment member).slashless]
    exact follow_ordinary ordinary place

/-- Where such a reference leads from the directories `up` below a place: out of these, and into
what the further segments name. -/
theorem follow_climbing (up : List Segment) {rest : List Segment}
    (ordinary : ∀ segment ∈ rest, Ordinary segment) (place : List Segment) :
    follow (up ++ place) (Path.split (climbing up.length rest)) =
      some (rest.reverse ++ place) := by
  unfold climbing
  split
  · next level =>
    obtain rfl := List.length_eq_zero_iff.mp level
    rw [show (['.', '/'] ++ Path.join rest) = ['.'] ++ '/' :: Path.join rest from rfl,
      Path.split_segment (by decide), List.nil_append, follow_stay (.inr rfl)]
    exact follow_joined ordinary place
  · rw [split_climbs, follow_climb]
    exact follow_joined ordinary place

/-- From one template to another, given by the segments of their names: leave what is not common and
enter the rest. The last segment of the referring name is the file itself, and references start in
its directory. -/
theorem resolve_climbing {referrer target : String} {common up rest : List Segment}
    (inside : ∀ segment ∈ common ++ up, Ordinary segment)
    (further : ∀ segment ∈ rest, Ordinary segment)
    (placed : (Path.split referrer.toList).dropLast = common ++ up)
    (sought : Path.split target.toList = common ++ rest) :
    resolve? (some referrer) (String.ofList (climbing up.length rest)) = some target := by
  have directory : directoryText (some referrer) = Path.join (common ++ up) :=
    congrArg Path.join placed
  have starts : start (some referrer) = up.reverse ++ common.reverse :=
    (start_of_text inside directory).trans List.reverse_append
  have leads := follow_climbing up.reverse further common.reverse
  rw [List.length_reverse] at leads
  rw [resolve_relative (by rw [String.toList_ofList]; exact climbing_relative up.length rest),
    String.toList_ofList, starts, leads, Option.map_some, List.reverse_append,
    List.reverse_reverse, List.reverse_reverse, ← sought, Path.join_split, String.ofList_toList]

end Reference

/-- A name that a file or a directory can have: no slash is part of it, and it is none of the
names that are kept for directories nearby. -/
structure FileName.Proper (name : FileName) : Prop where
  filled : name ≠ []
  notHere : name ≠ [0x2E]
  notUp : name ≠ [0x2E, 0x2E]
  slashless : 0x2F ∉ name

/-- Each of the four conditions can be checked. -/
instance (name : FileName) : Decidable name.Proper :=
  decidable_of_iff (name ≠ [] ∧ name ≠ [0x2E] ∧ name ≠ [0x2E, 0x2E] ∧ 0x2F ∉ name)
    ⟨fun ⟨filled, notHere, notUp, slashless⟩ => ⟨filled, notHere, notUp, slashless⟩,
      fun ⟨filled, notHere, notUp, slashless⟩ => ⟨filled, notHere, notUp, slashless⟩⟩

namespace Tree

mutual

/-- All files and directories in a tree have proper names. The root itself has none, so a tree that
is a file is proper. -/
def Proper : Tree → Prop
  | .file _ => True
  | .directory entries => ProperEntries entries

/-- All entries of a directory have proper names, and so has what is in them. A proper name is an
ordinary segment, as it comes from the file system. -/
def ProperEntries : List (FileName × Tree) → Prop
  | [] => True
  | (name, tree) :: rest => name.Proper ∧ Proper tree ∧ ProperEntries rest

end

mutual

/-- The paths of the files below a path are made of its names and of names in the tree, so they are
proper if both are. -/
theorem below_proper {tree : Tree} (proper : tree.Proper) {path : List FileName}
    (above : ∀ name ∈ path, name.Proper) :
    ∀ file ∈ tree.filesBelow path, ∀ name ∈ file.1, name.Proper := by
  cases tree with
  | file content =>
    rintro file member
    obtain rfl := List.mem_singleton.mp member
    exact above
  | directory entries => exact entries_proper proper above

/-- The same for the entries of a directory. The two are proved together, along the tree, and the
path to it grows by a proper name on the way down. -/
theorem entries_proper {entries : List (FileName × Tree)} (proper : ProperEntries entries)
    {path : List FileName} (above : ∀ name ∈ path, name.Proper) :
    ∀ file ∈ filesOfEntries path entries, ∀ name ∈ file.1, name.Proper := by
  cases entries with
  | nil => exact fun file member => nomatch member
  | cons entry rest =>
    obtain ⟨name, tree⟩ := entry
    obtain ⟨named, inside, others⟩ := proper
    have further : ∀ part ∈ path ++ [name], FileName.Proper part := by
      intro part member
      rcases List.mem_append.mp member with before | last
      · exact above part before
      · exact List.mem_singleton.mp last ▸ named
    intro file member
    rcases List.mem_append.mp member with here | later
    · exact below_proper inside further file here
    · exact entries_proper others above file later

end

/-- The paths of the files in a tree are made of proper names. -/
theorem files_proper {tree : Tree} (proper : tree.Proper) :
    ∀ file ∈ tree.files, ∀ name ∈ file.1, name.Proper := by
  cases tree with
  | file content => exact fun file member => nomatch member
  | directory entries => exact entries_proper proper fun name member => nomatch member

end Tree

namespace Loading

open Stencil.Path (Ordinary)

/-- The bytes of a name that is text are those of the text in UTF-8. So names of files that differ
have texts that differ. -/
theorem bytes_of_text {bytes : List UInt8} {text : String} (read : text? bytes = some text) :
    bytes = text.toList.flatMap String.utf8EncodeChar := by
  unfold text? String.fromUTF8? at read
  split at read
  · next valid =>
    have encoded : text.toList.utf8Encode = ⟨bytes.toArray⟩ := by
      rw [String.utf8Encode_toList, ← Option.some.inj read]
      rfl
    have same := congrArg (fun array => array.data.toList) encoded
    simpa [List.utf8Encode, List.data_toByteArray] using same.symm
  · cases read

/-- The text of a proper name is an ordinary segment: the characters that matter are single bytes of
the same number, and no other character has such a byte in it. -/
theorem ordinary_of_proper {name : FileName} (proper : name.Proper) {text : String}
    (read : text? name = some text) : Ordinary text.toList := by
  have bytes := bytes_of_text read
  refine ⟨fun empty => proper.filled ?_, fun here => proper.notHere ?_,
    fun up => proper.notUp ?_, fun slash => proper.slashless ?_⟩
  · rw [bytes, empty]
    rfl
  · rw [bytes, here]
    rfl
  · rw [bytes, up]
    rfl
  · rw [bytes]
    exact List.mem_flatMap.mpr ⟨'/', slash, by decide⟩

/-- The texts of a path are those of its parts. The induction is on the path; one part without a
text and the whole path has none. -/
theorem texts_read {path : List FileName} {texts : List String}
    (read : path.mapM text? = some texts) :
    ∀ text ∈ texts, ∃ part ∈ path, text? part = some text := by
  induction path generalizing texts with
  | nil =>
    obtain rfl := Option.some.inj read
    exact fun text member => nomatch member
  | cons part rest inductionHypothesis =>
    simp only [List.mapM_cons, Option.bind_eq_bind, Option.bind_eq_some_iff] at read
    obtain ⟨first, here, others, behind, made⟩ := read
    obtain rfl := Option.some.inj made
    intro text member
    rcases List.mem_cons.mp member with rfl | later
    · exact ⟨part, List.mem_cons_self, here⟩
    · obtain ⟨kept, inside, same⟩ := inductionHypothesis behind text later
      exact ⟨kept, List.mem_cons_of_mem part inside, same⟩

/-- The name of a template that is loaded joins the texts of its path, of which there is one at
least. -/
theorem name_joins {extensions : List String} {path : List FileName} {name : String}
    (named : templateName? extensions path = some name) :
    ∃ texts, path.mapM text? = some texts ∧ texts ≠ [] ∧
      name.toList = Path.join (texts.map String.toList) := by
  simp only [templateName?, Option.bind_eq_bind, Option.bind_eq_some_iff] at named
  obtain ⟨texts, read, leaf, last, -, -, made⟩ := named
  refine ⟨texts, read, fun none => ?_, ?_⟩
  · rw [none] at last
    cases last
  · rw [← Option.some.inj made, Path.join_texts]

/-- Names and paths agree: the segments of the name of a template are the texts of the parts of its
path, and all of them are ordinary. Cutting the name at its slashes gives the parts back, because no
proper name holds a slash. -/
theorem name_segments {extensions : List String} {path : List FileName} {name : String}
    (proper : ∀ part ∈ path, part.Proper)
    (named : templateName? extensions path = some name) :
    (path.mapM text?).map (List.map String.toList) = some (Path.split name.toList) ∧
      ∀ segment ∈ Path.split name.toList, Ordinary segment := by
  obtain ⟨texts, read, filled, joined⟩ := name_joins named
  have ordinary : ∀ segment ∈ texts.map String.toList, Ordinary segment := by
    intro segment member
    obtain ⟨text, kept, rfl⟩ := List.mem_map.mp member
    obtain ⟨part, inside, same⟩ := texts_read read text kept
    exact ordinary_of_proper (proper part inside) same
  have parts : Path.split name.toList = texts.map String.toList := by
    rw [joined]
    exact Path.split_join (mt List.map_eq_nil_iff.mp filled)
      fun segment member => (ordinary segment member).slashless
  rw [parts, read]
  exact ⟨rfl, ordinary⟩

end Loading

namespace Reference

open Stencil.Path (Segment Ordinary)

/-- Names and references agree, and no reference leads out of the root.

The name of a loaded template is made of the parts of its path. From the template in one file of a
tree, the reference that leaves the directories that are not common and enters the rest leads to
the name of the template in the other.

From a template in any directory, or from the root, a relative reference stands for nothing if and
only if some first part of it leaves more directories than there are. Whatever else it stands for
is made of ordinary segments. -/
theorem references_stay_inside :
    (∀ (extensions : List String) (tree : Tree), tree.Proper →
      ∀ referrer ∈ tree.files, ∀ referrerName,
        Loading.templateName? extensions referrer.1 = some referrerName →
      (referrer.1.mapM Loading.text?).map (List.map String.toList) =
          some (Path.split referrerName.toList) ∧
        ∀ target ∈ tree.files, ∀ targetName,
          Loading.templateName? extensions target.1 = some targetName →
        ∀ common up rest : List Segment,
          (Path.split referrerName.toList).dropLast = common ++ up →
          Path.split targetName.toList = common ++ rest →
          resolve? (some referrerName) (String.ofList (climbing up.length rest)) =
            some targetName) ∧
    ∀ (referrer : Option String) (directories : List Segment) (target : String),
      (∀ segment ∈ directories, Ordinary segment) →
      directoryText referrer = Path.join directories →
      isRelative target.toList = true →
      (resolve? referrer target = none ↔
        Escapes directories.length (Path.split target.toList)) ∧
      ∀ name, resolve? referrer target = some name →
        ∃ segments : List Segment,
          (∀ segment ∈ segments, Ordinary segment) ∧
          segments.length + left (Path.split target.toList) =
            directories.length + entered (Path.split target.toList) ∧
          name.toList = Path.join segments := by
  constructor
  -- Up to the common directory and down from it: the segments that lead up are those that the
  -- reference climbs out of.
  · intro extensions tree proper referrer known referrerName named
    obtain ⟨spelled, inside⟩ :=
      Loading.name_segments (Tree.files_proper proper referrer known) named
    refine ⟨spelled, fun target kept targetName called common up rest placed sought => ?_⟩
    obtain ⟨-, ordinary⟩ := Loading.name_segments (Tree.files_proper proper target kept) called
    rw [sought] at ordinary
    refine resolve_climbing (fun segment member => ?_)
      (fun segment member => ordinary segment (List.mem_append_right common member)) placed sought
    exact inside segment (List.mem_of_mem_dropLast (placed ▸ member))
  · intro referrer directories target ordinary placed relative
    have starts := start_of_text ordinary placed
    -- The place where a reference starts is kept with the innermost directory first.
    have above : ∀ segment ∈ start referrer, Ordinary segment := by
      rw [starts]
      exact fun segment member => ordinary segment (List.mem_reverse.mp member)
    obtain ⟨stuck, reaches⟩ :=
      follow_exact (fun segment member => Path.split_parts member) above
    rw [resolve_relative relative, Option.map_eq_none_iff, stuck, starts, List.length_reverse]
    refine ⟨Iff.rfl, fun name resolved => ?_⟩
    obtain ⟨place, followed, made⟩ := Option.map_eq_some_iff.mp resolved
    obtain ⟨inside, counted⟩ := reaches place (starts.symm ▸ followed)
    rw [starts, List.length_reverse] at counted
    refine ⟨place.reverse, fun segment member => ?_, ?_, ?_⟩
    · exact inside segment (List.mem_reverse.mp member)
    · rw [List.length_reverse, counted]
    · rw [← made, String.toList_ofList]

/-- The file `p/a/x.html` refers to the file `p/y.html` by `../y.html`; two more pairs of dots lead
out of the root. The directory is written with the bytes of the names. -/
theorem references_stay_inside_example :
    let tree : Tree := .directory [([0x70], .directory
      [([0x61], .directory [([0x78, 0x2E, 0x68, 0x74, 0x6D, 0x6C], .file [])]),
        ([0x79, 0x2E, 0x68, 0x74, 0x6D, 0x6C], .file [])])]
    tree.Proper ∧
      ([[0x70], [0x61], [0x78, 0x2E, 0x68, 0x74, 0x6D, 0x6C]], []) ∈ tree.files ∧
      ([[0x70], [0x79, 0x2E, 0x68, 0x74, 0x6D, 0x6C]], []) ∈ tree.files ∧
      String.ofList (climbing 1 ["y.html".toList]) = "../y.html" ∧
      resolve? (some "p/a/x.html") "../y.html" = some "p/y.html" ∧
      resolve? (some "p/a/x.html") "../../../y.html" = none := by
  intro tree
  have proper : tree.Proper := by
    simp only [tree, Tree.Proper, Tree.ProperEntries]
    decide
  have first : ([[0x70], [0x61], [0x78, 0x2E, 0x68, 0x74, 0x6D, 0x6C]], []) ∈ tree.files := by
    decide
  have second : ([[0x70], [0x79, 0x2E, 0x68, 0x74, 0x6D, 0x6C]], []) ∈ tree.files := by
    decide
  have firstName : Loading.templateName? ["html"]
      [[0x70], [0x61], [0x78, 0x2E, 0x68, 0x74, 0x6D, 0x6C]] = some "p/a/x.html" := rfl
  have secondName : Loading.templateName? ["html"]
      [[0x70], [0x79, 0x2E, 0x68, 0x74, 0x6D, 0x6C]] = some "p/y.html" := rfl
  refine ⟨proper, first, second, by decide, ?_, ?_⟩
  · exact (references_stay_inside.1 ["html"] tree proper _ first _ firstName).2 _ second _
      secondName [['p']] [['a']] ["y.html".toList] (by decide) (by decide)
  · refine (references_stay_inside.2 (some "p/a/x.html") [['p'], ['a']] "../../../y.html"
      (by decide) (by decide) (by decide)).1.mpr ?_
    exact ⟨[['.', '.'], ['.', '.'], ['.', '.']], by decide, by decide⟩

end Reference

end Stencil
