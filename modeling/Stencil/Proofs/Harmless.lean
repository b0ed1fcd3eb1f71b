import Stencil.Expr.Evaluation

/-!
# Harmless values

Text is harmless in markup if it has none of the four characters that open or close a tag or end
a quoted part. A value is harmless if all safe text in it is, at whatever depth; text that is not
safe may hold anything, since it is escaped before it is put out. Whatever an expression makes of
harmless values is harmless, as long as it does not declare text safe on its own.
-/

namespace Stencil

namespace Text

namespace Markup

/-- The characters that open or close a tag or end a quoted part. Text without them stays text
wherever it is put into markup. -/
def marks : List Char := ['<', '>', '"', '\'']

/-- None of those characters is in a text. Entities pass, since an ampersand is not one of them:
this is about text that has been escaped. -/
def Harmless (text : List Char) : Prop := ∀ c ∈ text, c ∉ marks

/-- It can be seen by looking at the characters one by one. -/
instance (text : List Char) : Decidable (Harmless text) :=
  List.decidableBAll (fun c => c ∉ marks) text

/-- Harmless texts put together are harmless, since no mark is made of two characters. -/
theorem harmless_append {before behind : List Char} (first : Harmless before)
    (second : Harmless behind) : Harmless (before ++ behind) := by
  intro c member
  rcases List.mem_append.mp member with here | there
  · exact first c here
  · exact second c there

/-- Text is harmless in which every character has been replaced by harmless text. -/
theorem harmless_flatMap {image : Char → List Char} {text : List Char}
    (each : ∀ c ∈ text, Harmless (image c)) : Harmless (text.flatMap image) := by
  intro c member
  obtain ⟨source, held, made⟩ := List.mem_flatMap.mp member
  exact each source held c made

/-- Text that has no other characters than harmless text is harmless. -/
theorem harmless_of_subset {few many : List Char} (harmless : Harmless many) (part : few ⊆ many) :
    Harmless few := fun c member => harmless c (part member)

/-- No entity and no other character that escaping leaves is one of the four. Each of them has an
entity, so the character itself is never left. -/
theorem harmless_escapeChar (c : Char) : Harmless (escapeChar c) := by
  unfold escapeChar
  split
  · decide
  · decide
  · decide
  · decide
  · decide
  · next _ notLess notGreater notDouble notSingle =>
    intro other member
    obtain rfl := List.mem_singleton.mp member
    simp only [marks, List.mem_cons, List.not_mem_nil, or_false, not_or]
    exact ⟨notLess, notGreater, notDouble, notSingle⟩

/-- Escaped text is harmless, whatever the text was. -/
theorem harmless_escape (text : String) : Harmless (escape text).toList := by
  rw [escape, String.toList_ofList]
  exact harmless_flatMap fun c _ => harmless_escapeChar c

/-- The four characters come early: none of them has a code point from here on. A number that is no
code point stands for the first one, which is none of the four either. -/
theorem ofNat_not_mark {code : Nat} (late : 0x3F ≤ code) : Char.ofNat code ∉ marks := by
  have early : ∀ c ∈ marks, c.toNat < 0x3F ∧ c ≠ Char.ofNat 0 := by
    simp only [marks, List.forall_mem_cons]
    exact ⟨by decide, by decide, by decide, by decide, List.forall_mem_nil _⟩
  intro member
  by_cases valid : code.isValidChar
  · have same : (Char.ofNat code).toNat = code := by
      rw [Char.ofNat, dif_pos valid]
      rfl
    have bounded := (early _ member).1
    omega
  · have zero : Char.ofNat code = Char.ofNat 0 := by
      rw [Char.ofNat, dif_neg valid]
      rfl
    exact (early _ member).2 zero

end Markup

open Markup (Harmless)

/-- A case mapping keeps text harmless, if its tables lead to late code points only. A character
that is not in the tables stays as it is. All marks come early among the code points, so whatever
the tables lead to is none of them. -/
theorem harmless_mapCase {sequences : List (Nat × List Nat)} {runs : List CaseRun}
    (inSequences : ∀ entry ∈ sequences, ∀ code ∈ entry.2, 0x3F ≤ code)
    (inRuns : ∀ run ∈ runs, 0x3F ≤ run.first + run.distance) {c : Char}
    (harmless : c ∉ Markup.marks) : Harmless (mapCase sequences runs c) := by
  unfold mapCase
  split
  · next codes found =>
    intro image member
    obtain ⟨code, held, rfl⟩ := List.mem_map.mp member
    obtain ⟨before, behind, parts, -⟩ := List.lookup_eq_some_iff.mp found
    have entry : (c.toNat, codes) ∈ sequences := by
      rw [parts]
      exact List.mem_append_right before List.mem_cons_self
    exact Markup.ofNat_not_mark (inSequences _ entry code held)
  · split
    · next code found =>
      intro image member
      obtain rfl := List.mem_singleton.mp member
      obtain ⟨run, held, moved⟩ := List.exists_of_findSome?_eq_some found
      have late := inRuns run held
      unfold CaseRun.image? at moved
      split at moved
      · next inside =>
        have inBounds : run.first ≤ c.toNat := by
          simp only [Bool.and_eq_true, decide_eq_true_eq] at inside
          exact inside.1.1
        obtain rfl := Option.some.inj moved
        apply Markup.ofNat_not_mark
        omega
      · cases moved
    · intro image member
      obtain rfl := List.mem_singleton.mp member
      exact harmless

/-- Upper case keeps text harmless; the tables are checked entry by entry. -/
theorem harmless_upper {text : List Char} (harmless : Harmless text) : Harmless (upper text) := by
  have inSequences : ∀ entry ∈ upperSequences, ∀ code ∈ entry.2, 0x3F ≤ code := by decide +kernel
  have inRuns : ∀ run ∈ upperRuns, 0x3F ≤ run.first + run.distance := by decide +kernel
  exact Markup.harmless_flatMap fun c member =>
    harmless_mapCase inSequences inRuns (harmless c member)

/-- So does lower case, whichever sigma it takes. The induction is over the text, with what stands
before it going along. -/
theorem harmless_lowerAfter (before : List Char) {text : List Char} (harmless : Harmless text) :
    Harmless (lowerAfter before text) := by
  have inSequences : ∀ entry ∈ lowerSequences, ∀ code ∈ entry.2, 0x3F ≤ code := by decide +kernel
  have inRuns : ∀ run ∈ lowerRuns, 0x3F ≤ run.first + run.distance := by decide +kernel
  induction text generalizing before with
  | nil => exact harmless
  | cons c rest inductionHypothesis =>
    have later : Harmless (lowerAfter (c :: before) rest) :=
      inductionHypothesis _ fun other member => harmless other (List.mem_cons_of_mem c member)
    refine Markup.harmless_append ?_ later
    split
    · split <;> decide
    · exact harmless_mapCase inSequences inRuns (harmless c List.mem_cons_self)

/-- So does lower case of a whole text. -/
theorem harmless_lower {text : List Char} (harmless : Harmless text) : Harmless (lower text) :=
  harmless_lowerAfter [] harmless

/-- Taking blanks off the ends keeps text harmless: it leaves a part of the characters that were
there. -/
theorem harmless_trim {text : List Char} (harmless : Harmless text) : Harmless (trim text) := by
  refine Markup.harmless_of_subset harmless ?_
  intro c member
  have first : c ∈ (text.dropWhile isBlank).reverse :=
    (List.dropWhile_sublist isBlank).subset (List.mem_reverse.mp member)
  exact (List.dropWhile_sublist isBlank).subset (List.mem_reverse.mp first)

end Text

namespace Dict

variable {α : Type}

/-- What is found under a name is bound to it; it does not matter whether the name is bound once. -/
theorem mem_of_get? {entries : Dict α} {name : String} {entry : α}
    (found : entries.get? name = some entry) : (name, entry) ∈ entries := by
  induction entries with
  | nil => cases found
  | cons head rest inductionHypothesis =>
    obtain ⟨other, kept⟩ := head
    unfold get? at found
    split at found
    · next same =>
      obtain rfl := Option.some.inj found
      exact same ▸ List.mem_cons_self
    · exact List.mem_cons_of_mem _ (inductionHypothesis found)

/-- An insertion binds nothing else anew. The induction is on the entries, in the three ways in
which names compare. -/
theorem mem_insert {entries : Dict α} {name : String} {entry : α} {binding : String × α}
    (member : binding ∈ entries.insert name entry) :
    binding = (name, entry) ∨ binding ∈ entries := by
  induction entries with
  | nil => exact .inl (List.mem_singleton.mp member)
  | cons head rest inductionHypothesis =>
    obtain ⟨other, kept⟩ := head
    unfold insert at member
    split at member
    · rcases List.mem_cons.mp member with here | later
      · exact .inr (here ▸ List.mem_cons_self)
      · exact (inductionHypothesis later).imp_right (List.mem_cons_of_mem _)
    · split at member
      · exact (List.mem_cons.mp member).imp_right (List.mem_cons_of_mem _)
      · exact List.mem_cons.mp member

/-- Neither do insertions one after the other. -/
theorem mem_foldl_insert {pairs : List (String × α)} {entries : Dict α} {binding : String × α}
    (member : binding ∈ pairs.foldl (fun entries pair => insert entries pair.1 pair.2) entries) :
    binding ∈ entries ∨ binding ∈ pairs := by
  induction pairs generalizing entries with
  | nil => exact .inl member
  | cons pair rest inductionHypothesis =>
    rcases inductionHypothesis member with before | later
    · rcases mem_insert before with rfl | kept
      · exact .inr List.mem_cons_self
      · exact .inl kept
    · exact .inr (List.mem_cons_of_mem pair later)

/-- What is bound one after the other has been among the pairs. -/
theorem mem_ofList {pairs : List (String × α)} {binding : String × α}
    (member : binding ∈ ofList pairs) : binding ∈ pairs :=
  (mem_foldl_insert member).resolve_left List.not_mem_nil

end Dict

namespace Value

/-- All safe text in a value is harmless, at whatever depth. -/
inductive Harmless : Value → Prop
  | undefined : Harmless .undefined
  | none : Harmless .none
  | bool (b : Bool) : Harmless (.bool b)
  | int (n : Int64) : Harmless (.int n)
  | float (x : Float) : Harmless (.float x)
  | text (s : String) : Harmless (.text s)
  | safe {s : String} (content : Text.Markup.Harmless s.toList) : Harmless (.safe s)
  | seq {items : List Value} (each : ∀ item ∈ items, Harmless item) : Harmless (.seq items)
  | map {entries : List (String × Value)} (each : ∀ entry ∈ entries, Harmless entry.2) :
    Harmless (.map entries)

/-- Text that is both safe and harmless has no mark. -/
theorem Harmless.content {s : String} (harmless : (Value.safe s).Harmless) :
    Text.Markup.Harmless s.toList := by
  cases harmless with
  | safe content => exact content

/-- The items of a harmless sequence are harmless, each at its own depth. -/
theorem Harmless.items {items : List Value} (harmless : (Value.seq items).Harmless) :
    ∀ item ∈ items, item.Harmless := by
  cases harmless with
  | seq each => exact each

/-- The entries of a harmless mapping are harmless. -/
theorem Harmless.entries {entries : List (String × Value)}
    (harmless : (Value.map entries).Harmless) : ∀ entry ∈ entries, entry.2.Harmless := by
  cases harmless with
  | map each => exact each

/-- A part of a harmless mapping is harmless, also where there is none. -/
theorem harmless_get {entries : List (String × Value)} (harmless : (Value.map entries).Harmless)
    (name : String) : ((Dict.get? entries name).getD .undefined).Harmless := by
  cases found : Dict.get? entries name with
  | none => exact .undefined
  | some entry => exact harmless.entries _ (Dict.mem_of_get? found)

/-- So is an item of a harmless sequence, also at a position where there is none. -/
theorem harmless_item {items : List Value} (harmless : (Value.seq items).Harmless)
    (position : Nat) : ((items[position]?).getD .undefined).Harmless := by
  cases found : items[position]? with
  | none => exact .undefined
  | some item => exact harmless.items item (List.mem_of_getElem? found)

/-- Numbers are harmless, for there is no text in them. -/
theorem harmless_ofNat (n : Nat) : (ofNat n).Harmless := by
  unfold ofNat
  split
  · exact .int _
  · exact .float _

/-- The same holds where positions may count from the end. -/
theorem harmless_itemAt {items : List Value} (harmless : (Value.seq items).Harmless)
    (position : Int) : (itemAt items position).Harmless := by
  unfold itemAt
  generalize (if position < 0 then (items.length : Int) + position else position) = fromStart
  by_cases outside : fromStart < 0
  · rw [if_pos outside]
    exact .undefined
  · rw [if_neg outside]
    exact harmless_item harmless fromStart.toNat

/-- A step by name into a harmless value leads to a harmless value. The name may also be a position
in a sequence, and where there is nothing the step leads to an undefined value. -/
theorem harmless_member {of : Expr} {name : String} {value part : Value}
    (harmless : value.Harmless) (found : value.member of name = .ok part) : part.Harmless := by
  unfold member at found
  split at found
  · cases found
    exact harmless_get harmless name
  · cases found
    cases position : Number.natural? name.toList with
    | none => exact .undefined
    | some place => exact harmless_item harmless place
  · cases found

/-- So does a step by key. The cases are those of the value and of the key, and most of them fail.
What is not there is undefined, which is harmless as well. -/
theorem harmless_part {of : Expr} {value key part : Value} (harmless : value.Harmless)
    (found : value.part of key = .ok part) : part.Harmless := by
  unfold Value.part at found
  split at found
  · cases found
    exact harmless_get harmless _
  · cases found
    exact harmless_get harmless _
  · cases found
    exact harmless_get harmless _
  · cases found
  · cases found
    exact harmless_itemAt harmless _
  · cases found
  · cases found

/-- Sums are harmless: what joins safe text is escaped first. All pairs of kinds are gone through; a
text is made safe only by escaping it, and two plain texts make a plain one. -/
theorem harmless_add {left right sum : Value} (leftHarmless : left.Harmless)
    (rightHarmless : right.Harmless) (added : left.add true right = .ok sum) : sum.Harmless := by
  unfold add at added
  split at added
  · split at added <;> cases added
    exact .int _
  · cases added
    exact .float _
  · cases added
    exact .float _
  · cases added
    exact .float _
  · cases added
    exact .text _
  · cases added
    refine .safe ?_
    rw [String.toList_append]
    exact Text.Markup.harmless_append leftHarmless.content rightHarmless.content
  · cases added
    refine .safe ?_
    rw [String.toList_append]
    exact Text.Markup.harmless_append leftHarmless.content (Text.Markup.harmless_escape _)
  · cases added
    refine .safe ?_
    rw [String.toList_append]
    exact Text.Markup.harmless_append (Text.Markup.harmless_escape _) rightHarmless.content
  · cases added

/-- What is put out of a harmless value is harmless: safe text as it is, and everything else
escaped. -/
theorem harmless_emit {of : Expr} {value : Value} {text : String} (harmless : value.Harmless)
    (emitted : value.emit true of = .ok text) : Text.Markup.Harmless text.toList := by
  unfold emit at emitted
  split at emitted
  · cases emitted
    exact harmless.content
  · cases emitted
  · cases emitted
  · cases emitted
    exact Text.Markup.harmless_escape _

end Value

namespace Filter

/-- Every filter but one keeps values harmless: it gives safe text of safe text alone, or of text
that it has escaped. The filters are gone through one by one, with whatever arguments they take. -/
theorem harmless_apply {filter : Filter} (guarded : filter ≠ .safe) {value result : Value}
    {arguments : List Value} (harmless : value.Harmless)
    (inArguments : ∀ argument ∈ arguments, argument.Harmless)
    (applied : filter.apply value arguments = .ok result) : result.Harmless := by
  have mapped (f : List Char → List Char)
      (keeps : ∀ {text}, Text.Markup.Harmless text → Text.Markup.Harmless (f text)) :
      (mapText f value).Harmless := by
    unfold mapText
    split
    · refine .safe ?_
      rw [String.toList_ofList]
      exact keeps harmless.content
    · exact .text _
  unfold apply at applied
  split at applied
  · exact absurd rfl guarded
  · split at applied <;> cases applied
    · exact harmless
    · exact .safe (Text.Markup.harmless_escape _)
  · cases applied
    exact mapped Text.upper Text.harmless_upper
  · cases applied
    exact mapped Text.lower Text.harmless_lower
  · cases applied
    exact mapped Text.trim Text.harmless_trim
  · unfold lengthOf at applied
    split at applied <;> cases applied <;> exact Value.harmless_ofNat _
  · split at applied <;> cases applied
    · cases arguments with
      | nil => exact .undefined
      | cons argument rest => exact inArguments argument List.mem_cons_self
    · exact harmless

/-- The name that declares text safe belongs to one filter alone. -/
theorem ofName_safe {name : String} (named : ofName? name = some .safe) : name = "safe" := by
  unfold ofName? at named
  split at named <;> simp_all

/-- So does every filter that is called by another name than the one that declares text safe; an
unknown name gives no value at all. -/
theorem harmless_applyNamed {name : String} (guarded : name ≠ "safe") {value result : Value}
    {arguments : List Value} (harmless : value.Harmless)
    (inArguments : ∀ argument ∈ arguments, argument.Harmless)
    (applied : applyNamed name value arguments = .ok result) : result.Harmless := by
  unfold applyNamed at applied
  split at applied
  · cases applied
  · next filter named =>
    split at applied
    · refine harmless_apply ?_ harmless inArguments applied
      rintro rfl
      exact guarded (ofName_safe named)
    · cases applied

end Filter

/-- Every value in a layer is harmless. Names may hold anything, since they are not put out. -/
def Layer.Harmless (layer : Layer) : Prop := ∀ binding ∈ layer, binding.2.Harmless

/-- A layer with a harmless value more is harmless. -/
theorem Layer.harmless_insert {layer : Layer} (harmless : layer.Harmless) {name : String}
    {value : Value} (new : value.Harmless) : Layer.Harmless (Dict.insert layer name value) := by
  intro binding member
  rcases Dict.mem_insert member with rfl | kept
  · exact new
  · exact harmless binding kept

/-- So is a layer of harmless values bound one after the other. -/
theorem Layer.harmless_ofList {pairs : List (String × Value)}
    (harmless : ∀ pair ∈ pairs, pair.2.Harmless) : Layer.Harmless (Dict.ofList pairs) :=
  fun binding member => harmless binding (Dict.mem_ofList member)

/-- Every layer of a scope is harmless, those of the providers as well as those that loops put on
top of them. -/
def Scope.Harmless (scope : Scope) : Prop := ∀ layer ∈ scope.layers, layer.Harmless

namespace Scope

/-- A harmless layer may be put on a harmless scope. -/
theorem harmless_push {scope : Scope} (harmless : scope.Harmless) {layer : Layer}
    (new : layer.Harmless) : (scope.push layer).Harmless := by
  intro other member
  rcases List.mem_cons.mp member with rfl | outer
  · exact new
  · exact harmless other outer

/-- Names stand for harmless values in a harmless scope, also where they are unbound. A value that
is found is bound in one of the layers. -/
theorem harmless_lookup {scope : Scope} (harmless : scope.Harmless) (name : String) :
    (scope.lookup name).Harmless := by
  unfold lookup lookup?
  cases found : scope.layers.findSome? (Dict.get? · name) with
  | none => exact .undefined
  | some value =>
    obtain ⟨layer, member, bound⟩ := List.exists_of_findSome?_eq_some found
    exact harmless layer member (name, value) (Dict.mem_of_get? bound)

end Scope

section Outcomes

variable {ε α β : Type}

/-- A computation in two parts succeeds exactly if both parts do, the second with what the first has
given. It takes a success apart step by step, with no look at what the parts are. -/
theorem bind_eq_ok {first : Except ε α} {next : α → Except ε β} {b : β} :
    first >>= next = .ok b ↔ ∃ a, first = .ok a ∧ next a = .ok b := by
  cases first with
  | error fault =>
    constructor
    · intro failed
      cases failed
    · rintro ⟨a, failed, -⟩
      cases failed
  | ok a =>
    constructor
    · intro ran
      exact ⟨a, rfl, ran⟩
    · rintro ⟨other, same, ran⟩
      cases same
      exact ran

/-- To tell a fault in other words changes no success. -/
theorem mapError_eq_ok {φ : Type} {tell : ε → φ} {outcome : Except ε α} {a : α} :
    outcome.mapError tell = .ok a ↔ outcome = .ok a := by
  constructor
  · intro succeeded
    cases outcome <;> cases succeeded
    rfl
  · rintro rfl
    rfl

end Outcomes

namespace Expr

mutual

/-- The names of the filters in an expression, at any depth. It is told by the expression alone,
before anything is evaluated. -/
def filters : Expr → List String
  | .text _ | .int _ | .float _ | .bool _ | .none | .variable _ => []
  | .list items => filtersOf items
  | .attribute of _ | .not of => filters of
  | .index of key => filters of ++ filters key
  | .binary _ left right => filters left ++ filters right
  | .filter of name arguments => name :: (filters of ++ filtersOf arguments)

/-- The names of the filters in a list of expressions. -/
def filtersOf : List Expr → List String
  | [] => []
  | e :: rest => filters e ++ filtersOf rest

end

mutual

/-- Expressions that declare no text safe have harmless values in a harmless scope. The induction is
over the expression: parts are taken of harmless values, sums are escaped where they have to be, and
the one filter that could do harm is not called. -/
theorem harmless_eval {scope : Scope} (harmless : scope.Harmless) :
    ∀ {e : Expr} {value : Value}, "safe" ∉ e.filters → e.eval true scope = .ok value →
      value.Harmless
  | .text _, _, _, evaluated | .int _, _, _, evaluated | .float _, _, _, evaluated
  | .bool _, _, _, evaluated | .none, _, _, evaluated => by
    cases evaluated
    constructor
  | .list items, _, guarded, evaluated => by
    cases all : evalAll true scope items with
    | error cause =>
      rw [eval, all] at evaluated
      cases evaluated
    | ok values =>
      rw [eval, all] at evaluated
      cases evaluated
      exact .seq (harmless_evalAll harmless guarded all)
  | .variable name, _, _, evaluated => by
    cases evaluated
    exact Scope.harmless_lookup harmless name
  | .attribute of name, _, guarded, evaluated => by
    obtain ⟨whole, first, found⟩ := bind_eq_ok.mp evaluated
    exact Value.harmless_member (harmless_eval harmless (e := of) guarded first) found
  | .index of key, _, guarded, evaluated => by
    simp only [filters, List.mem_append, not_or] at guarded
    obtain ⟨whole, first, evaluated⟩ := bind_eq_ok.mp evaluated
    obtain ⟨position, second, found⟩ := bind_eq_ok.mp evaluated
    exact Value.harmless_part (harmless_eval harmless guarded.1 first) found
  | .not of, _, _, evaluated => by
    obtain ⟨value, -, negated⟩ := bind_eq_ok.mp evaluated
    cases negated
    exact .bool _
  | .binary .and left right, _, _, evaluated => by
    obtain ⟨value, -, evaluated⟩ := bind_eq_ok.mp evaluated
    split at evaluated
    · obtain ⟨other, -, joined⟩ := bind_eq_ok.mp evaluated
      cases joined
      exact .bool _
    · cases evaluated
      exact .bool _
  | .binary .or left right, _, _, evaluated => by
    obtain ⟨value, -, evaluated⟩ := bind_eq_ok.mp evaluated
    split at evaluated
    · cases evaluated
      exact .bool _
    · obtain ⟨other, -, joined⟩ := bind_eq_ok.mp evaluated
      cases joined
      exact .bool _
  | .binary .equal left right, _, _, evaluated => by
    obtain ⟨value, -, evaluated⟩ := bind_eq_ok.mp evaluated
    obtain ⟨other, -, compared⟩ := bind_eq_ok.mp evaluated
    cases compared
    exact .bool _
  | .binary .unequal left right, _, _, evaluated => by
    obtain ⟨value, -, evaluated⟩ := bind_eq_ok.mp evaluated
    obtain ⟨other, -, compared⟩ := bind_eq_ok.mp evaluated
    cases compared
    exact .bool _
  -- The only operator whose result may be a text: its sides are escaped where they have to be.
  | .binary .plus left right, _, guarded, evaluated => by
    simp only [filters, List.mem_append, not_or] at guarded
    obtain ⟨value, first, evaluated⟩ := bind_eq_ok.mp evaluated
    obtain ⟨other, second, added⟩ := bind_eq_ok.mp evaluated
    exact Value.harmless_add (harmless_eval harmless guarded.1 first)
      (harmless_eval harmless guarded.2 second) added
  | .filter of name arguments, _, guarded, evaluated => by
    simp only [filters, List.mem_cons, List.mem_append, not_or] at guarded
    -- Here the premise is needed, for the filter that is called must not be the one that marks.
    obtain ⟨notSafe, inOperand, inArguments⟩ := guarded
    obtain ⟨value, first, evaluated⟩ := bind_eq_ok.mp evaluated
    obtain ⟨values, all, applied⟩ := bind_eq_ok.mp evaluated
    exact Filter.harmless_applyNamed (Ne.symm notSafe) (harmless_eval harmless inOperand first)
      (harmless_evalAll harmless inArguments all) applied

/-- So have lists of such expressions. The two statements are proved together, along the expression
and the lists in it. -/
theorem harmless_evalAll {scope : Scope} (harmless : scope.Harmless) :
    ∀ {items : List Expr} {values : List Value}, "safe" ∉ filtersOf items →
      evalAll true scope items = .ok values → ∀ value ∈ values, value.Harmless
  | [], _, _, evaluated => by
    cases evaluated
    exact fun value member => nomatch member
  | e :: rest, _, guarded, evaluated => by
    simp only [filtersOf, List.mem_append, not_or] at guarded
    obtain ⟨value, first, evaluated⟩ := bind_eq_ok.mp evaluated
    obtain ⟨values, all, collected⟩ := bind_eq_ok.mp evaluated
    cases collected
    intro other member
    rcases List.mem_cons.mp member with rfl | later
    · exact harmless_eval harmless guarded.1 first
    · exact harmless_evalAll harmless guarded.2 all other later

end

end Expr

end Stencil
