import Stencil.Proofs.Harmless
import Stencil.Proofs.Phrases

/-!
# Plain values

A value is plain if there is no safe text in it, at whatever depth. Whether escaping is on is asked
in two places only: where plain text joins safe text, and where a value is put out. So where all
values are plain, an expression has the same value with escaping on and off, or fails in the same
way, and as long as no filter in it marks text as safe, that value is plain again.
-/

namespace Stencil

/-- A computation that does not hang on whether escaping is on, and whose result, if it has one, is
as it should be. The two are carried together, since what comes next need only be steady for results
of this kind. -/
def Steady {ε α : Type} (holds : α → Prop) (outcome : Bool → Except ε α) : Prop :=
  outcome true = outcome false ∧ ∀ a, outcome false = .ok a → holds a

section Steadiness

variable {ε α β : Type} {holds : α → Prop} {holdsNext : β → Prop}

/-- A result that is there already is steady if it is as it should be. Escaping is not asked for in
it at all. -/
theorem steady_ok {a : α} (held : holds a) :
    Steady holds (fun _ => .ok a : Bool → Except ε α) := by
  refine ⟨rfl, fun other same => ?_⟩
  cases same
  exact held

/-- What takes no notice of escaping is steady, as long as its result is as it should be. -/
theorem steady_blind {outcome : Except ε α} (held : ∀ a, outcome = .ok a → holds a) :
    Steady holds fun _ => outcome := ⟨rfl, held⟩

/-- What follows a steady computation need only be steady for results as they should be. A failure
of the first computation is the same with escaping on and off, and is that of the whole. -/
theorem steady_bind {first : Bool → Except ε α} {next : Bool → α → Except ε β}
    (before : Steady holds first) (behind : ∀ a, holds a → Steady holdsNext (next · a)) :
    Steady holdsNext fun escaping => first escaping >>= next escaping := by
  obtain ⟨same, held⟩ := before
  refine ⟨?_, fun b succeeded => ?_⟩
  · show first true >>= next true = first false >>= next false
    rw [same]
    cases ran : first false with
    | error fault => rfl
    | ok a => exact (behind a (held a ran)).1
  · obtain ⟨a, ran, later⟩ := bind_eq_ok.mp succeeded
    exact (behind a (held a ran)).2 b later

/-- What is made of the result of a steady computation is steady, if it is as it should be whenever
the result is. -/
theorem steady_map {first : Bool → Except ε α} (before : Steady holds first) {f : α → β}
    (held : ∀ a, holds a → holdsNext (f a)) :
    Steady holdsNext fun escaping => (first escaping).map f := by
  have bound : Steady holdsNext fun escaping => first escaping >>= fun a => .ok (f a) :=
    steady_bind before fun a ran => steady_ok (held a ran)
  have same (outcome : Except ε α) : (outcome >>= fun a => .ok (f a)) = outcome.map f := by
    cases outcome <;> rfl
  simpa only [same] using bound

end Steadiness

namespace Value

mutual

/-- The safe texts in a value, at any depth, in the order in which they are met. The names in
mappings are not among them, since names are never marked. -/
def marked : Value → List String
  | .safe s => [s]
  | .seq items => markedIn items
  | .map entries => markedUnder entries
  | .undefined | .none | .bool _ | .int _ | .float _ | .text _ => []

/-- The safe texts in the items of a sequence. -/
def markedIn : List Value → List String
  | [] => []
  | item :: rest => marked item ++ markedIn rest

/-- The safe texts in the entries of a mapping. -/
def markedUnder : List (String × Value) → List String
  | [] => []
  | (_, entry) :: rest => marked entry ++ markedUnder rest

end

/-- There is no safe text in a value. Text that is not safe may hold anything, marks included: it is
escaped when it is put out. -/
def Plain (value : Value) : Prop := value.marked = []

/-- Whether a value is plain can be seen by looking for safe texts. -/
instance (value : Value) : Decidable value.Plain :=
  inferInstanceAs (Decidable (value.marked = []))

/-- What is undefined is plain. -/
theorem plain_undefined : Plain .undefined := rfl

/-- A safe text is not plain, even if it is empty. -/
theorem not_plain_safe {s : String} : ¬ (Value.safe s).Plain := List.cons_ne_nil s []

/-- A sequence is plain exactly if all its items are. The safe texts of a sequence are those of its
items, so there are none if and only if each item has none. -/
@[simp] theorem plain_seq {items : List Value} :
    (Value.seq items).Plain ↔ ∀ item ∈ items, item.Plain := by
  unfold Plain
  rw [marked]
  induction items with
  | nil => exact iff_of_true rfl (List.forall_mem_nil _)
  | cons item rest inductionHypothesis =>
    rw [markedIn, List.append_eq_nil_iff, inductionHypothesis, List.forall_mem_cons]

/-- A mapping is plain exactly if all its entries are; names are no values. The equivalence is shown
as for sequences. -/
@[simp] theorem plain_map {entries : List (String × Value)} :
    (Value.map entries).Plain ↔ ∀ entry ∈ entries, entry.2.Plain := by
  unfold Plain
  rw [marked]
  induction entries with
  | nil => exact iff_of_true rfl (List.forall_mem_nil _)
  | cons entry rest inductionHypothesis =>
    obtain ⟨name, entry⟩ := entry
    rw [markedUnder, List.append_eq_nil_iff, inductionHypothesis, List.forall_mem_cons]

/-- What is found in a plain value is plain, also where nothing is found. -/
theorem plain_getD {found : Option Value} (each : ∀ value, found = some value → value.Plain) :
    (found.getD .undefined).Plain := by
  cases found with
  | none => exact plain_undefined
  | some value => exact each value rfl

/-- An entry of a plain mapping is plain, also where there is none. -/
theorem plain_get {entries : List (String × Value)} (plain : (Value.map entries).Plain)
    (name : String) : ((Dict.get? entries name).getD .undefined).Plain :=
  plain_getD fun _ found => plain_map.mp plain _ (Dict.mem_of_get? found)

/-- An item of a plain sequence is plain, also where there is none and it is undefined. -/
theorem plain_item {items : List Value} (plain : (Value.seq items).Plain) (position : Nat) :
    ((items[position]?).getD .undefined).Plain :=
  plain_getD fun value found => plain_seq.mp plain value (List.mem_of_getElem? found)

/-- So is an item that is counted from the back. A position outside leads to an undefined value,
which is plain. -/
theorem plain_itemAt {items : List Value} (plain : (Value.seq items).Plain) (position : Int) :
    (itemAt items position).Plain := by
  unfold itemAt
  generalize (if position < 0 then (items.length : Int) + position else position) = fromStart
  by_cases outside : fromStart < 0
  · rw [if_pos outside]
    exact plain_undefined
  · rw [if_neg outside]
    exact plain_item plain fromStart.toNat

/-- A number is plain, also where it is given as one that does not fit. -/
theorem plain_ofNat (n : Nat) : (ofNat n).Plain := by
  unfold ofNat
  split <;> rfl

/-- A step by name into a plain value leads to a plain value. Sequences have their own parts by
name, mappings their entries; both are plain. -/
theorem plain_member {of : Expr} {name : String} {value part : Value} (plain : value.Plain)
    (found : value.member of name = .ok part) : part.Plain := by
  unfold member at found
  split at found
  · obtain rfl := Except.ok.inj found
    exact plain_get plain name
  · obtain rfl := Except.ok.inj found
    refine plain_getD fun item held => ?_
    obtain ⟨position, -, held⟩ := Option.bind_eq_some_iff.mp held
    exact plain_seq.mp plain item (List.mem_of_getElem? held)
  · cases found

/-- So does a step by key, of whichever kind the key is. Some kinds of key fail on some kinds of
value, and then there is no part to speak of. -/
theorem plain_part {of : Expr} {value key part : Value} (plain : value.Plain)
    (found : value.part of key = .ok part) : part.Plain := by
  unfold Value.part at found
  split at found
  · exact Except.ok.inj found ▸ plain_get plain _
  · exact Except.ok.inj found ▸ plain_get plain _
  · exact Except.ok.inj found ▸ plain_get plain _
  · cases found
  · exact Except.ok.inj found ▸ plain_itemAt plain _
  · cases found
  · cases found

/-- Plain values are added without escaping anything: where neither side is safe, escaping is not
asked for, and the sum of two plain texts is a plain text. All pairs of kinds are gone through, and
most of them cannot be added. -/
theorem steady_add {left right : Value} (plainLeft : left.Plain) (plainRight : right.Plain) :
    Steady Plain fun escaping => left.add escaping right := by
  refine ⟨?_, fun sum added => ?_⟩
  · show left.add true right = left.add false right
    unfold add
    split
    · rfl
    · rfl
    · rfl
    · rfl
    · rfl
    · rfl
    · exact absurd plainLeft not_plain_safe
    · exact absurd plainRight not_plain_safe
    · rfl
  · unfold add at added
    split at added
    · split at added <;> cases added
      rfl
    · cases added
      rfl
    · cases added
      rfl
    · cases added
      rfl
    · cases added
      rfl
    · exact absurd plainLeft not_plain_safe
    · exact absurd plainLeft not_plain_safe
    · exact absurd plainRight not_plain_safe
    · cases added

/-- A plain value is put out as it is displayed, and escaped if escaping is on. A sequence or a
mapping is put out in neither way. -/
theorem emit_plain {value : Value} (plain : value.Plain) (escaping : Bool) (of : Expr) :
    value.emit escaping of = (value.emit false of).map (joining escaping) := by
  unfold emit
  split
  · exact absurd plain not_plain_safe
  · rfl
  · rfl
  · rfl

end Value

namespace Filter

/-- The names of the filters that mark text as safe; two of them name the same filter. -/
def marking : List String := ["safe", "escape", "e"]

/-- Every filter but the two that mark text makes plain values of plain ones. The arguments have to
be plain as well, since a filter may give back what it was given. -/
theorem plain_apply {filter : Filter} (notSafe : filter ≠ .safe) (notEscape : filter ≠ .escape)
    {value result : Value} {arguments : List Value} (plain : value.Plain)
    (inArguments : ∀ argument ∈ arguments, argument.Plain)
    (applied : filter.apply value arguments = .ok result) : result.Plain := by
  have mapped (f : List Char → List Char) : (mapText f value).Plain := by
    unfold mapText
    split
    · exact absurd plain Value.not_plain_safe
    · rfl
  unfold apply at applied
  split at applied
  · exact absurd rfl notSafe
  · exact absurd rfl notEscape
  · exact Except.ok.inj applied ▸ mapped Text.upper
  · exact Except.ok.inj applied ▸ mapped Text.lower
  · exact Except.ok.inj applied ▸ mapped Text.trim
  · unfold lengthOf at applied
    split at applied
    · exact Except.ok.inj applied ▸ Value.plain_ofNat _
    · exact Except.ok.inj applied ▸ Value.plain_ofNat _
    · exact Except.ok.inj applied ▸ Value.plain_ofNat _
    · exact Except.ok.inj applied ▸ Value.plain_ofNat _
    · cases applied
  · split at applied
    · obtain rfl := Except.ok.inj applied
      rw [List.headD_eq_head?_getD]
      exact Value.plain_getD fun argument first => inArguments argument (List.mem_of_head? first)
    · exact Except.ok.inj applied ▸ plain

/-- The two filters that mark text have no other names. -/
theorem ofName_marking {name : String} {filter : Filter} (named : ofName? name = some filter)
    (marks : filter = .safe ∨ filter = .escape) : name ∈ marking := by
  unfold ofName? at named
  split at named <;> rcases marks with rfl | rfl <;> simp_all [marking]

/-- So a filter that is called by another name than theirs makes plain values of plain ones. An
unknown name is refused, and the other names belong to filters that do not mark. -/
theorem plain_applyNamed {name : String} (unmarked : name ∉ marking) {value result : Value}
    {arguments : List Value} (plain : value.Plain)
    (inArguments : ∀ argument ∈ arguments, argument.Plain)
    (applied : applyNamed name value arguments = .ok result) : result.Plain := by
  unfold applyNamed at applied
  split at applied
  · cases applied
  · next filter named =>
    split at applied
    · refine plain_apply ?_ ?_ plain inArguments applied
      · exact fun safe => unmarked (ofName_marking named (.inl safe))
      · exact fun escape => unmarked (ofName_marking named (.inr escape))
    · cases applied

end Filter

/-- Every value in a layer is plain. Nothing is asked of the names, by which values are found and
which are not put out. -/
def Layer.Plain (layer : Layer) : Prop := ∀ binding ∈ layer, binding.2.Plain

/-- It can be seen by looking at the bindings one by one. -/
instance (layer : Layer) : Decidable layer.Plain :=
  inferInstanceAs (Decidable (∀ binding ∈ layer, binding.2.Plain))

/-- A plain value may be bound in a plain layer, under a name that is new or not. -/
theorem Layer.plain_insert {layer : Layer} (plain : layer.Plain) {name : String} {value : Value}
    (new : value.Plain) : Layer.Plain (Dict.insert layer name value) := by
  intro binding member
  rcases Dict.mem_insert member with rfl | kept
  · exact new
  · exact plain binding kept

/-- The variables that a plain value holds are plain. -/
theorem Layer.plain_ofValue {value : Value} {layer : Layer} (plain : value.Plain)
    (held : Layer.ofValue value = .ok layer) : layer.Plain := by
  unfold ofValue at held
  split at held
  · exact Except.ok.inj held ▸ Value.plain_map.mp plain
  · exact Except.ok.inj held ▸ List.forall_mem_nil _
  · cases held

/-- Every layer of a scope is plain. What an expression looks up in such a scope is plain as well,
whatever parts of it are asked for. -/
def Scope.Plain (scope : Scope) : Prop := ∀ layer ∈ scope.layers, layer.Plain

namespace Scope

/-- A plain layer may be put on a plain scope. -/
theorem plain_push {scope : Scope} (plain : scope.Plain) {layer : Layer} (new : layer.Plain) :
    (scope.push layer).Plain := List.forall_mem_cons.mpr ⟨new, plain⟩

/-- Names stand for plain values in a plain scope, also where they are unbound and stand for the
undefined value. -/
theorem plain_lookup {scope : Scope} (plain : scope.Plain) (name : String) :
    (scope.lookup name).Plain := by
  refine Value.plain_getD fun value found => ?_
  obtain ⟨layer, member, bound⟩ := List.exists_of_findSome?_eq_some found
  exact plain layer member (name, value) (Dict.mem_of_get? bound)

end Scope

/-- No filter in an expression marks text as safe. Filters are named in the expression itself, so
this can be told without a scope. -/
def Expr.Unmarked (e : Expr) : Prop := ∀ name ∈ e.filters, name ∉ Filter.marking

/-- It can be seen by looking at the names of the filters. -/
instance (e : Expr) : Decidable e.Unmarked :=
  inferInstanceAs (Decidable (∀ name ∈ e.filters, name ∉ Filter.marking))

namespace Expr

/-- The filters in a list of expressions are those in its expressions. -/
theorem filters_of_eq_flatMap (items : List Expr) : filtersOf items = items.flatMap filters := by
  induction items with
  | nil => rfl
  | cons e rest inductionHypothesis =>
    rw [filtersOf, inductionHypothesis, List.flatMap_cons]

variable {scope : Scope}

/-- Expressions in a list are steady if each of them is; the first that fails decides, and it is the
same one with escaping on and off. -/
theorem steady_evalAll {items : List Expr}
    (each : ∀ item ∈ items, Steady Value.Plain fun escaping => item.eval escaping scope) :
    Steady (fun values => ∀ value ∈ values, Value.Plain value)
      fun escaping => evalAll escaping scope items := by
  induction items with
  | nil => exact steady_ok (List.forall_mem_nil _)
  | cons e rest inductionHypothesis =>
    obtain ⟨first, others⟩ := List.forall_mem_cons.mp each
    exact steady_bind first fun value plain =>
      steady_bind (inductionHypothesis others) fun values plainValues =>
        steady_ok (List.forall_mem_cons.mpr ⟨plain, plainValues⟩)

/-- In a plain scope an expression without marks has one value, with escaping on and off, and that
value is plain. The induction is over the expression. Sums are where escaping could be asked for,
and they are plain by what is known of their sides; filters are where safe text could come in, and
they are not among those that mark it. -/
theorem steady_eval (plain : scope.Plain) {e : Expr} (unmarked : e.Unmarked) :
    Steady Value.Plain fun escaping => e.eval escaping scope := by
  have truth (b : Bool) : Steady Value.Plain
      (fun _ => .ok (.bool b) : Bool → Except Mistyped Value) := steady_ok rfl
  have listed {items : List Expr}
      (each : ∀ item ∈ items, item.Unmarked →
        Steady Value.Plain fun escaping => item.eval escaping scope)
      (unmarked : ∀ name ∈ filtersOf items, name ∉ Filter.marking) :
      Steady (fun values => ∀ value ∈ values, Value.Plain value)
        fun escaping => evalAll escaping scope items := by
    rw [filters_of_eq_flatMap, List.forall_mem_flatMap] at unmarked
    exact steady_evalAll fun item member => each item member (unmarked item member)
  induction e using expr_induction with
  | text s => exact steady_ok rfl
  | int n => exact steady_ok rfl
  | float x => exact steady_ok rfl
  | bool b => exact steady_ok rfl
  | none => exact steady_ok rfl
  | list items each =>
    exact steady_map (listed each unmarked) fun values plainValues =>
      Value.plain_seq.mpr plainValues
  | named name => exact steady_ok (Scope.plain_lookup plain name)
  | part of name inner =>
    exact steady_bind (inner unmarked) fun value plain =>
      steady_blind fun part found => Value.plain_member plain found
  | index of key inOperand inKey =>
    obtain ⟨first, second⟩ := List.forall_mem_append.mp unmarked
    exact steady_bind (inOperand first) fun value plain =>
      steady_bind (inKey second) fun key _ =>
        steady_blind fun part found => Value.plain_part plain found
  | not of inner => exact steady_bind (inner unmarked) fun value _ => truth !value.isTruthy
  | binary op left right inLeft inRight =>
    obtain ⟨first, second⟩ := List.forall_mem_append.mp unmarked
    cases op with
    | and =>
      -- Which side is asked depends on the left value, and that is one value in both modes.
      refine steady_bind (inLeft first) fun value _ => ?_
      by_cases holds : value.isTruthy = true
      · simp only [holds, if_true]
        exact steady_bind (inRight second) fun other _ => truth other.isTruthy
      · simp only [holds]
        exact truth false
    | or =>
      refine steady_bind (inLeft first) fun value _ => ?_
      by_cases holds : value.isTruthy = true
      · simp only [holds, if_true]
        exact truth true
      · simp only [holds]
        exact steady_bind (inRight second) fun other _ => truth other.isTruthy
    | equal =>
      exact steady_bind (inLeft first) fun value _ =>
        steady_bind (inRight second) fun other _ => truth (value.looseEq other)
    | unequal =>
      exact steady_bind (inLeft first) fun value _ =>
        steady_bind (inRight second) fun other _ => truth !value.looseEq other
    | plus =>
      -- The one operator that looks at the mode; with plain sides both modes give the same text.
      exact steady_bind (inLeft first) fun value plainLeft =>
        steady_bind (inRight second) fun other plainRight =>
          Value.steady_add plainLeft plainRight
  | filter of name arguments inOperand inArguments =>
    obtain ⟨here, others⟩ := List.forall_mem_cons.mp unmarked
    obtain ⟨first, second⟩ := List.forall_mem_append.mp others
    exact steady_bind (inOperand first) fun value plain =>
      steady_bind (listed inArguments second) fun values plainValues =>
        steady_blind fun result applied => Filter.plain_applyNamed here plain plainValues applied

end Expr

end Stencil
