import Mathlib.Data.List.Forall2
import Mathlib.Logic.Relation
import Stencil.Value.Equality

/-!
# Laws of equality

Two values are equal for a template exactly if at every place inside them, and at the same places,
there is what is alike by itself: numbers that are the same or round to the same float, texts of one
content, sequences of one length and mappings with the same names. So the laws of equality are those
of being alike, one place at a time.

Being alike is symmetric, and a float that is not a number is the only thing that is not alike to
itself. It is not transitive: whole numbers are alike if they are the same, but a float is alike to
every whole number that rounds to it. Nothing else can break a chain of equations.
-/

namespace Stencil

namespace Number

open Float.Model (UnpackedFloat)

/-- Whether a float, taken to pieces, is one of the two zeros. They are equal without having the
same sign. -/
def isZero : UnpackedFloat → Bool
  | .zero _ => true
  | _ => false

/-- Finite floats of one sign are equal exactly if the pieces behind the sign are: comparing them
goes by the exponents first, and by the mantissas if these are the same. -/
theorem finite_beq_iff (sign : UnpackedFloat.Sign) {mantissa other : Nat}
    {exponent otherExponent : Int} (positive : 0 < mantissa) (otherPositive : 0 < other) :
    (UnpackedFloat.finite sign mantissa exponent positive).beq
      (.finite sign other otherExponent otherPositive) = true ↔
        mantissa = other ∧ exponent = otherExponent := by
  have order : (compare exponent otherExponent).then (compare mantissa other) = .eq ↔
      mantissa = other ∧ exponent = otherExponent := by
    rw [Ordering.then_eq_eq, Std.compare_eq_iff_eq, Std.compare_eq_iff_eq, and_comm]
  cases sign with
  | positive => exact beq_iff_eq.trans (Option.some_inj.trans order)
  | negative => exact beq_iff_eq.trans (Option.some_inj.trans (Ordering.swap_eq_eq.trans order))

/-- Floats that differ in their sort or their sign are not equal, unless both are zeros; the second
premise shuts that out. So for each pair of sorts only their inequality is left to compute. -/
theorem beq_iff_of_apart {x y : UnpackedFloat} (apart : x ≠ y)
    (zeros : isZero x = false ∨ isZero y = false) (unequal : x.beq y = false) :
    x.beq y = true ↔ x.isNaN = false ∧ (x = y ∨ isZero x = true ∧ isZero y = true) := by
  refine iff_of_false (Bool.not_eq_true _ ▸ unequal) ?_
  rintro ⟨-, same | ⟨zero, otherZero⟩⟩
  · exact apart same
  · rw [zero, otherZero] at zeros
    exact zeros.elim nofun nofun

/-- Floats are equal if they are the same number; the two zeros are one number. The pieces of a
float are told by the number, so two finite floats are the same if their pieces are. The cases go by
the sorts of the two floats, and only among finite ones of one sign do the pieces decide. -/
theorem same_number_iff (x y : UnpackedFloat) :
    x.beq y = true ↔ x.isNaN = false ∧ (x = y ∨ isZero x = true ∧ isZero y = true) := by
  cases x with
  | notANumber => exact iff_of_false Bool.false_ne_true fun ⟨number, _⟩ => nomatch number
  | infinity sign =>
    cases sign <;> cases y with
    | infinity other =>
      cases other <;>
        first
        | exact iff_of_true rfl ⟨rfl, .inl rfl⟩
        | exact beq_iff_of_apart nofun (.inl rfl) rfl
    | _ => exact beq_iff_of_apart nofun (.inl rfl) rfl
  | zero sign =>
    cases y with
    | zero => exact iff_of_true rfl ⟨rfl, .inr ⟨rfl, rfl⟩⟩
    | notANumber => exact beq_iff_of_apart nofun (.inr rfl) rfl
    | infinity other | finite other => cases other <;> exact beq_iff_of_apart nofun (.inr rfl) rfl
  | finite sign =>
    cases y with
    | notANumber | zero => cases sign <;> exact beq_iff_of_apart nofun (.inl rfl) rfl
    | infinity other => cases sign <;> cases other <;> exact beq_iff_of_apart nofun (.inl rfl) rfl
    | finite other =>
      by_cases same : sign = other
      · -- Only here is it the pieces that decide.
        subst same
        refine (finite_beq_iff sign _ _).trans ⟨?_, ?_⟩
        · rintro ⟨rfl, rfl⟩
          exact ⟨rfl, .inl rfl⟩
        · rintro ⟨-, equal | ⟨zero, -⟩⟩
          · cases equal
            exact ⟨rfl, rfl⟩
          · cases zero
      · cases sign <;> cases other <;>
          first
          | exact absurd rfl same
          | exact beq_iff_of_apart nofun (.inl rfl) rfl

variable {x y z : Float}

/-- Equality of floats is symmetric. Either the two are the same number, or both are zeros, and both
cases can be turned around. -/
theorem float_symm (equal : (x == y) = true) : (y == x) = true := by
  apply (same_number_iff _ _).mpr
  obtain ⟨number, same | ⟨zero, otherZero⟩⟩ := (same_number_iff _ _).mp equal
  · exact ⟨same ▸ number, .inl same.symm⟩
  · have otherNumber : y.toModel.unpack.isNaN = false := by
      cases pieces : y.toModel.unpack with
      | zero => rfl
      | _ => cases pieces ▸ otherZero
    exact ⟨otherNumber, .inr ⟨otherZero, zero⟩⟩

/-- What is not a number is the only float that does not equal itself. -/
theorem float_self (x : Float) : (x == x) = true ↔ x.isNaN = false :=
  (same_number_iff _ _).trans (and_iff_left (.inl rfl))

/-- It is transitive as well, the two zeros included. What equals a zero is a zero, so either all
three are zeros or none of them is. -/
theorem float_trans (first : (x == y) = true) (second : (y == z) = true) : (x == z) = true := by
  apply (same_number_iff _ _).mpr
  obtain ⟨number, same⟩ := (same_number_iff _ _).mp first
  obtain ⟨-, other⟩ := (same_number_iff _ _).mp second
  refine ⟨number, ?_⟩
  rcases same with same | ⟨zero, between⟩
  · rwa [same]
  · rcases other with same | ⟨-, last⟩
    · exact .inr ⟨zero, same ▸ between⟩
    · exact .inr ⟨zero, last⟩

end Number

namespace Value

/-- The values right inside a value: the items of a sequence, or what the entries of a mapping
hold. -/
def children : Value → List Value
  | .seq items => items
  | .map entries => entries.map Prod.snd
  | _ => []

/-- The value at a place inside a value. Each step of the place is the position of an item or of an
entry; the empty place is that of the value itself. -/
def within? (value : Value) : List Nat → Option Value
  | [] => some value
  | position :: place => value.children[position]?.bind (within? · place)

/-- Induction over a value from what is inside it. Sequences and mappings hold values in different
ways, and this principle treats them alike. -/
@[elab_as_elim]
theorem child_induction {P : Value → Prop}
    (step : ∀ value, (∀ child ∈ value.children, P child) → P value) (value : Value) : P value := by
  refine @Value.rec P (fun items => ∀ item ∈ items, P item)
    (fun entries => ∀ entry ∈ entries.map Prod.snd, P entry) (fun entry => P entry.2)
    (step _ nofun) (step _ nofun) (fun b => step _ nofun) (fun n => step _ nofun)
    (fun x => step _ nofun) (fun s => step _ nofun) (fun s => step _ nofun)
    (fun items each => step _ each) (fun entries each => step _ each)
    nofun (fun _ _ first others => List.forall_mem_cons.mpr ⟨first, others⟩)
    nofun (fun _ _ first others => List.forall_mem_cons.mpr ⟨first, others⟩)
    (fun _ _ held => held) value

/-- What two values have to be for the template to call them equal, apart from what is inside. A
whole number and a float are compared as floats, and safe texts are texts. -/
inductive Alike : Value → Value → Prop
  | undefined : Alike .undefined .undefined
  | none : Alike .none .none
  | bool (b : Bool) : Alike (.bool b) (.bool b)
  | int (n : Int64) : Alike (.int n) (.int n)
  | float {x y : Float} (equal : (x == y) = true) : Alike (.float x) (.float y)
  | rounded {n : Int64} {x : Float} (equal : (toFloat n == x) = true) : Alike (.int n) (.float x)
  | rounding {x : Float} {n : Int64} (equal : (toFloat n == x) = true) : Alike (.float x) (.int n)
  | text {left right : Value} {s : String} (first : left.text? = some s)
    (second : right.text? = some s) : Alike left right
  | seq {items others : List Value} (length : items.length = others.length) :
    Alike (.seq items) (.seq others)
  | map {entries others : List (String × Value)}
    (names : entries.map Prod.fst = others.map Prod.fst) : Alike (.map entries) (.map others)

section Alike

variable {a b c : Value}

/-- Being alike is symmetric. The two constructors for a number and its float are each other's
mirror, and all others are their own. -/
theorem alike_symm (alike : Alike a b) : Alike b a := by
  cases alike with
  | undefined => exact .undefined
  | none => exact .none
  | bool b => exact .bool b
  | int n => exact .int n
  | float equal => exact .float (Number.float_symm equal)
  | rounded equal => exact .rounding equal
  | rounding equal => exact .rounded equal
  | text first second => exact .text second first
  | seq length => exact .seq length.symm
  | map names => exact .map names.symm

/-- Only a float that is not a number is not alike to itself. All other kinds are compared by what
they hold, and sequences and mappings here by their lengths and names only. -/
theorem alike_self (a : Value) : Alike a a ↔ ∀ x, a = .float x → x.isNaN = false := by
  constructor
  · rintro alike x rfl
    cases alike with
    | float equal => exact (Number.float_self x).mp equal
    | text first => cases first
  · intro number
    cases a with
    | undefined => exact .undefined
    | none => exact .none
    | bool b => exact .bool b
    | int n => exact .int n
    | float x => exact .float ((Number.float_self x).mpr (number x rfl))
    | text s => exact .text rfl rfl
    | safe s => exact .text rfl rfl
    | seq items => exact .seq rfl
    | map entries => exact .map rfl

/-- Two different whole numbers on the sides of a float that both are rounded to. Each equals the
float, but not the other: this is where loose equality fails to be transitive. -/
inductive Merged : Value → Value → Value → Prop
  | intro {m n : Int64} {x : Float} (apart : m ≠ n) (left : (toFloat m == x) = true)
    (right : (toFloat n == x) = true) : Merged (.int m) (.float x) (.int n)

/-- Only a float in between has values on its two sides that are not alike, and these are different
whole numbers. The cases go by how the first two are alike; where the middle is a whole number or a
text, the two relations are of the same sort. -/
theorem alike_chain (first : Alike a b) (second : Alike b c) : Alike a c ∨ Merged a b c := by
  cases first with
  | undefined => exact .inl second
  | none => exact .inl second
  | bool b => exact .inl second
  | int n => exact .inl second
  | @float x y equal =>
    cases second with
    | float other => exact .inl (.float (Number.float_trans equal other))
    | rounding other => exact .inl (.rounding (Number.float_trans other (Number.float_symm equal)))
    | text s => cases s
  | @rounded m x equal =>
    cases second with
    | float other => exact .inl (.rounded (Number.float_trans equal other))
    | @rounding _ n other =>
      -- Two whole numbers that are rounded to one float may be two numbers.
      by_cases same : m = n
      · exact .inl (same ▸ .int m)
      · exact .inr (.intro same equal other)
    | text s => cases s
  | rounding equal =>
    cases second with
    | int => exact .inl (.rounding equal)
    | rounded other => exact .inl (.float (Number.float_trans (Number.float_symm equal) other))
    | text s => cases s
  | text left right =>
    cases second with
    | text again other =>
      obtain rfl := Option.some.inj (right.symm.trans again)
      exact .inl (.text left other)
    | _ => cases right
  | seq length =>
    cases second with
    | seq other => exact .inl (.seq (length.trans other))
    | text s => cases s
  | map names =>
    cases second with
    | map other => exact .inl (.map (names.trans other))
    | text s => cases s

end Alike

section Places

variable {a b c : Value}

/-- Two lists of one length with related members are related at every position, and the other way
round. The relation of optional values says at once that the lists end at the same position. -/
theorem related_iff_positions {α β : Type} {relation : α → β → Prop} (items : List α)
    (others : List β) : List.Forall₂ relation items others ↔
      ∀ position : Nat, Option.Rel relation items[position]? others[position]? := by
  induction items generalizing others with
  | nil =>
    cases others with
    | nil => simp
    | cons other behind => simpa using ⟨0, nofun⟩
  | cons item rest inductionHypothesis =>
    cases others with
    | nil => simpa using ⟨0, nofun⟩
    | cons other behind =>
      rw [List.forall₂_cons, inductionHypothesis]
      constructor
      · rintro ⟨front, back⟩ (_ | position)
        · exact .some front
        · exact back position
      · intro related
        exact ⟨by simpa using related 0, fun position => related (position + 1)⟩

/-- Sequences of values are equal if they have one length and equal items. -/
theorem looseEqItems_iff (items others : List Value) : looseEqItems items others = true ↔
    List.Forall₂ (fun left right => looseEq left right = true) items others := by
  induction items generalizing others with
  | nil => cases others <;> simp [looseEqItems]
  | cons item rest inductionHypothesis =>
    cases others <;> simp [looseEqItems, inductionHypothesis]

/-- Mappings are equal if they have the same names in the same order and equal entries. Names are in
order in every mapping, so the order is no condition of its own. -/
theorem looseEqEntries_iff (entries others : List (String × Value)) :
    looseEqEntries entries others = true ↔ entries.map Prod.fst = others.map Prod.fst ∧
      List.Forall₂ (fun left right => looseEq left right = true)
        (entries.map Prod.snd) (others.map Prod.snd) := by
  induction entries generalizing others with
  | nil => cases others <;> simp [looseEqEntries]
  | cons entry rest inductionHypothesis =>
    cases others with
    | nil => simp [looseEqEntries]
    | cons other behind =>
      simp only [looseEqEntries, Bool.and_eq_true, beq_iff_eq, inductionHypothesis, List.map_cons,
        List.cons.injEq, List.forall₂_cons]
      tauto

/-- Equality, one layer at a time: the values are alike and what is inside them is equal. Each
pair of kinds is compared by a clause of its own, and the clauses are gone through here once and
for all. -/
theorem looseEq_iff_children (a b : Value) : looseEq a b = true ↔ Alike a b ∧
    List.Forall₂ (fun left right => looseEq left right = true) a.children b.children := by
  constructor
  · intro equal
    fun_cases looseEq a b with
    | case1 n x => exact ⟨.rounded equal, .nil⟩
    | case2 x n => exact ⟨.rounding equal, .nil⟩
    | case7 items others =>
      have inside := (looseEqItems_iff items others).mp equal
      exact ⟨.seq inside.length_eq, inside⟩
    | case8 entries others =>
      obtain ⟨names, inside⟩ := (looseEqEntries_iff entries others).mp equal
      exact ⟨.map names, inside⟩
    | case9 => exact ⟨.undefined, .nil⟩
    | case10 => exact ⟨.none, .nil⟩
    | case11 b other => exact ⟨beq_iff_eq.mp equal ▸ .bool b, .nil⟩
    | case12 n m => exact ⟨beq_iff_eq.mp equal ▸ .int n, .nil⟩
    | case13 x y => exact ⟨.float equal, .nil⟩
    | case14 => simp_all [looseEq]
    | _ s t => exact ⟨.text rfl (congrArg some (beq_iff_eq.mp equal).symm), .nil⟩
  · rintro ⟨alike, inside⟩
    cases alike with
    | undefined => rfl
    | none => rfl
    | bool b => simp [looseEq]
    | int n => simp [looseEq]
    | float equal => simpa [looseEq] using equal
    | rounded equal => simpa [looseEq] using equal
    | rounding equal => simpa [looseEq] using equal
    | text first second =>
      cases a <;> cases b <;> cases first <;> cases second <;> simp [looseEq]
    | seq length => exact (looseEqItems_iff _ _).mpr inside
    | map names => exact (looseEqEntries_iff _ _).mpr ⟨names, inside⟩

/-- Equality, one place at a time: the values are alike at every place that one of them has. The
induction is over the first value; a place is empty or begins with the position of a child. -/
theorem looseEq_iff_within (a b : Value) : looseEq a b = true ↔
    ∀ place, Option.Rel Alike (a.within? place) (b.within? place) := by
  constructor
  · intro equal place
    induction place generalizing a b with
    | nil => exact .some ((looseEq_iff_children a b).mp equal).1
    | cons position place inductionHypothesis =>
      have inside := (related_iff_positions _ _).mp ((looseEq_iff_children a b).mp equal).2 position
      rw [within?, within?]
      generalize a.children[position]? = left at inside ⊢
      generalize b.children[position]? = right at inside ⊢
      cases inside with
      | none => exact .none
      | some equal => exact inductionHypothesis _ _ equal
  · intro alike
    induction a using child_induction generalizing b with
    | step a inductionHypothesis =>
      refine (looseEq_iff_children a b).mpr
        ⟨by simpa [within?] using alike [], (related_iff_positions _ _).mpr fun position => ?_⟩
      -- Below the position of a child the places are those of the child.
      have deeper : ∀ place, Option.Rel Alike (a.children[position]?.bind (within? · place))
          (b.children[position]?.bind (within? · place)) := fun place => alike (position :: place)
      cases left : a.children[position]? with
      | none =>
        cases right : b.children[position]? with
        | none => exact .none
        | some other =>
          rw [left, right] at deeper
          cases deeper []
      | some child =>
        cases right : b.children[position]? with
        | none =>
          rw [left, right] at deeper
          cases deeper []
        | some other =>
          rw [left, right] at deeper
          exact .some (inductionHypothesis child (List.mem_of_getElem? left) other deeper)

/-- Equality is symmetric, since being alike is, place by place. Told by the places in the two
values, it needs no induction of its own. -/
theorem looseEq_symm (equal : looseEq a b = true) : looseEq b a = true := by
  apply (looseEq_iff_within b a).mpr
  intro place
  have alike := (looseEq_iff_within a b).mp equal place
  generalize a.within? place = left at alike ⊢
  generalize b.within? place = right at alike ⊢
  cases alike with
  | none => exact .none
  | some alike => exact .some (alike_symm alike)

/-- No float inside is not a number, whatever sequences and mappings it is in. Such a float is the
only leaf of a value that does not equal itself. -/
def NanFree (value : Value) : Prop :=
  ∀ place x, value.within? place = some (.float x) → x.isNaN = false

/-- A value equals itself exactly if no float inside is anything else than a number, since nothing
else fails to be alike to itself. Both sides are told place by place, at any depth. -/
theorem looseEq_self_iff (a : Value) : looseEq a a = true ↔ a.NanFree := by
  rw [looseEq_iff_within]
  constructor
  · intro alike place x float
    have itself := alike place
    rw [float] at itself
    cases itself with
    | some itself => exact (alike_self _).mp itself x rfl
  · intro number place
    cases inside : a.within? place with
    | none => exact .none
    | some value =>
      apply Option.Rel.some
      apply (alike_self value).mpr
      rintro x rfl
      exact number place x inside

/-- Items that are equal with the kinds kept apart are equal, if that is known of each of them. The
premise is what the induction over values has at this point. -/
theorem looseEqItems_of_strictEqItems (items others : List Value)
    (each : ∀ item ∈ items, ∀ other, strictEq item other = true → looseEq item other = true)
    (equal : strictEqItems items others = true) : looseEqItems items others = true := by
  induction items generalizing others with
  | nil => cases others <;> simp_all [strictEqItems, looseEqItems]
  | cons item rest inductionHypothesis =>
    cases others with
    | nil => cases equal
    | cons other behind =>
      rw [strictEqItems, Bool.and_eq_true] at equal
      rw [looseEqItems, Bool.and_eq_true]
      obtain ⟨ofItem, ofRest⟩ := List.forall_mem_cons.mp each
      exact ⟨ofItem other equal.1, inductionHypothesis behind ofRest equal.2⟩

/-- So are entries. Besides what is held, their names are compared, in the same way by both
equalities. -/
theorem looseEqEntries_of_strictEqEntries (entries others : List (String × Value))
    (each : ∀ held ∈ entries.map Prod.snd, ∀ other,
      strictEq held other = true → looseEq held other = true)
    (equal : strictEqEntries entries others = true) : looseEqEntries entries others = true := by
  induction entries generalizing others with
  | nil => cases others <;> simp_all [strictEqEntries, looseEqEntries]
  | cons entry rest inductionHypothesis =>
    cases others with
    | nil => cases equal
    | cons other behind =>
      rw [strictEqEntries, Bool.and_eq_true, Bool.and_eq_true] at equal
      rw [looseEqEntries, Bool.and_eq_true, Bool.and_eq_true]
      obtain ⟨ofEntry, ofRest⟩ := List.forall_mem_cons.mp each
      exact ⟨⟨equal.1.1, ofEntry other.2 equal.1.2⟩, inductionHypothesis behind ofRest equal.2⟩

/-- Keeping all kinds apart, there are fewer equal values. The induction is over the first value,
since equality with the kinds kept apart is a recursion of its own. -/
theorem looseEq_of_strictEq (equal : strictEq a b = true) : looseEq a b = true := by
  induction a using child_induction generalizing b with
  | step a inductionHypothesis =>
    fun_cases strictEq a b with
    | case8 items others => exact looseEqItems_of_strictEqItems _ _ inductionHypothesis equal
    | case9 entries others => exact looseEqEntries_of_strictEqEntries _ _ inductionHypothesis equal
    | case10 => simp_all [strictEq]
    | case1 => rfl
    | case2 => rfl
    | _ => simpa [strictEq, looseEq] using equal

/-- A text inside a value is marked as safe, or the mark is taken off; all else is as it was. There
is a constructor for either change and one for each way into a value, so the place may be at any
depth. -/
inductive Remarked : Value → Value → Prop
  | mark (s : String) : Remarked (.text s) (.safe s)
  | unmark (s : String) : Remarked (.safe s) (.text s)
  | item (before : List Value) {value other : Value} (behind : List Value)
    (inside : Remarked value other) :
    Remarked (.seq (before ++ value :: behind)) (.seq (before ++ other :: behind))
  | entry (before : List (String × Value)) (name : String) {value other : Value}
    (behind : List (String × Value)) (inside : Remarked value other) :
    Remarked (.map (before ++ (name, value) :: behind)) (.map (before ++ (name, other) :: behind))

/-- Where a text is marked as safe, a value equals the same values as before. The induction is along
the way to the text: the mark changes nothing about what the text is alike to, and nothing around
it. -/
theorem looseEq_remarked (remarked : Remarked a b) (other : Value) :
    looseEq a other = looseEq b other := by
  induction remarked generalizing other with
  | mark s => cases other <;> simp [looseEq]
  | unmark s => cases other <;> simp [looseEq]
  | item before behind inside inductionHypothesis =>
    cases other with
    | seq others =>
      rw [looseEq, looseEq]
      induction before generalizing others with
      | nil => cases others <;> simp [looseEqItems, inductionHypothesis]
      | cons first before onward => cases others <;> simp [looseEqItems, onward]
    | _ => simp [looseEq]
  | entry before name behind inside inductionHypothesis =>
    cases other with
    | map others =>
      rw [looseEq, looseEq]
      induction before generalizing others with
      | nil => cases others <;> simp [looseEqEntries, inductionHypothesis]
      | cons first before onward => cases others <;> simp [looseEqEntries, onward]
    | _ => simp [looseEq]

/-- So it does where several texts are marked, one after the other. -/
theorem looseEq_all_remarked (remarked : Relation.ReflTransGen Remarked a b) (other : Value) :
    looseEq a other = looseEq b other := by
  induction remarked with
  | refl => rfl
  | tail _ last inductionHypothesis => rw [inductionHypothesis, looseEq_remarked last]

/-- The two ways round of a comparison give the same answer. -/
theorem looseEq_comm (a b : Value) : looseEq a b = looseEq b a :=
  Bool.eq_iff_iff.mpr ⟨looseEq_symm, looseEq_symm⟩

/-- Equality is symmetric, holds of all that is equal with the kinds kept apart, holds between a
value and itself exactly if every float inside is a number, and does not see the mark of a safe
text, however deep the text is and on whichever side. -/
theorem equality_laws (a b : Value) :
    looseEq a b = looseEq b a ∧
    (strictEq a b = true → looseEq a b = true) ∧
    (looseEq a a = true ↔ a.NanFree) ∧
    ∀ other another, Relation.ReflTransGen Remarked a other →
      Relation.ReflTransGen Remarked b another → looseEq other another = looseEq a b := by
  refine ⟨looseEq_comm a b, looseEq_of_strictEq, looseEq_self_iff a, ?_⟩
  intro other another left right
  calc looseEq other another
    _ = looseEq a another := (looseEq_all_remarked left another).symm
    _ = looseEq another a := looseEq_comm a another
    _ = looseEq b a := (looseEq_all_remarked right a).symm
    _ = looseEq a b := looseEq_comm b a

/-- The two zeros are one number, also with the kinds kept apart, and the text behind them is safe
on one side or on the other. -/
theorem equality_laws_zeros :
    let a := Value.seq [.float 0.0, .safe "x"]
    let b := Value.seq [.float (-0.0), .safe "x"]
    looseEq b a = true ∧ a.NanFree ∧ looseEq (.seq [.float 0.0, .text "x"]) b = true := by
  intro a b
  have kinds : strictEq a b = true := by decide +kernel
  have unmarked : Remarked a (.seq [.float 0.0, .text "x"]) := .item [.float 0.0] [] (.unmark "x")
  obtain ⟨comm, ofKinds, itself, remarked⟩ := equality_laws a b
  exact ⟨comm ▸ ofKinds kinds, itself.mp (by decide +kernel),
    (remarked _ b (.single unmarked) .refl).trans (ofKinds kinds)⟩

/-- Two of the same whole number are all that is alike among whole numbers. -/
theorem same_int {m n : Int64} (alike : Option.Rel Alike (some (.int m)) (some (.int n))) :
    m = n := by
  cases alike with
  | some alike =>
    cases alike with
    | int => rfl
    | text first => cases first

/-- Being alike goes on through a chain of places, if not for a float in the middle. Where one of
the three has no such place, neither have the others. -/
theorem related_chain {left middle right : Option Value} (first : Option.Rel Alike left middle)
    (second : Option.Rel Alike middle right) : Option.Rel Alike left right ∨
      ∃ a b c, left = some a ∧ middle = some b ∧ right = some c ∧ Merged a b c := by
  cases first with
  | none => exact .inl second
  | some first =>
    cases second with
    | some second =>
      obtain alike | merged := alike_chain first second
      · exact .inl (.some alike)
      · exact .inr ⟨_, _, _, rfl, rfl, rfl, merged⟩

/-- In a chain of equations the ends are equal exactly if they hold no two different whole numbers
at one place. Where they do, the value in between holds a float that both are rounded to. -/
theorem looseEq_chain (first : looseEq a b = true) (second : looseEq b c = true) :
    (looseEq a c = true ↔ ∀ place m n, a.within? place = some (.int m) →
      c.within? place = some (.int n) → m = n) ∧
    ∀ place m n, a.within? place = some (.int m) → c.within? place = some (.int n) → m ≠ n →
      ∃ x, b.within? place = some (.float x) ∧ (toFloat m == x) = true ∧
        (toFloat n == x) = true := by
  have ends : ∀ place, Option.Rel Alike (a.within? place) (c.within? place) ∨
      ∃ left middle right, a.within? place = some left ∧ b.within? place = some middle ∧
        c.within? place = some right ∧ Merged left middle right := fun place =>
    related_chain ((looseEq_iff_within a b).mp first place)
      ((looseEq_iff_within b c).mp second place)
  refine ⟨⟨?_, ?_⟩, ?_⟩
  · intro equal place m n left right
    have alike := (looseEq_iff_within a c).mp equal place
    rw [left, right] at alike
    exact same_int alike
  · intro same
    apply (looseEq_iff_within a c).mpr
    intro place
    obtain alike | ⟨_, _, _, left, -, right, ⟨apart, -, -⟩⟩ := ends place
    · exact alike
    · exact absurd (same place _ _ left right) apart
  · intro place m n left right apart
    obtain alike | ⟨_, _, _, first, middle, last, ⟨-, below, above⟩⟩ := ends place
    · rw [left, right] at alike
      exact absurd (same_int alike) apart
    · rw [left] at first
      rw [right] at last
      cases first
      cases last
      exact ⟨_, middle, below, above⟩

/-- The first whole number that is no float, and the one before it, deep inside two mappings that
both equal the mapping with the float of the two. -/
theorem looseEq_chain_apart :
    let a := Value.map [("sizes", .seq [.none, .int 9007199254740992])]
    let b := Value.map [("sizes", .seq [.none, .float 9007199254740992])]
    let c := Value.map [("sizes", .seq [.none, .int 9007199254740993])]
    looseEq a b = true ∧ looseEq b c = true ∧ looseEq a c ≠ true ∧
      ∃ x, b.within? [0, 1] = some (.float x) ∧ (toFloat 9007199254740992 == x) = true ∧
        (toFloat 9007199254740993 == x) = true := by
  intro a b c
  have first : looseEq a b = true := by decide +kernel
  have second : looseEq b c = true := by decide +kernel
  have apart : (9007199254740992 : Int64) ≠ 9007199254740993 := by decide
  obtain ⟨ends, merged⟩ := looseEq_chain first second
  exact ⟨first, second, fun equal => apart (ends.mp equal [0, 1] _ _ rfl rfl),
    merged [0, 1] _ _ rfl rfl apart⟩

/-- The first whole number that is no float is rounded to the whole number before it, and so is a
float that stands for both. The two are not equal. -/
theorem looseEq_not_transitive : ¬ ∀ a b c : Value, a.NanFree → b.NanFree → c.NanFree →
    looseEq a b = true → looseEq b c = true → looseEq a c = true := by
  intro transitive
  have number : ∀ value, looseEq value value = true → value.NanFree :=
    fun value => (looseEq_self_iff value).mp
  have ends := transitive (.int 9007199254740992) (.float 9007199254740992)
    (.int 9007199254740993) (number _ (by decide +kernel)) (number _ (by decide +kernel))
    (number _ (by decide +kernel)) (by decide +kernel) (by decide +kernel)
  exact absurd ends (by decide +kernel)

end Places

end Value

end Stencil
