/-!
# Dictionaries

A dictionary is a list of named entries in increasing order of their names. Names are
compared character by character by code point, which is also the order of their UTF-8
bytes. Every operation here keeps the order and at most one entry a name, so the list
itself is the view: what is bound, in which order, is read off it.
-/

namespace Stencil

/-- Named entries in increasing order of names. The order is no part of the type, but all operations
keep it. -/
abbrev Dict (α : Type) := List (String × α)

namespace Dict

variable {α : Type}

/-- The entry under a name. It is searched from the front, so it does not depend on the order, and
of two entries with one name the first one counts. -/
def get? : Dict α → String → Option α
  | [], _ => none
  | (name, entry) :: rest, sought => if name = sought then some entry else get? rest sought

/-- Bind a name at its place in the order; an entry already there is replaced. Names are compared as
texts, by their characters. -/
def insert : Dict α → String → α → Dict α
  | [], name, entry => [(name, entry)]
  | (other, kept) :: rest, name, entry =>
    if other < name then (other, kept) :: insert rest name entry
    else if other = name then (name, entry) :: rest
    else (name, entry) :: (other, kept) :: rest

/-- Remove a name, if it is there. The order of all others stays as it is. -/
def erase (entries : Dict α) (name : String) : Dict α := entries.filter (·.1 ≠ name)

/-- The names in their order. Each of them comes once, where the entries are in order. -/
def names (entries : Dict α) : List String := entries.map Prod.fst

/-- Whether a name is bound. What it is bound to does not matter. -/
def contains (entries : Dict α) (name : String) : Bool := (entries.get? name).isSome

/-- Bind pairs one after the other; of two with one name the later stays. -/
def ofList (pairs : List (String × α)) : Dict α :=
  pairs.foldl (fun entries pair => insert entries pair.1 pair.2) []

/-- The order that all operations keep: each name is less than all behind it, so no name comes
twice. -/
def Ordered (entries : Dict α) : Prop := entries.names.Pairwise (· < ·)

/-- Nothing is bound where there are no entries. -/
@[simp] theorem get?_nil (sought : String) : get? ([] : Dict α) sought = none := rfl

/-- An inserted name is found, and no other name changes. This holds of any entries, in order or
not. The induction is on the entries: what is inserted in front of a later name hides nothing, since
the names in front of it are other ones. -/
theorem get?_insert (entries : Dict α) (name sought : String) (entry : α) :
    (entries.insert name entry).get? sought =
      if name = sought then some entry else entries.get? sought := by
  induction entries with
  | nil => rfl
  | cons head rest inductionHypothesis =>
    obtain ⟨other, kept⟩ := head
    unfold insert
    split
    · next before =>
      by_cases here : other = sought
      · have apart : name ≠ sought := by
          intro same
          rw [here, same] at before
          exact String.lt_irrefl _ before
        simp [get?, here, apart]
      · simp [get?, here, inductionHypothesis]
    · split
      · next same => by_cases here : name = sought <;> simp [get?, here, same]
      · simp [get?]

/-- A removed name is gone, and no other name changes, so removing is undone by inserting again. All
entries of the name are removed, also where the entries are out of order and hold it twice. -/
theorem get?_erase (entries : Dict α) (name sought : String) :
    (entries.erase name).get? sought = if name = sought then none else entries.get? sought := by
  induction entries with
  | nil => simp [erase]
  | cons head rest inductionHypothesis =>
    obtain ⟨other, kept⟩ := head
    unfold erase at inductionHypothesis ⊢
    by_cases same : other = name
    · subst same
      rw [List.filter_cons_of_neg (by simp), inductionHypothesis]
      by_cases here : other = sought <;> simp [get?, here]
    · rw [List.filter_cons_of_pos (by simpa using same)]
      by_cases here : other = sought
      · have apart : name ≠ sought := fun equal => same (here.trans equal.symm)
        simp [get?, here, apart]
      · simpa [get?, here] using inductionHypothesis

/-- Inserting adds one name at most: the name is new or was there before. It removes none, not even
the name whose entry it replaces. -/
theorem mem_names_insert (entries : Dict α) (name sought : String) (entry : α) :
    sought ∈ (entries.insert name entry).names ↔ sought = name ∨ sought ∈ entries.names := by
  induction entries with
  | nil => simp [insert, names]
  | cons head rest inductionHypothesis =>
    obtain ⟨other, kept⟩ := head
    unfold names at inductionHypothesis ⊢
    unfold insert
    split
    · simp only [List.map_cons, List.mem_cons, inductionHypothesis]
      constructor <;> rintro (here | here | here) <;> simp [here]
    · split
      · next same => simp [same]
      · simp

/-- Inserting keeps the order. The induction is on the entries. What is behind the new name is
greater than it by transitivity, and where the name has been there before, its entry is replaced in
its place. -/
theorem ordered_insert {entries : Dict α} (ordered : Ordered entries) (name : String) (entry : α) :
    Ordered (entries.insert name entry) := by
  induction entries with
  | nil => simp [Ordered, insert, names]
  | cons head rest inductionHypothesis =>
    obtain ⟨other, kept⟩ := head
    have ⟨least, tail⟩ : (∀ later ∈ names rest, other < later) ∧ Ordered rest :=
      List.pairwise_cons.mp ordered
    unfold insert
    split
    · next before =>
      refine List.pairwise_cons.mpr ⟨fun later member => ?_, inductionHypothesis tail⟩
      rcases (mem_names_insert rest name later entry).mp member with here | there
      · exact here ▸ before
      · exact least later there
    · next notBefore =>
      split
      · next same =>
        subst same
        exact List.pairwise_cons.mpr ⟨least, tail⟩
      · next apart =>
        have after : name < other :=
          Std.lt_of_le_of_ne (Std.not_lt.mp notBefore) (fun same => apart same.symm)
        refine List.pairwise_cons.mpr ⟨fun later member => ?_, ordered⟩
        rcases List.mem_cons.mp member with here | there
        · exact here ▸ after
        · exact String.lt_trans after (least later there)

/-- Removing keeps the order, since some of the entries in order are in order. -/
theorem ordered_erase {entries : Dict α} (ordered : Ordered entries) (name : String) :
    Ordered (entries.erase name) :=
  List.Pairwise.sublist (List.filter_sublist.map Prod.fst) ordered

end Dict

end Stencil
