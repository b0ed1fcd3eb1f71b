import Mathlib.Data.List.Basic
import Stencil.Text.Casing

/-!
# Lower case is lower case

What lower case gives is left alone by lower case: the characters that its tables lead to are moved
by none of them, and a capital sigma is not among these characters, so what stands around a
character no longer matters. The tables hold runs, and two runs are compared by their bounds. Where
one leads into the bounds of the other, both take every second code point, and not the same ones.
-/

namespace Stencil.Text

namespace CaseRun

/-- Where the first code point of a run goes. The distance may be negative, and `Int.toNat` is exact
as long as the run stays among the code points. -/
def low (run : CaseRun) : Nat := Int.toNat (run.first + run.distance)

/-- Where the last one goes. All code points of a run move by the same distance, so they land
between `low` and here. -/
def high (run : CaseRun) : Nat := Int.toNat (run.last + run.distance)

/-- The code points of a run are moved to characters, and to none that comes before the small
letters. -/
structure Letters (run : CaseRun) : Prop where
  late : 0x61 ≤ run.first + run.distance
  valid : run.high < 0xD800 ∨ 0xDFFF < run.low ∧ run.high < 0x110000

/-- It is decided by comparing bounds. -/
instance (run : CaseRun) : Decidable run.Letters :=
  decidable_of_iff (_ ∧ _) ⟨fun ⟨late, valid⟩ => ⟨late, valid⟩, fun ⟨late, valid⟩ => ⟨late, valid⟩⟩

/-- Whether a run holds none of the code points from `low` to `high`, of which only every second one
is meant if `thin` is set. It is apart from them, or it passes over them. This compares bounds, so a
pair of runs costs no more than a few steps however long they are. -/
def misses (low high : Nat) (thin : Bool) (run : CaseRun) : Bool :=
  Nat.blt high run.first || Nat.blt run.last low ||
    run.step == 2 && thin && (low + run.first) % 2 == 1

/-- Whether no code point that a run leads to is in one of the others. The bounds are computed once
and then compared with each of the others. -/
def clears (run : CaseRun) (others : List CaseRun) : Bool :=
  match run.low, run.high, run.step == 2 || run.first == run.last with
  | low, high, thin => others.all (misses low high thin)

end CaseRun

/-- The one character whose lower case has several characters, as a run. It is looked up before the
runs are, so it has to be missed as well. -/
def dottedCapital : CaseRun := ⟨0x130, 0x130, 1, 0⟩

/-- All runs of the table lead to characters, and behind the capital letters. This is evaluated, run
by run. -/
theorem lower_runs_letters : ∀ run ∈ lowerRuns, run.Letters := by decide +kernel

/-- No run of the table leads into another one, nor into itself. This is evaluated by bounds, pair
by pair. -/
theorem lower_runs_clear : ∀ run ∈ lowerRuns, run.clears (dottedCapital :: lowerRuns) = true := by
  decide +kernel

section Runs

variable {run other : CaseRun} {code image : Nat}

/-- A run moves a code point within its bounds that is on its step, and moves it by its distance. -/
theorem image_iff : run.image? code = some image ↔
    run.first ≤ code ∧ code ≤ run.last ∧ (code - run.first) % run.step = 0 ∧
      image = Int.toNat (code + run.distance) := by
  unfold CaseRun.image?
  split
  · next inside =>
    simp only [Bool.and_eq_true, decide_eq_true_eq, beq_iff_eq] at inside
    obtain ⟨⟨low, high⟩, stepped⟩ := inside
    simp only [low, high, stepped, true_and, Option.some.injEq, eq_comm]
  · next outside =>
    simp only [Bool.and_eq_true, decide_eq_true_eq, beq_iff_eq, not_and] at outside
    refine iff_of_false nofun ?_
    rintro ⟨low, high, stepped, -⟩
    exact outside ⟨low, high⟩ stepped

/-- What a run leads to is not moved by a run that misses it. The last of the cases is about two
runs of every second code point whose bounds overlap, and there the parities differ. -/
theorem image_none {others : List CaseRun} (letters : run.Letters)
    (clears : run.clears others = true) (member : other ∈ others)
    (moved : run.image? code = some image) : other.image? image = none := by
  obtain ⟨low, high, stepped, rfl⟩ := image_iff.mp moved
  have late := letters.late
  have missed := List.all_eq_true.mp clears other member
  simp only [CaseRun.misses, CaseRun.low, CaseRun.high, Bool.or_eq_true, Bool.and_eq_true,
    Nat.blt_eq, beq_iff_eq] at missed
  cases again : other.image? (Int.toNat (code + run.distance)) with
  | none => rfl
  | some further =>
    obtain ⟨lowOther, highOther, steppedOther, -⟩ := image_iff.mp again
    rcases missed with (below | above) | ⟨⟨second, thin⟩, odd⟩
    · omega
    · omega
    · have offset : (code - run.first) % 2 = 0 := by
        rcases thin with every | single
        · exact every ▸ stepped
        · omega
      have offsetOther : (Int.toNat (code + run.distance) - other.first) % 2 = 0 :=
        second ▸ steppedOther
      omega

/-- What a run leads to is a character, so nothing is lost when the number is made a character
again. -/
theorem image_valid (letters : run.Letters) (moved : run.image? code = some image) :
    (Char.ofNat image).toNat = image ∧ 0x61 ≤ image := by
  obtain ⟨low, high, -, rfl⟩ := image_iff.mp moved
  have late := letters.late
  have valid : (Int.toNat (code + run.distance)).isValidChar := by
    have bounds := letters.valid
    unfold CaseRun.low CaseRun.high at bounds
    rcases bounds with early | ⟨behind, bounded⟩
    · exact .inl (by omega)
    · exact .inr ⟨by omega, by omega⟩
  constructor
  · rw [Char.ofNat, dif_pos valid]
    rfl
  · omega

end Runs

/-- A character that lower case leaves alone. It can be decided, so that single characters need no
argument. -/
def Still (c : Char) : Prop := lowerChar c = [c]

/-- It is decided by looking the character up in the tables. -/
instance (c : Char) : Decidable (Still c) := inferInstanceAs (Decidable (lowerChar c = [c]))

/-- A character is left alone if it is in no run, the one of several characters included. Then
neither table has anything for it, and what is not in a table stays. -/
theorem still_of_apart {c : Char} (apart : ∀ run ∈ dottedCapital :: lowerRuns,
    run.image? c.toNat = none) : Still c := by
  obtain ⟨single, runs⟩ := List.forall_mem_cons.mp apart
  have noSequence : lowerSequences.lookup c.toNat = none := by
    have other : c.toNat ≠ 0x130 := by
      intro same
      rw [same] at single
      cases single
    rw [lowerSequences, List.lookup_cons, beq_eq_false_iff_ne.mpr other]
    rfl
  have noRun : lowerRuns.findSome? (·.image? c.toNat) = none := List.findSome?_eq_none_iff.mpr runs
  rw [Still, lowerChar, mapCase, noSequence]
  simp only [noRun]

/-- A character that is moved goes to small letters, which are left alone. There may be two of them,
and for the one character where it is so both are looked at. -/
theorem lower_char_cases (c : Char) :
    lowerChar c = [c] ∨ ∀ image ∈ lowerChar c, Still image ∧ 0x61 ≤ image.toNat := by
  have sequences : ∀ entry ∈ lowerSequences, ∀ code ∈ entry.2,
      Still (Char.ofNat code) ∧ 0x61 ≤ (Char.ofNat code).toNat := by
    simp only [lowerSequences, List.forall_mem_cons]
    exact ⟨⟨⟨by decide +kernel, by decide⟩, ⟨by decide +kernel, by decide⟩,
      List.forall_mem_nil _⟩, List.forall_mem_nil _⟩
  unfold lowerChar mapCase
  split
  · next codes found =>
    obtain ⟨before, behind, parts, -⟩ := List.lookup_eq_some_iff.mp found
    have entry : (c.toNat, codes) ∈ lowerSequences := by
      rw [parts]
      exact List.mem_append_right before List.mem_cons_self
    right
    intro image member
    obtain ⟨code, held, rfl⟩ := List.mem_map.mp member
    exact sequences _ entry code held
  · split
    · next code found =>
      obtain ⟨run, held, moved⟩ := List.exists_of_findSome?_eq_some found
      obtain ⟨same, late⟩ := image_valid (lower_runs_letters run held) moved
      right
      intro image member
      obtain rfl := List.mem_singleton.mp member
      rw [same]
      refine ⟨still_of_apart fun other listed => ?_, late⟩
      rw [same]
      exact image_none (lower_runs_letters run held) (lower_runs_clear run held) listed moved
    · exact .inl rfl

/-- Whatever the lower case of a character has in it is left alone, whether the character is moved
or not. -/
theorem still_lower_char {c image : Char} (member : image ∈ lowerChar c) : Still image := by
  rcases lower_char_cases c with still | moved
  · rw [still] at member
    obtain rfl := List.mem_singleton.mp member
    exact still
  · exact (moved image member).1

section Texts

variable {text : List Char}

/-- Whatever stands in front, a text of such characters is left alone. A capital sigma is not among
them, and it is the only character for which the text in front counts. -/
theorem lowerAfter_still (before : List Char) (still : ∀ c ∈ text, Still c) :
    lowerAfter before text = text := by
  induction text generalizing before with
  | nil => rfl
  | cons c rest inductionHypothesis =>
    obtain ⟨here, later⟩ := List.forall_mem_cons.mp still
    have noSigma : (c == 'Σ') = false := by
      refine beq_eq_false_iff_ne.mpr fun sigma => ?_
      subst sigma
      exact absurd here (by decide +kernel)
    have image : lowerChar c = [c] := here
    simp only [lowerAfter, noSigma, Bool.false_eq_true, if_false, image,
      inductionHypothesis _ later, List.singleton_append]

/-- Lower case is made of such characters, whichever sigma it takes: both small letters are left
alone. -/
theorem still_lowerAfter (before : List Char) : ∀ c ∈ lowerAfter before text, Still c := by
  have sigma : Still 'σ' ∧ Still 'ς' := ⟨by decide +kernel, by decide +kernel⟩
  induction text generalizing before with
  | nil => exact List.forall_mem_nil _
  | cons c rest inductionHypothesis =>
    rw [lowerAfter, List.forall_mem_append]
    refine ⟨?_, inductionHypothesis _⟩
    split
    · split
      · exact List.forall_mem_singleton.mpr sigma.2
      · exact List.forall_mem_singleton.mpr sigma.1
    · exact fun image member => still_lower_char member

/-- Lower case of lower case changes nothing. So what has been put in lower case can be compared as
it is. -/
theorem lower_lower (text : List Char) : lower (lower text) = lower text :=
  lowerAfter_still [] (still_lowerAfter [])

/-- Characters in front of the small letters are in the lower case of a text only if they are in the
text. In particular, lower case brings in neither a dot nor a slash. -/
theorem mem_of_mem_lowerAfter {c : Char} (early : c.toNat < 0x61) (before : List Char)
    (member : c ∈ lowerAfter before text) : c ∈ text := by
  have notLate {image : Char} (late : 0x61 ≤ image.toNat) : c ≠ image := by
    rintro rfl
    omega
  induction text generalizing before with
  | nil => exact member
  | cons first rest inductionHypothesis =>
    rw [lowerAfter, List.mem_append] at member
    rcases member with here | later
    · split at here
      · split at here
        · exact absurd (List.mem_singleton.mp here) (notLate (by decide))
        · exact absurd (List.mem_singleton.mp here) (notLate (by decide))
      · rcases lower_char_cases first with still | moved
        · rw [still] at here
          exact List.mem_singleton.mp here ▸ List.mem_cons_self
        · exact absurd rfl (notLate (moved c here).2)
    · exact List.mem_cons_of_mem first (inductionHypothesis (first :: before) later)

end Texts

end Stencil.Text
