import Mathlib.Algebra.Group.Int.Defs
import Mathlib.Algebra.Group.Nat.Defs
import Stencil.Proofs.Boundaries
import Stencil.Proofs.Integers
import Stencil.Proofs.Lineages
import Stencil.Proofs.Rounds

/-!
# Numbers within bounds

Whole numbers have 64 bits, and nothing that is computed with them goes beyond that unseen. What a
minus sign is put in front of has been read from digits, so it has a counterpart. A sum is exact or
refused. A position that is counted from the end is computed from a length, which is far from the
ends of the range. And what is cut or taken from the front is there: a source is cut between
characters, and a lineage has a root.
-/

namespace Stencil

namespace Number

/-- Whether an integer has no more than 64 bits, with the sign among them. The bounds are those of
`Int64`, told as integers so that sums and differences can be compared with them before they are
made. -/
def Fits (n : Int) : Prop := Int64.minValue.toInt ≤ n ∧ n ≤ Int64.maxValue.toInt

/-- Two comparisons decide it. -/
instance (n : Int) : Decidable (Fits n) :=
  inferInstanceAs (Decidable (Int64.minValue.toInt ≤ n ∧ n ≤ Int64.maxValue.toInt))

/-- What fits is stored as it is, and nothing else is stored. The two cases are all there are. -/
theorem whole?_cases (n : Int) :
    Fits n ∧ (∃ stored : Int64, stored.toInt = n ∧ whole? n = some stored) ∨
      ¬Fits n ∧ whole? n = none := by
  by_cases fits : Fits n
  · have stored : whole? n = some (Int64.ofInt n) := if_pos fits
    exact .inl ⟨fits, _, toInt_of_whole? stored, stored⟩
  · exact .inr ⟨fits, if_neg fits⟩

end Number

namespace Token

section Natural

variable {tag : Tag} {afterDot : Bool} {c : Char} {rest : List Char} {n : Int64}

/-- Digits are read as a number without a sign, since what they stand for is natural and was checked
to fit. -/
theorem numberStep_natural (given : (numberStep tag afterDot c rest).Gives (.integer n)) :
    0 ≤ n.toInt := by
  unfold numberStep at given
  simp only at given
  split at given
  · cases given
  · split at given
    · next fits =>
      cases given
      rw [Number.toInt_of_whole? fits]
      exact Int.natCast_nonneg _
    · cases given

/-- And nothing else is read as a number: a sign is a token of its own. Of the cases inside a tag
only the one for digits gives an integer, and digits have no sign. -/
theorem insideStep_natural (given : (insideStep tag afterDot c rest).Gives (.integer n)) :
    0 ≤ n.toInt := by
  unfold insideStep at given
  split at given
  · cases given
  · split at given
    · split at given <;> cases given
    · split at given
      · exact numberStep_natural given
      · split at given
        · unfold wordStep at given
          simp only at given
          split at given <;> cases given
        · cases given

/-- A number that is read in a tag has no sign: blanks and the end of the tag are no numbers, and
what is left is read by the case before. -/
theorem tagStep_natural {trim : Bool}
    (given : (tagStep trim tag afterDot c rest).Gives (.integer n)) : 0 ≤ n.toInt := by
  rw [tagStep_eq] at given
  split at given
  · exact given.elim
  · split at given
    · cases given
    · split at given
      · cases given
      · exact insideStep_natural given

end Natural

/-- So there is no sign in any number among the tokens of a source. A token inside a tag is read by
a step in the tag, whatever stands in front. -/
theorem integer_natural {trim : Bool} {source : String} {token : Token} {n : Int64}
    (member : token ∈ (Stream.ofSource trim source).tokens) (integer : token.kind = .integer n) :
    0 ≤ n.toInt := by
  obtain ⟨before, behind, tag, afterDot, -, -, ended, given⟩ :=
    read_in member (by rw [integer]; rfl)
  cases behind with
  | nil => cases integer.symm.trans (ended rfl)
  | cons c rest =>
    have given := given c rest rfl
    rw [integer] at given
    exact tagStep_natural given

end Token

namespace Template

open Token (Stream)

/-- Behind a minus sign there is a number that has a counterpart, and the counterpart is read. The
state of reading may be any that waits behind a minus, and the token any number of the source. -/
theorem negated_exact {trim : Bool} {source : String}
    {earlier later : List Token} {token : Token} {reading : Reading} {purpose : Purpose}
    {inner : Expr.Reading} {n : Int64}
    (tokens : (Stream.ofSource trim source).tokens = earlier ++ token :: later)
    (stage : reading.stage = .expression purpose inner) (negative : inner.stage = .negative)
    (integer : token.kind = .integer n) :
    n ≠ .minValue ∧ (-n).toInt = -n.toInt ∧
      reading.next token = .ok (reading.reach (.expression purpose
        ⟨inner.waiting, inner.brackets, .complete (.int (-n))⟩)) := by
  have member : token ∈ (Stream.ofSource trim source).tokens := by simp [tokens]
  have natural : 0 ≤ n.toInt := Token.integer_natural member integer
  have other : n ≠ .minValue := by
    rintro rfl
    exact absurd natural (by decide)
  obtain ⟨waiting, brackets, _⟩ := inner
  cases negative
  refine ⟨other, Number.toInt_negated other, ?_⟩
  unfold Reading.next
  rw [stage, integer]
  rfl

end Template

namespace Value

/-- The item at a position, with a position from the end computed in 64 bits. Written down so that
it can be compared with the same computation among the integers. -/
def itemAtWord (items : List Value) (position : Int64) : Value :=
  let fromStart := if position < 0 then Int64.ofNat items.length + position else position
  if fromStart < 0 then .undefined else (items[fromStart.toInt.toNat]?).getD .undefined

/-- A length and a negative position add up to a number of 64 bits. The bound on the length is the
one that memory has. -/
theorem toInt_position {items : List Value} (fits : items.length < 2 ^ 63) {position : Int64}
    (negative : position < 0) :
    (Int64.ofNat items.length + position).toInt = items.length + position.toInt := by
  have length : (Int64.ofNat items.length).toInt = items.length :=
    Int64.toInt_ofNat_of_lt fits
  have below : position.toInt < 0 := Int64.lt_iff_toInt_lt.mp negative
  have least := position.le_toInt
  have low : Int64.minValue.toInt = -2 ^ 63 := rfl
  rw [Int64.toInt_add, length, Int.bmod_eq_of_le (by omega) (by omega)]

/-- So nothing wraps where a position is counted from the end, in any sequence that memory can
hold. -/
theorem itemAtWord_eq {items : List Value} (fits : items.length < 2 ^ 63) (position : Int64) :
    itemAtWord items position = itemAt items position.toInt := by
  unfold itemAtWord itemAt
  have sign : position < 0 ↔ position.toInt < 0 := Int64.lt_iff_toInt_lt
  have start : (if position < 0 then Int64.ofNat items.length + position else position).toInt =
      if position.toInt < 0 then items.length + position.toInt else position.toInt := by
    by_cases negative : position < 0
    · rw [if_pos negative, if_pos (sign.mp negative), toInt_position fits negative]
    · rw [if_neg negative, if_neg (mt sign.mpr negative)]
  simp only [← start, Int64.lt_iff_toInt_lt]
  rfl

end Value

namespace Expr

variable {escaping : Bool} {scope : Scope}

/-- A sum is exact if it fits, and refused if it does not. There is no third case, so no sum wraps.
The sum is computed among the integers first and only then brought to 64 bits. -/
theorem eval_sum {left right : Expr} {a b : Int64}
    (first : left.eval escaping scope = .ok (.int a))
    (second : right.eval escaping scope = .ok (.int b)) :
    Number.Fits (a.toInt + b.toInt) ∧ (∃ sum : Int64, sum.toInt = a.toInt + b.toInt ∧
        (Expr.binary .plus left right).eval escaping scope = .ok (.int sum)) ∨
      ¬Number.Fits (a.toInt + b.toInt) ∧
        (Expr.binary .plus left right).eval escaping scope = .error .overflow := by
  have summed : (Expr.binary .plus left right).eval escaping scope =
      (Value.int a).add escaping (.int b) := by
    rw [Expr.eval, first, second]
    rfl
  rw [summed, Value.add]
  rcases Number.whole?_cases (a.toInt + b.toInt) with ⟨fits, sum, exact, stored⟩ | ⟨large, none⟩
  · rw [stored]
    exact .inl ⟨fits, sum, exact, rfl⟩
  · rw [none]
    exact .inr ⟨large, rfl⟩

end Expr

/-- What is flattened has a root, and is made of its nodes. So the first entry of a lineage can be
taken without asking. -/
theorem Flattened.rooted {registry : Registry} {limit : Nat} {leaf : String}
    {flattened : Flattened} (made : ofLeaf registry limit leaf = .ok flattened) :
    ∃ root rest, Lineage.ofLeaf registry limit leaf = .ok (root :: rest) ∧
      flattened.nodes = (Overrides.ofLineage (root :: rest)).flatten [] root.template.nodes := by
  obtain ⟨root, rest, rises, -, rfl⟩ := ofLeaf_ok made
  exact ⟨root, rest, Lineage.climb_of_rises rises, rfl⟩

/-- No computation with whole numbers wraps, and nothing is taken from where nothing is. The number
behind a minus sign has a counterpart, in every source and wherever reading has come to. A sum of
whole numbers is exact, and it is refused if and only if it does not fit. A position in a sequence
that is counted from the end is computed without wrapping, whatever number it is and whatever length
below 2 ^ 63 the sequence has, so it leads to the item that it leads to among the integers. Wherever
a source is cut, at the beginning of each piece and by each scan over its bytes, there is a boundary
between two characters. And where a lineage is flattened, it has a root. -/
theorem nothing_wraps :
    (∀ trim source earlier token later (reading : Template.Reading) purpose inner n,
      (Token.Stream.ofSource trim source).tokens = earlier ++ token :: later →
      reading.stage = .expression purpose inner → inner.stage = .negative →
      token.kind = .integer n →
      n ≠ .minValue ∧ (-n).toInt = -n.toInt ∧
        reading.next token = .ok (reading.reach (.expression purpose
          ⟨inner.waiting, inner.brackets, .complete (.int (-n))⟩))) ∧
    (∀ escaping scope (left right : Expr) a b, left.eval escaping scope = .ok (.int a) →
      right.eval escaping scope = .ok (.int b) →
      Number.Fits (a.toInt + b.toInt) ∧ (∃ sum : Int64, sum.toInt = a.toInt + b.toInt ∧
          (Expr.binary .plus left right).eval escaping scope = .ok (.int sum)) ∨
        ¬Number.Fits (a.toInt + b.toInt) ∧
          (Expr.binary .plus left right).eval escaping scope = .error .overflow) ∧
    (∀ escaping scope (of key : Expr) items position, items.length < 2 ^ 63 →
      of.eval escaping scope = .ok (.seq items) → key.eval escaping scope = .ok (.int position) →
      (position < 0 →
        (Int64.ofNat items.length + position).toInt = items.length + position.toInt) ∧
      (Expr.index of key).eval escaping scope = .ok (Value.itemAtWord items position)) ∧
    (∀ trim (source : String) earlier piece later,
      Token.pieces trim (.text false) source.toList = earlier ++ piece :: later →
      let cursor := (Place.first.past (earlier.flatMap Token.Piece.text)).offset
      let left := source.toByteArray.data.toList.drop cursor
      (String.Pos.Raw.mk cursor).IsValid source ∧
      (String.Pos.Raw.mk (cursor + piece.scan left)).IsValid source ∧
      (Place.first.past ((earlier ++ [piece]).flatMap Token.Piece.text)).offset =
        cursor + piece.scan left ∧
      (String.Pos.Raw.mk (cursor + Text.digitBytes left)).IsValid source ∧
      (left[Text.digitBytes left]? = some 0x2e →
        (String.Pos.Raw.mk (cursor + Text.digitBytes left + 1)).IsValid source)) ∧
    ∀ registry limit leaf flattened, Flattened.ofLeaf registry limit leaf = .ok flattened →
      ∃ root rest, Lineage.ofLeaf registry limit leaf = .ok (root :: rest) ∧
        flattened.nodes =
          (Overrides.ofLineage (root :: rest)).flatten [] root.template.nodes := by
  refine ⟨?_, ?_, ?_, ?_, ?_⟩
  · intro trim source earlier token later reading purpose inner n tokens stage negative integer
    exact Template.negated_exact tokens stage negative integer
  · intro escaping scope left right a b first second
    exact Expr.eval_sum first second
  · intro escaping scope of key items position fits evaluated stated
    refine ⟨Value.toInt_position fits, ?_⟩
    -- The item at a position among the integers is the one at the position among the words.
    rw [Key.index_sequence evaluated stated, Value.itemAtWord_eq fits]
  · intro trim source earlier piece later parts
    exact cuts_on_boundaries parts
  · intro registry limit leaf flattened made
    exact Flattened.rooted made

/-- The least number that a minus sign can make, a sum one above the greatest number, the least
number as a position, digits and a point behind a character of two bytes, and a child of another
template. -/
theorem nothing_wraps_ends :
    let source := "\x7b\x7b -9223372036854775807 \x7d\x7d"
    let opening : List Token :=
      [⟨.opening .output, ⟨0, 1, 1⟩, 2⟩, ⟨.sign .minus, ⟨3, 1, 4⟩, 4⟩]
    let literal : Token := ⟨.integer .maxValue, ⟨4, 1, 5⟩, 23⟩
    let behindMinus := (Template.Reading.start none).reach (.expression .output ⟨[], [], .negative⟩)
    let pair := Expr.list [.int 1, .int 2]
    let path := "é\x7b\x7b a.1.5"
    let changes : List Change :=
      [.register "base" "1", .register "child" "\x7b% extends 'base' %\x7d"]
    (Token.Stream.ofSource false source).tokens =
        opening ++ literal :: [⟨.closing .output, ⟨24, 1, 25⟩, 26⟩] ∧
      (Template.Reading.start none).run opening = .ok behindMinus ∧
      behindMinus.next literal = .ok (behindMinus.reach (.expression .output
        ⟨[], [], .complete (.int (-.maxValue))⟩)) ∧
      (Expr.binary .plus (.int .maxValue) (.int 1)).eval true .empty = .error .overflow ∧
      (Expr.index pair (.int .minValue)).eval true .empty =
        .ok (Value.itemAtWord [.int 1, .int 2] .minValue) ∧
      (String.Pos.Raw.mk 7).IsValid path ∧ (String.Pos.Raw.mk 8).IsValid path ∧
      (String.Pos.Raw.mk 9).IsValid path ∧
      ∃ root rest, Lineage.ofLeaf (Registry.ofChanges false changes) 5 "child" =
        .ok (root :: rest) := by
  intro source opening literal behindMinus pair path changes
  have tokens : (Token.Stream.ofSource false source).tokens =
      opening ++ literal :: [⟨.closing .output, ⟨24, 1, 25⟩, 26⟩] := by decide +kernel
  have evaluated : pair.eval true .empty = .ok (.seq [.int 1, .int 2]) := by
    simp only [pair, Expr.eval, Expr.evalAll]
    rfl
  have number (n : Int64) : (Expr.int n).eval true .empty = .ok (.int n) := by rw [Expr.eval]
  have large : ¬Number.Fits (Int64.maxValue.toInt + Int64.toInt 1) := by decide
  have parts : Token.pieces false (.text false) path.toList =
      [.token (.text "é") ['é'], .token (.opening .output) ['{', '{'], .gap .blank [' '],
          .token (.name "a") ['a'], .token (.sign .dot) ['.']] ++
        .token (.integer 1) ['1'] :: [.token (.sign .dot) ['.'], .token (.integer 5) ['5'],
          .token (.fault (.openTag .output)) []] := by decide +kernel
  have made : Flattened.ofLeaf (Registry.ofChanges false changes) 5 "child" =
      .ok ⟨"child", [("base", 1), ("child", 2)], [.text "1"]⟩ := by
    rw [Flattened.ofLeaf_eq_inRounds]
    decide +kernel
  obtain ⟨negated, sum, index, cuts, rooted⟩ := nothing_wraps
  obtain ⟨-, -, next⟩ := negated false source opening literal _ behindMinus .output
    ⟨[], [], .negative⟩ .maxValue tokens rfl rfl rfl
  have refused := ((sum true .empty _ _ _ _ (number .maxValue) (number 1)).resolve_left
    fun fits => large fits.1).2
  obtain ⟨-, indexed⟩ :=
    index true .empty pair _ _ .minValue (by decide) evaluated (number .minValue)
  obtain ⟨here, -, -, digits, point⟩ := cuts false path _ _ _ parts
  obtain ⟨root, rest, climbed, -⟩ := rooted _ _ _ _ made
  exact ⟨tokens, rfl, next, refused, indexed, here, digits, point (by decide +kernel), root, rest,
    climbed⟩

end Stencil
