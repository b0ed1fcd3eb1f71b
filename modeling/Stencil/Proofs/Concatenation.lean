import Stencil.Proofs.Escaping
import Stencil.Proofs.Unrolling

/-!
# Every text is escaped once

The markup of a value is what it puts into the output: safe text as it is, and of any other value
the text that it is displayed as, escaped where escaping is on. Safe text is text that has become
markup before. So wherever texts meet, in a sum or in the output, it is their markups that are put
one behind the other, and which of them were safe to begin with cannot be seen in the output. An
escape filter does at an early time what the output does at the latest.
-/

namespace Stencil

open Text.Markup (escape_append)

namespace Value

/-- What a value puts into the output, where sequences and mappings count as what they are displayed
as. Safe text is put in as it is. -/
def markup (escaping : Bool) : Value → String
  | .safe s => s
  | value => joining escaping value.display

/-- Whether a value is safe text. -/
def isSafe : Value → Bool
  | .safe _ => true
  | _ => false

/-- The output of a value is its markup, if it has any. Sequences and mappings have none and are
refused. -/
theorem emit_markup {value : Value} (single : value.kind ≠ .sequence ∧ value.kind ≠ .mapping)
    (escaping : Bool) (of : Expr) : value.emit escaping of = .ok (value.markup escaping) := by
  cases value with
  | seq items => exact absurd rfl single.1
  | map entries => exact absurd rfl single.2
  | _ => rfl

/-- Texts put together join the output one by one, whether it is escaped or not. -/
theorem joining_append (escaping : Bool) (first second : String) :
    joining escaping (first ++ second) = joining escaping first ++ joining escaping second := by
  cases escaping with
  | false => rfl
  | true => exact escape_append first second

/-- Text that is not safe is text. -/
theorem eq_text {value : Value} (text : value.kind = .string) (plain : value.isSafe = false) :
    ∃ s, value = .text s := by
  cases value with
  | text s => exact ⟨s, rfl⟩
  | safe s => cases plain
  | _ => cases text

section Sums

variable {first second third : Value} (escaping : Bool)

/-- A sum of texts one of which is safe is safe, and made of their markups. -/
theorem add_safe (one : first.kind = .string) (two : second.kind = .string)
    (safe : (first.isSafe || second.isSafe) = true) :
    first.add escaping second = .ok (.safe (first.markup escaping ++ second.markup escaping)) := by
  cases first <;> cases one <;> cases second <;> cases two <;> first | rfl | cases safe

/-- A sum of texts is a text whose markup is put together, and it is safe if one of them is. So sums
can be told by their markup alone. -/
theorem add_texts (one : first.kind = .string) (two : second.kind = .string) :
    ∃ sum, first.add escaping second = .ok sum ∧ sum.kind = .string ∧
      sum.markup escaping = first.markup escaping ++ second.markup escaping ∧
      sum.isSafe = (first.isSafe || second.isSafe) := by
  cases safe : first.isSafe || second.isSafe with
  | true => exact ⟨_, add_safe escaping one two safe, rfl, rfl, rfl⟩
  | false =>
    obtain ⟨plain, otherPlain⟩ := Bool.or_eq_false_iff.mp safe
    obtain ⟨s, rfl⟩ := eq_text one plain
    obtain ⟨other, rfl⟩ := eq_text two otherPlain
    exact ⟨.text (s ++ other), rfl, rfl, joining_append escaping s other, rfl⟩

/-- It makes no difference in what order sums of texts are made. If one of the texts is safe, the
sum is made of the markups either way; if none is, the sum is the text put together. -/
theorem add_grouping (one : first.kind = .string) (two : second.kind = .string)
    (three : third.kind = .string) :
    ∃ sum, (do (← first.add escaping second).add escaping third) = .ok sum ∧
      (do first.add escaping (← second.add escaping third)) = .ok sum := by
  obtain ⟨front, added, text, markup, marked⟩ := add_texts escaping one two
  obtain ⟨back, addedBack, textBack, markupBack, markedBack⟩ := add_texts escaping two three
  cases safe : first.isSafe || second.isSafe || third.isSafe with
  | true =>
    -- One safe text makes the whole sum safe on either way, so both are sums of markups.
    have safeBack : (first.isSafe || back.isSafe) = true := by
      rwa [markedBack, ← Bool.or_assoc]
    have ahead := add_safe escaping text three (marked ▸ safe)
    have behind := add_safe escaping one textBack safeBack
    rw [markup] at ahead
    rw [markupBack, ← String.append_assoc] at behind
    rw [added, addedBack]
    exact ⟨_, ahead, behind⟩
  | false =>
    obtain ⟨plain, plainThree⟩ := Bool.or_eq_false_iff.mp safe
    obtain ⟨plainOne, plainTwo⟩ := Bool.or_eq_false_iff.mp plain
    obtain ⟨s, rfl⟩ := eq_text one plainOne
    obtain ⟨other, rfl⟩ := eq_text two plainTwo
    obtain ⟨last, rfl⟩ := eq_text three plainThree
    refine ⟨.text (s ++ other ++ last), rfl, ?_⟩
    exact congrArg (fun sum => Except.ok (Value.text sum)) String.append_assoc.symm

end Sums

end Value

namespace Filter

/-- The filters that escape are called `escape` and `e`. They make the markup of any value safe,
also of safe text, which they leave as it is. -/
theorem escape_markup {name : String} (escapes : name ∈ ["escape", "e"]) (value : Value) :
    applyNamed name value [] = .ok (.safe (value.markup true)) := by
  have found : ofName? name = some .escape := by
    simp only [List.mem_cons, List.not_mem_nil, or_false] at escapes
    rcases escapes with rfl | rfl <;> rfl
  rw [applyNamed, found]
  cases value <;> rfl

end Filter

/-- An expression with filters behind it that have no arguments. The first name is that of the
innermost filter. -/
def Expr.filtered (e : Expr) (names : List String) : Expr :=
  names.foldl (fun of name => .filter of name []) e

namespace Rendering

variable {σ : Type} (shelf : Shelf σ) (limit : Nat) {escaping : Bool} {session : Session σ}

/-- What an expression puts out is the markup of its value. Rendering it leaves the session as it
was. -/
theorem render_output {e : Expr} {value : Value}
    (evaluated : e.eval escaping session.scope = .ok value)
    (single : value.kind ≠ .sequence ∧ value.kind ≠ .mapping) :
    render shelf limit escaping [.output e] session = (.ok (value.markup escaping), session) := by
  rw [render_single, renderNode]
  refine in_scope_ok ?_
  rw [evaluated]
  exact Value.emit_markup single escaping e

/-- An expression that has no value puts nothing out. -/
theorem render_output_mistyped {e : Expr} {cause : Mistyped}
    (failed : e.eval escaping session.scope = .error cause) :
    render shelf limit escaping [.output e] session = (.error (.mistyped cause), session) := by
  rw [render_single, renderNode]
  refine in_scope_error ?_
  rw [failed]
  rfl

/-- The texts that two expressions put out come one behind the other. The first one leaves the
session to the second as it was. -/
theorem render_outputs {first second : Expr} {text later : String}
    (before : render shelf limit escaping [.output first] session = (.ok text, session))
    (behind : render shelf limit escaping [.output second] session = (.ok later, session)) :
    render shelf limit escaping [.output first, .output second] session =
      (.ok (text ++ later), session) := by
  rw [render_cons, before]
  show (Except.map (text ++ ·) (render shelf limit escaping [.output second] session).1,
    (render shelf limit escaping [.output second] session).2) = _
  rw [behind]
  rfl

/-- A sum of texts is put out as its two sides would be, with a node for each. The sum is a text as
well, and the markup of a sum is that of its sides one behind the other. -/
theorem render_sum {left right : Expr} {first second : Value}
    (evaluated : left.eval escaping session.scope = .ok first)
    (evaluatedRight : right.eval escaping session.scope = .ok second)
    (one : first.kind = .string) (two : second.kind = .string) :
    render shelf limit escaping [.output (.binary .plus left right)] session =
      render shelf limit escaping [.output left, .output right] session := by
  obtain ⟨sum, added, text, markup, -⟩ := Value.add_texts escaping one two
  have total : (Expr.binary .plus left right).eval escaping session.scope = .ok sum := by
    rw [Expr.eval, evaluated, evaluatedRight]
    exact added
  have before := render_output shelf limit evaluated (by rw [one]; decide)
  have behind := render_output shelf limit evaluatedRight (by rw [two]; decide)
  rw [render_outputs shelf limit before behind, ← markup]
  exact render_output shelf limit total (by rw [text]; decide)

/-- An expression whose value, if it has one, is neither a sequence nor a mapping. Whether it has
one is left open. -/
def Single (escaping : Bool) (scope : Scope) (e : Expr) : Prop :=
  ∀ value, e.eval escaping scope = .ok value → value.kind ≠ .sequence ∧ value.kind ≠ .mapping

/-- The value of an expression behind a filter that escapes is the markup of its value. If it has
none, neither does the filter, and for the same cause. -/
theorem eval_escape {name : String} (escapes : name ∈ ["escape", "e"]) (e : Expr)
    (scope : Scope) : (Expr.filter e name []).eval escaping scope =
      (e.eval escaping scope).map fun value => .safe (value.markup true) := by
  rw [Expr.eval]
  cases e.eval escaping scope with
  | error cause => rfl
  | ok value => exact Filter.escape_markup escapes value

/-- What is behind a filter that escapes is safe text, if it has a value. So it stays as it is when
it is put out, and when it is escaped again. -/
theorem single_escape {name : String} (escapes : name ∈ ["escape", "e"]) (e : Expr)
    (scope : Scope) : Single escaping scope (.filter e name []) := by
  intro value evaluated
  rw [eval_escape escapes] at evaluated
  cases evaluates : e.eval escaping scope with
  | error cause =>
    rw [evaluates] at evaluated
    cases evaluated
  | ok before =>
    rw [evaluates] at evaluated
    cases evaluated
    exact ⟨nofun, nofun⟩

/-- A filter that escapes leaves what is put out as it is, if escaping is on. It makes the markup of
the value at an earlier time. Sequences and mappings are no single text, so the premise leaves them
out. -/
theorem render_escape {name : String} (escapes : name ∈ ["escape", "e"]) {e : Expr}
    (single : Single true session.scope e) :
    render shelf limit true [.output (.filter e name [])] session =
      render shelf limit true [.output e] session := by
  have escaped : (Expr.filter e name []).eval true session.scope = _ := eval_escape escapes e _
  cases evaluated : e.eval true session.scope with
  | error cause =>
    rw [evaluated] at escaped
    rw [render_output_mistyped shelf limit evaluated]
    exact render_output_mistyped shelf limit escaped
  | ok value =>
    rw [evaluated] at escaped
    have output := render_output shelf limit escaped ⟨nofun, nofun⟩
    rw [render_output shelf limit evaluated (single value evaluated)]
    exact output

/-- So do several of them, since each makes a value that is put out in some text. The induction is
on the names, from the innermost filter on. -/
theorem render_escapes {names : List String} (escape : ∀ name ∈ names, name ∈ ["escape", "e"])
    {e : Expr} (single : Single true session.scope e) :
    render shelf limit true [.output (e.filtered names)] session =
      render shelf limit true [.output e] session := by
  induction names generalizing e with
  | nil => rfl
  | cons name rest inductionHypothesis =>
    obtain ⟨escapes, others⟩ := List.forall_mem_cons.mp escape
    rw [← render_escape shelf limit escapes single]
    exact inductionHypothesis others (single_escape escapes e session.scope)

end Rendering

/-- Every text is escaped once. Whether escaping is on or off, and whichever of the texts are safe,
a sum of two texts is put out as the first text with the second one behind it, and it makes no
difference in what order a sum of three texts is made, not even to whether it is safe. So an
expression that adds texts puts out what its two sides put out one behind the other. With escaping
on, an expression whose value is neither a sequence nor a mapping puts out the same text, or fails
with the same fault, with any number of filters behind it that escape. -/
theorem escaped_exactly_once {σ : Type} (shelf : Shelf σ) (limit : Nat) (session : Session σ) :
    (∀ (escaping : Bool) (a b c : Value), a.kind = .string → b.kind = .string → c.kind = .string →
      (∃ sum, a.add escaping b = .ok sum ∧ sum.kind = .string ∧
        ∀ of left right : Expr, ∃ text later, a.emit escaping left = .ok text ∧
          b.emit escaping right = .ok later ∧ sum.emit escaping of = .ok (text ++ later)) ∧
      ∃ sum, (do (← a.add escaping b).add escaping c) = .ok sum ∧
        (do a.add escaping (← b.add escaping c)) = .ok sum) ∧
    (∀ (escaping : Bool) (left right : Expr) (a b : Value),
      left.eval escaping session.scope = .ok a → right.eval escaping session.scope = .ok b →
      a.kind = .string → b.kind = .string →
      render shelf limit escaping [.output (.binary .plus left right)] session =
        render shelf limit escaping [.output left, .output right] session) ∧
    ∀ e : Expr, (∀ value, e.eval true session.scope = .ok value →
        value.kind ≠ .sequence ∧ value.kind ≠ .mapping) →
      ∀ names : List String, (∀ name ∈ names, name ∈ ["escape", "e"]) →
        render shelf limit true [.output (e.filtered names)] session =
          render shelf limit true [.output e] session := by
  refine ⟨?_, ?_, ?_⟩
  · intro escaping a b c one two three
    refine ⟨?_, Value.add_grouping escaping one two three⟩
    obtain ⟨sum, added, text, markup, -⟩ := Value.add_texts escaping one two
    have puts {value : Value} (isText : value.kind = .string) (of : Expr) :
        value.emit escaping of = .ok (value.markup escaping) :=
      Value.emit_markup (by rw [isText]; decide) escaping of
    refine ⟨sum, added, text, fun of left right => ⟨_, _, puts one left, puts two right, ?_⟩⟩
    rw [puts text of, markup]
  · intro escaping left right a b evaluated evaluatedRight one two
    exact Rendering.render_sum shelf limit evaluated evaluatedRight one two
  · intro e single names escape
    exact Rendering.render_escapes shelf limit escape single

/-- In the sum of a tag and a sign the sign is escaped, however often the sum is escaped again. The
tag is safe text and stays as it is. -/
theorem escaped_exactly_once_tag :
    let shelf := Store.shelf ⟨[], 0, false⟩ 4
    let session : Session Unit := ⟨⟨[[("sign", .text "<"), ("tag", .safe "<b>")]]⟩, [], ()⟩
    let sum : Expr := .binary .plus (.variable "tag") (.variable "sign")
    (Value.safe "<b>").kind = .string ∧ (Value.text "<").kind = .string ∧
      (∃ total,
        (do (← (Value.safe "<b>").add true (.text "<")).add true (.text ">")) = .ok total ∧
        (do (Value.safe "<b>").add true (← (Value.text "<").add true (.text ">"))) = .ok total) ∧
      (Expr.variable "tag").eval true session.scope = .ok (.safe "<b>") ∧
      (Expr.variable "sign").eval true session.scope = .ok (.text "<") ∧
      (render shelf 4 true [.output sum] session).1 = .ok "<b>&lt;" ∧
      render shelf 4 true [.output sum] session =
        render shelf 4 true [.output (.variable "tag"), .output (.variable "sign")] session ∧
      render shelf 4 true [.output (sum.filtered ["e", "e"])] session =
        render shelf 4 true [.output sum] session := by
  intro shelf session sum
  have tag : (Expr.variable "tag").eval true session.scope = .ok (.safe "<b>") := by
    simp only [session]
    rfl
  have sign : (Expr.variable "sign").eval true session.scope = .ok (.text "<") := by
    simp only [session]
    rfl
  have total : sum.eval true session.scope = .ok (.safe "<b>&lt;") := by
    simp only [sum, session]
    rfl
  have output : (render shelf 4 true [.output sum] session).1 = .ok "<b>&lt;" := by
    simp only [sum, shelf, session]
    rfl
  have single : ∀ value, sum.eval true session.scope = .ok value →
      value.kind ≠ .sequence ∧ value.kind ≠ .mapping := by
    intro value evaluated
    rw [total] at evaluated
    cases evaluated
    exact ⟨by decide, by decide⟩
  obtain ⟨sums, sides, filters⟩ := escaped_exactly_once shelf 4 session
  have grouped := (sums true (.safe "<b>") (.text "<") (.text ">") rfl rfl rfl).2
  exact ⟨rfl, rfl, grouped, tag, sign, output, sides true _ _ _ _ tag sign rfl rfl,
    filters sum single ["e", "e"] (by decide)⟩

end Stencil
