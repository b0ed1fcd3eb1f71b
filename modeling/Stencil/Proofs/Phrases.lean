import Stencil.Expr.Reading
import Stencil.Proofs.Spelling

/-!
# Writing expressions

An expression is written as tokens, with parentheses only where it would be grouped otherwise: a
left operand must bind at least as tightly as its operator, and a right operand more tightly. Each
of the tokens can be written, and the first of them is never the end of a list.
-/

namespace Stencil.Expr

open Token (Kind)

/-- Induction over an expression. Lists and filters supply the hypothesis for each of their
expressions, so that no proof has to go through a companion for lists. -/
@[elab_as_elim]
theorem expr_induction {P : Expr → Prop}
    (text : ∀ s, P (.text s))
    (int : ∀ n, P (.int n))
    (float : ∀ x, P (.float x))
    (bool : ∀ b, P (.bool b))
    (none : P .none)
    (list : ∀ items, (∀ item ∈ items, P item) → P (.list items))
    (named : ∀ name, P (.variable name))
    (part : ∀ of name, P of → P (.attribute of name))
    (index : ∀ of key, P of → P key → P (.index of key))
    (not : ∀ of, P of → P (.not of))
    (binary : ∀ op left right, P left → P right → P (.binary op left right))
    (filter : ∀ of name arguments, P of → (∀ argument ∈ arguments, P argument) →
      P (.filter of name arguments))
    (e : Expr) : P e := by
  refine @Expr.rec P (fun items => ∀ item ∈ items, P item) text int float bool none list named
    part index not binary (fun of name arguments inner each => filter of name arguments inner
    each) ?_ ?_ e
  · intro item member
    cases member
  · intro head tail first others item member
    rcases List.mem_cons.mp member with rfl | later
    · exact first
    · exact others item later

/-- How tightly the parts of a path and a filter bind to what they stand behind: more tightly than
any operator. -/
def postfixStrength : Nat := 6

/-- How tightly the outermost form of an expression binds. A literal and a name bind as tightly as
anything. -/
def level : Expr → Nat
  | .not _ => negationStrength
  | .binary op _ _ => op.strength
  | _ => postfixStrength

/-- Tokens of an expression in a place where it must bind with at least `least`: in parentheses if
it does not, and without any otherwise. -/
def grouped (least : Nat) (e : Expr) (tokens : List Kind) : List Kind :=
  if least ≤ e.level then tokens else .sign .leftParen :: (tokens ++ [.sign .rightParen])

/-- The token for an operator. -/
def operatorToken : Operator → Kind
  | .or => .keyword .or
  | .and => .keyword .and
  | .equal => .sign .equal
  | .unequal => .sign .unequal
  | .plus => .sign .plus

/-- The token for the name of a part, which may be a position. A position is written as a number,
since this is what its digits are read as. -/
def partToken (name : String) : Kind :=
  match (Number.natural? name.toList).bind fun position => Number.whole? position with
  | some n => .integer n
  | Option.none => .name name

mutual

/-- The tokens of an expression. The left operand of an operator may bind as tightly as the operator
itself, and the right one must bind more tightly, since operators of one strength are read from the
left. No more parentheses than these are written. -/
def tokens : Expr → List Kind
  | .text s => [.string s]
  | .int n => if n.toInt < 0 then [.sign .minus, .integer (-n)] else [.integer n]
  | .float x => [.decimal x]
  | .bool b => [.keyword (if b then .true else .false)]
  | .none => [.keyword .none]
  | .list items => .sign .leftBracket :: itemTokens items
  | .variable name => [.name name]
  | .attribute of name => grouped postfixStrength of (tokens of) ++ [.sign .dot, partToken name]
  | .index of key =>
    grouped postfixStrength of (tokens of) ++
      .sign .leftBracket :: (tokens key ++ [.sign .rightBracket])
  | .not of => .keyword .not :: grouped negationStrength of (tokens of)
  | .binary op left right =>
    grouped op.strength left (tokens left) ++
      operatorToken op :: grouped (op.strength + 1) right (tokens right)
  | .filter of name arguments =>
    grouped postfixStrength of (tokens of) ++ .sign .pipe :: .name name :: argumentTokens arguments

/-- The tokens for the arguments of a filter; without any there are no parentheses, since a filter
on its own is its name alone. -/
def argumentTokens : List Expr → List Kind
  | [] => []
  | e :: rest => .sign .leftParen :: (tokens e ++ (tokensBehind rest ++ [.sign .rightParen]))

/-- The tokens for the items of a list and its end. -/
def itemTokens : List Expr → List Kind
  | [] => [.sign .rightBracket]
  | e :: rest => tokens e ++ (tokensBehind rest ++ [.sign .rightBracket])

/-- The tokens of expressions with a comma before each of them. A comma stands between two
expressions, and here the first of the two is already written. -/
def tokensBehind : List Expr → List Kind
  | [] => []
  | e :: rest => .sign .comma :: (tokens e ++ tokensBehind rest)

end

/-- A name that is written behind a dot: a word, or a position without a sign. -/
def IsPart (name : String) : Prop :=
  Token.isName name ∨ ∃ n : Int64, 0 ≤ n.toInt ∧ name = Number.wholeText n

mutual

/-- An expression that can be written: the names in it are words, its numbers are whole, and each of
them has a counterpart of the other sign. A negative number is written with a sign in front of its
counterpart. -/
def Writable : Expr → Prop
  | .text _ | .bool _ | .none => True
  | .int n => n ≠ Int64.minValue
  | .float _ => False
  | .list items => WritableAll items
  | .variable name => Token.isName name
  | .attribute of name => Writable of ∧ IsPart name
  | .index of key => Writable of ∧ Writable key
  | .not of => Writable of
  | .binary _ left right => Writable left ∧ Writable right
  | .filter of name arguments => Writable of ∧ Token.isName name ∧ WritableAll arguments

/-- Expressions that can all be written. -/
def WritableAll : List Expr → Prop
  | [] => True
  | e :: rest => Writable e ∧ WritableAll rest

end

/-- Expressions that can all be written can be written one by one. -/
theorem writable_of_mem {items : List Expr} (writable : WritableAll items) :
    ∀ item ∈ items, item.Writable := by
  induction items with
  | nil =>
    intro item member
    cases member
  | cons e rest inductionHypothesis =>
    exact List.forall_mem_cons.mpr ⟨writable.1, inductionHypothesis writable.2⟩

/-- A word is no position, since it does not begin with a digit. So behind a dot it is written as a
name. -/
theorem part_token_name {name : String} (named : Token.isName name = true) :
    partToken name = .name name := by
  obtain ⟨c, rest, parts, starts, -⟩ := Token.name_parts named
  have noNumber : Number.natural? name.toList = Option.none := by
    rw [parts, Number.natural?, if_neg]
    simp [(Text.startsWord_apart starts).2]
  rw [partToken, noNumber]
  rfl

/-- The token for a position is the number. The text of the number is read as the number again. -/
theorem part_token_whole {n : Int64} (natural : 0 ≤ n.toInt) :
    partToken (Number.wholeText n) = .integer n := by
  have digits := Number.toList_wholeText natural
  have fits : Number.whole? (n.toInt.natAbs : Int) = some n := by
    rw [Int.natAbs_of_nonneg natural, Number.whole?_toInt]
  simp only [partToken, digits, Number.natural?_toDigits, Option.bind_some, fits]

/-- The counterpart of a negative number has no sign, unless there is none. So it can be written
with digits alone. -/
theorem negated_natural {n : Int64} (other : n ≠ Int64.minValue) (negative : n.toInt < 0) :
    0 ≤ (-n).toInt := by
  have least : n.toInt ≠ Int64.minValue.toInt := fun same => other (Int64.toInt_inj.mp same)
  have low : Int64.minValue.toInt = -2 ^ 63 := rfl
  have bound := n.le_toInt
  rw [Int64.toInt_neg, Int.bmod_eq_of_le (by omega) (by omega)]
  omega

/-- The tokens of an operand can be written if its own tokens can. Parentheses are tokens that
always can. -/
theorem grouped_writable {least : Nat} {e : Expr} {tokens : List Kind}
    (writable : ∀ kind ∈ tokens, kind.Writable) :
    ∀ kind ∈ grouped least e tokens, kind.Writable := by
  by_cases tight : least ≤ e.level
  · rw [grouped, if_pos tight]
    exact writable
  · rw [grouped, if_neg tight, List.forall_mem_cons, List.forall_mem_append,
      List.forall_mem_singleton]
    exact ⟨trivial, writable, trivial⟩

/-- The tokens of a series of expressions and of the sign that ends it can be written if those of
each expression can. Lists and arguments are such series, and a comma stands between their
members. -/
theorem series_writable {e : Expr} {rest : List Expr}
    (each : ∀ item ∈ e :: rest, ∀ kind ∈ tokens item, kind.Writable) (closing : Sign) :
    ∀ kind ∈ tokens e ++ (tokensBehind rest ++ [.sign closing]), kind.Writable := by
  obtain ⟨first, others⟩ := List.forall_mem_cons.mp each
  have behind : ∀ kind ∈ tokensBehind rest, kind.Writable := by
    clear each first
    induction rest with
    | nil =>
      intro kind member
      cases member
    | cons next rest inductionHypothesis =>
      obtain ⟨firstBehind, others⟩ := List.forall_mem_cons.mp others
      rw [tokensBehind, List.forall_mem_cons, List.forall_mem_append]
      exact ⟨trivial, firstBehind, inductionHypothesis others⟩
  rw [List.forall_mem_append, List.forall_mem_append, List.forall_mem_singleton]
  exact ⟨first, behind, trivial⟩

/-- The tokens of an expression that can be written can all be written. The induction is on the
expression. Floats are left out by the premise; a negative number is written as two tokens, of which
the second one is not negative. -/
theorem tokens_writable {e : Expr} (writable : e.Writable) : ∀ kind ∈ tokens e, kind.Writable := by
  induction e using expr_induction with
  | text s => exact List.forall_mem_singleton.mpr trivial
  | int n =>
    -- A number below nothing is written as a sign and its counterpart.
    by_cases negative : n.toInt < 0
    · rw [tokens, if_pos negative, List.forall_mem_cons, List.forall_mem_singleton]
      exact ⟨trivial, negated_natural writable negative⟩
    · rw [tokens, if_neg negative]
      exact List.forall_mem_singleton.mpr (Int.not_lt.mp negative)
  | float x => cases writable
  | bool b => exact List.forall_mem_singleton.mpr trivial
  | none => exact List.forall_mem_singleton.mpr trivial
  | list items each =>
    have inItems : ∀ item ∈ items, ∀ kind ∈ tokens item, kind.Writable :=
      fun item member => each item member (writable_of_mem writable item member)
    rw [tokens, List.forall_mem_cons]
    refine ⟨trivial, ?_⟩
    cases items with
    | nil => exact List.forall_mem_singleton.mpr trivial
    | cons first rest => exact series_writable inItems .rightBracket
  | named name => exact List.forall_mem_singleton.mpr writable
  | part of name inner =>
    have last : (partToken name).Writable := by
      rcases writable.2 with named | ⟨n, natural, rfl⟩
      · rw [part_token_name named]
        exact named
      · rw [part_token_whole natural]
        exact natural
    rw [tokens, List.forall_mem_append, List.forall_mem_cons, List.forall_mem_singleton]
    exact ⟨grouped_writable (inner writable.1), trivial, last⟩
  | index of key inner inKey =>
    rw [tokens, List.forall_mem_append, List.forall_mem_cons, List.forall_mem_append,
      List.forall_mem_singleton]
    exact ⟨grouped_writable (inner writable.1), trivial, inKey writable.2, trivial⟩
  | not of inner =>
    rw [tokens, List.forall_mem_cons]
    exact ⟨trivial, grouped_writable (inner writable)⟩
  | binary op left right inLeft inRight =>
    have sign : (operatorToken op).Writable := by cases op <;> trivial
    rw [tokens, List.forall_mem_append, List.forall_mem_cons]
    exact ⟨grouped_writable (inLeft writable.1), sign, grouped_writable (inRight writable.2)⟩
  | filter of name arguments inner each =>
    have inArguments : ∀ argument ∈ arguments, ∀ kind ∈ tokens argument, kind.Writable :=
      fun item member => each item member (writable_of_mem writable.2.2 item member)
    have inside : ∀ kind ∈ argumentTokens arguments, kind.Writable := by
      cases arguments with
      | nil =>
        intro kind member
        cases member
      | cons first rest =>
        rw [argumentTokens, List.forall_mem_cons]
        exact ⟨trivial, series_writable inArguments .rightParen⟩
    rw [tokens, List.forall_mem_append, List.forall_mem_cons, List.forall_mem_cons]
    exact ⟨grouped_writable (inner writable.1), trivial, writable.2.1, inside⟩

/-- Tokens that do not begin with a bracket that ends a list, and of which there is one at least.
This tells an expression from the end of a list of expressions, which may be empty. -/
def StartsOperand (tokens : List Kind) : Prop :=
  ∃ kind rest, tokens = kind :: rest ∧ kind ≠ .sign .rightBracket ∧ kind ≠ .sign .rightParen

/-- What comes behind does not matter to it. -/
theorem starts_append {tokens : List Kind} (starts : StartsOperand tokens) (behind : List Kind) :
    StartsOperand (tokens ++ behind) := by
  obtain ⟨kind, rest, rfl, apart⟩ := starts
  exact ⟨kind, rest ++ behind, rfl, apart⟩

/-- Nor do parentheses around it: an opening one ends nothing. -/
theorem starts_grouped {least : Nat} {e : Expr} {tokens : List Kind}
    (starts : StartsOperand tokens) : StartsOperand (grouped least e tokens) := by
  by_cases tight : least ≤ e.level
  · rw [grouped, if_pos tight]
    exact starts
  · rw [grouped, if_neg tight]
    exact ⟨_, _, rfl, by decide, by decide⟩

/-- No expression begins with a bracket that ends a list. The cases are the forms of expressions;
what begins with a part of its own begins as the part does. -/
theorem starts_tokens (e : Expr) : StartsOperand (tokens e) := by
  induction e using expr_induction with
  | text s => exact ⟨_, _, rfl, by simp, by simp⟩
  | int n =>
    rw [tokens]
    split <;> exact ⟨_, _, rfl, by simp, by simp⟩
  | float x => exact ⟨_, _, rfl, by simp, by simp⟩
  | bool b => exact ⟨_, _, rfl, by simp, by simp⟩
  | none => exact ⟨_, _, rfl, by simp, by simp⟩
  | list items each => exact ⟨_, _, rfl, by simp, by simp⟩
  | named name => exact ⟨_, _, rfl, by simp, by simp⟩
  | part of name inner => exact starts_append (starts_grouped inner) _
  | index of key inner inKey => exact starts_append (starts_grouped inner) _
  | not of inner => exact ⟨_, _, rfl, by simp, by simp⟩
  | binary op left right inLeft inRight => exact starts_append (starts_grouped inLeft) _
  | filter of name arguments inner each => exact starts_append (starts_grouped inner) _

end Stencil.Expr
