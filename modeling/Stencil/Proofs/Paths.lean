import Stencil.Proofs.Blanks
import Stencil.Proofs.Literals

/-!
# Paths

A step of a path goes to a position or to a name, and is written behind a dot or in brackets. Behind
a dot digits are never taken together with what follows, so a path of positions has no fraction in
it, however many there are; its steps go to the positions as texts, without leading zeros. In
brackets they go to the positions as numbers. A sequence looks the text up as the number that it
is, and a mapping the number as its text, so the two ways lead to the same value, and what has no
parts one way has none the other way. A position in brackets may also be negative and is counted
from the end then.
-/

namespace Stencil

/-- The position that digits stand for, if it is a number of 64 bits. Leading zeros are allowed, so
different digits may stand for one position. -/
def position? (digits : List Char) : Option Int64 :=
  (Number.natural? digits).bind fun position => Number.whole? position

/-- Where a step of a path goes to. A step cannot be made up that would not be read back: digits
have to stand for a position, and a word must not be a keyword. -/
inductive Key where
  /-- A position, with the digits that it is written with. -/
  | position (digits : List Char) (n : Int64) (stands : position? digits = some n)
  /-- A word that is no keyword. -/
  | name (s : String) (named : Token.isName s = true)

/-- How the steps of a path are written: behind dots, or in brackets with one of the two marks
around names. -/
inductive Style where
  | dotted
  | bracketed (quote : Quote)

namespace Key

open Token (Kind)

/-- Whether a step goes to a position. -/
def isPosition : Key → Bool
  | .position .. => true
  | .name .. => false

/-- The name that a mapping has an entry for the step under. A position is looked up as its text,
which has no leading zeros. -/
def entryName : Key → String
  | .position _ n _ => Number.wholeText n
  | .name s _ => s

/-- How a step is written. A position keeps the digits that it has been given, with any zeros in
front, though the token does not. -/
def spelling : Style → Key → List Char
  | .dotted, .position digits .. => '.' :: digits
  | .dotted, .name s _ => '.' :: s.toList
  | .bracketed _, .position digits .. => '[' :: (digits ++ [']'])
  | .bracketed quote, .name s _ => '[' :: quote.mark :: (s.toList ++ [quote.mark, ']'])

/-- What a step into an expression is. Behind a dot every step goes to a text; in brackets it goes
to a number or to a text. -/
def step : Style → Expr → Key → Expr
  | .dotted, of, key => .attribute of key.entryName
  | .bracketed _, of, .position _ n _ => .index of (.int n)
  | .bracketed _, of, .name s _ => .index of (.text s)

/-- The tokens of a step. A position is a number as a token, also behind a dot; how many zeros it
was written with is not seen any more. -/
def kinds : Style → Key → List Kind
  | .dotted, .position _ n _ => [.sign .dot, .integer n]
  | .dotted, .name s _ => [.sign .dot, .name s]
  | .bracketed _, .position _ n _ => [.sign .leftBracket, .integer n, .sign .rightBracket]
  | .bracketed _, .name s _ => [.sign .leftBracket, .string s, .sign .rightBracket]

/-- The expression of a path that begins with a name: each step is put around those before it, so
the last step is the outermost expression. -/
def path (style : Style) (name : String) (keys : List Key) : Expr :=
  keys.foldl (step style) (.variable name)

/-- The digits of a position: there is one at least, all of them are digits, and the number that
they stand for is natural. -/
theorem position_parts {digits : List Char} {n : Int64} (stands : position? digits = some n) :
    0 ≤ n.toInt ∧ ∃ c more, digits = c :: more ∧ (∀ d ∈ c :: more, d.isDigit = true) ∧
      Number.whole? (Nat.ofDigitChars 10 (c :: more) 0) = some n := by
  obtain ⟨position, read, fits⟩ := Option.bind_eq_some_iff.mp stands
  unfold Number.natural? at read
  split at read
  · next digital =>
    obtain ⟨nonempty, all⟩ := digital
    obtain ⟨c, more, rfl⟩ := List.exists_cons_of_ne_nil nonempty
    cases read
    refine ⟨?_, c, more, rfl, List.all_eq_true.mp all, fits⟩
    rw [Number.toInt_of_whole? fits]
    exact Int.natCast_nonneg _
  · cases read

section Reading

open Token (kindsRead)

/-- What stands behind a step of a path: another step, or the blank behind the path. With any other
character the word or the number might go on. -/
def Follows (rest : List Char) : Prop :=
  ∃ c ∈ ['.', '[', ' '], ∃ later, rest = c :: later

/-- It goes on with no word and no number, since none of the three characters belongs to either. -/
theorem stops_of_follows {rest : List Char} (follows : Follows rest) :
    (∀ d ∈ rest.head?, Text.continuesWord d = false) ∧ ∀ d ∈ rest.head?, d.isDigit = false := by
  obtain ⟨c, listed, later, rfl⟩ := follows
  simp only [List.mem_cons, List.not_mem_nil, or_false] at listed
  simp only [List.head?_cons, Option.mem_some_iff, forall_eq']
  rcases listed with rfl | rfl | rfl <;> decide

variable (trim : Bool) (tag : Tag) (afterDot : Bool)

/-- A dot is a token, and what comes behind it is read as behind a dot. -/
theorem kindsRead_dot (rest : List Char) :
    kindsRead trim (.tag tag afterDot) ('.' :: rest) =
      .sign .dot :: kindsRead trim (.tag tag true) rest := by
  have read : Token.step trim (.tag tag afterDot) '.' rest =
      .token (.sign .dot) 0 (.tag tag true) := rfl
  exact Token.kindsRead_of_token read

/-- Between brackets reading begins as at the start of a tag. The premise is about the one token
between them, whichever it is. -/
theorem kindsRead_bracketed {inner rest : List Char} {kind : Kind}
    (read : kindsRead trim (.tag tag false) (inner ++ ']' :: rest) =
      kind :: kindsRead trim (.tag tag false) (']' :: rest)) :
    kindsRead trim (.tag tag afterDot) ('[' :: (inner ++ ']' :: rest)) =
      .sign .leftBracket :: kind :: .sign .rightBracket ::
        kindsRead trim (.tag tag false) rest := by
  have opened : Token.step trim (.tag tag afterDot) '[' (inner ++ ']' :: rest) =
      .token (.sign .leftBracket) 0 (.tag tag false) := rfl
  have closed : Token.step trim (.tag tag false) ']' rest =
      .token (.sign .rightBracket) 0 (.tag tag false) := rfl
  rw [Token.kindsRead_of_token opened, List.drop_zero, read, Token.kindsRead_of_token closed,
    List.drop_zero]

/-- Digits are read as the position that they stand for, if no digit follows. Behind a dot nothing
else is asked for; elsewhere what follows must not be a fraction. -/
theorem kindsRead_position {digits rest : List Char} {n : Int64}
    (stands : position? digits = some n)
    (stops : ∀ d ∈ rest.head?, d.isDigit = false)
    (whole : afterDot = true ∨ Token.fraction? rest = none) :
    kindsRead trim (.tag tag afterDot) (digits ++ rest) =
      .integer n :: kindsRead trim (.tag tag false) rest := by
  obtain ⟨-, c, more, rfl, each, fits⟩ := position_parts stands
  have read : Token.step trim (.tag tag afterDot) c (more ++ rest) = _ :=
    Token.tagStep_digits trim tag afterDot each fits stops whole
  rw [List.cons_append, Token.kindsRead_of_token read, List.drop_left]

/-- A word is read as a name, if no character follows with which it would go on. Keywords are
excluded, as they are no names. -/
theorem kindsRead_name {s : String} (named : Token.isName s = true) {rest : List Char}
    (stops : ∀ d ∈ rest.head?, Text.continuesWord d = false) :
    kindsRead trim (.tag tag afterDot) (s.toList ++ rest) =
      .name s :: kindsRead trim (.tag tag false) rest := by
  obtain ⟨c, more, parts, starts, continues, noKeyword⟩ := Token.name_parts named
  have read : Token.step trim (.tag tag afterDot) c (more ++ rest) = _ :=
    Token.tagStep_word trim tag afterDot starts continues stops
  rw [← parts, String.ofList_toList, noKeyword] at read
  rw [parts, List.cons_append, Token.kindsRead_of_token read, List.drop_left]

/-- In a word nothing has to be escaped, so between marks it is written as it is. Neither a
backslash nor a mark can start a word or go on with it. -/
theorem literal_name (quote : Quote) {s : String} (named : Token.isName s = true) :
    quote.literal (fun _ => false) s = quote.mark :: (s.toList ++ [quote.mark]) := by
  obtain ⟨c, more, parts, starts, continues, -⟩ := Token.name_parts named
  have plain : ∀ d ∈ s.toList, quote.escape d = [d] := by
    rw [parts]
    refine List.forall_mem_cons.mpr ⟨if_neg ?_, fun d member => if_neg ?_⟩
    · rintro (rfl | rfl)
      · exact absurd starts (by decide)
      · cases quote <;> exact absurd starts (by decide)
    · rintro (rfl | rfl)
      · exact absurd (continues _ member) (by decide)
      · cases quote <;> exact absurd (continues _ member) (by decide)
  rw [Quote.literal, Quote.encode_escape, List.flatMap_congr plain, List.flatMap_singleton']

/-- A word between marks is read as a text, whichever mark it is. -/
theorem kindsRead_quoted (quote : Quote) {s : String} (named : Token.isName s = true)
    (rest : List Char) :
    kindsRead trim (.tag tag afterDot) (quote.mark :: (s.toList ++ [quote.mark]) ++ rest) =
      .string s :: kindsRead trim (.tag tag false) rest := by
  rw [← literal_name quote named, kindsRead, Token.pieces_literal]
  rfl

/-- A step of a path is read as its tokens. The cases are those of the style and of the step;
whether the step stands behind a dot matters only for digits, and there it does. -/
theorem kindsRead_key (style : Style) (key : Key) {rest : List Char} (follows : Follows rest) :
    kindsRead trim (.tag tag afterDot) (key.spelling style ++ rest) =
      key.kinds style ++ kindsRead trim (.tag tag false) rest := by
  obtain ⟨noWord, noDigit⟩ := stops_of_follows follows
  have noBracket : ∀ d ∈ (']' :: rest).head?, d.isDigit = false := by
    rintro d ⟨⟩
    decide
  cases style with
  | dotted =>
    cases key with
    | position digits n stands =>
      rw [spelling, List.cons_append, kindsRead_dot,
        kindsRead_position trim tag true stands noDigit (.inl rfl)]
      rfl
    | name s named =>
      rw [spelling, List.cons_append, kindsRead_dot, kindsRead_name trim tag true named noWord]
      rfl
  | bracketed quote =>
    cases key with
    | position digits n stands =>
      have inside := kindsRead_position trim tag false stands noBracket (.inr rfl)
      rw [spelling, List.cons_append, List.append_assoc, List.singleton_append,
        kindsRead_bracketed trim tag afterDot inside]
      rfl
    | name s named =>
      have inside := kindsRead_quoted trim tag false quote named (']' :: rest)
      have parts : spelling (.bracketed quote) (.name s named) ++ rest =
          '[' :: (quote.mark :: (s.toList ++ [quote.mark]) ++ ']' :: rest) := by
        simp [spelling]
      rw [parts, kindsRead_bracketed trim tag afterDot inside]
      rfl

/-- Behind a step there are other steps or the end of the tag, so every step of a path is followed
by what it needs. -/
theorem follows_keys (style : Style) (keys : List Key) :
    Follows (keys.flatMap (spelling style) ++ [' ', '}', '}']) := by
  cases keys with
  | nil => exact ⟨' ', by decide, ['}', '}'], rfl⟩
  | cons next later =>
    cases style with
    | dotted => cases next <;> exact ⟨'.', by decide, _, rfl⟩
    | bracketed quote => cases next <;> exact ⟨'[', by decide, _, rfl⟩

/-- All steps of a path are read, and the end of the tag behind them. The induction is on the
steps. -/
theorem kindsRead_keys (style : Style) (keys : List Key) :
    kindsRead trim (.tag .output afterDot) (keys.flatMap (spelling style) ++ [' ', '}', '}']) =
      keys.flatMap (kinds style) ++ [.closing .output] := by
  induction keys generalizing afterDot with
  | nil =>
    rw [List.flatMap_nil, List.nil_append, kindsRead, Token.pieces_closed]
    rfl
  | cons key rest inductionHypothesis =>
    rw [List.flatMap_cons, List.append_assoc,
      kindsRead_key trim .output afterDot style key (follows_keys style rest), inductionHypothesis,
      List.flatMap_cons, List.append_assoc]

end Reading

section Expressions

variable (style : Style) {of : Expr}

/-- A step into an expression that can be written can be written. Positions are natural numbers and
words are no keywords, which is what the printer asks for. -/
theorem writable_step (writable : of.Writable) (key : Key) : (step style of key).Writable := by
  cases key with
  | position digits n stands =>
    obtain ⟨natural, -⟩ := position_parts stands
    cases style with
    | dotted => exact ⟨writable, .inr ⟨n, natural, rfl⟩⟩
    | bracketed quote =>
      refine ⟨writable, ?_⟩
      rintro rfl
      exact absurd natural (by decide)
  | name s named =>
    cases style with
    | dotted => exact ⟨writable, .inl named⟩
    | bracketed quote => exact ⟨writable, trivial⟩

/-- A step has its tokens behind those of what it goes into. The premise says that this is not put
in brackets, which holds of a name and of every step. The cases are those of the step and of the
style. -/
theorem tokens_step (tight : of.level = Expr.postfixStrength) (key : Key) :
    (step style of key).tokens = of.tokens ++ key.kinds style := by
  have ungrouped : Expr.grouped Expr.postfixStrength of of.tokens = of.tokens :=
    if_pos (Nat.le_of_eq tight.symm)
  cases key with
  | position digits n stands =>
    obtain ⟨natural, -⟩ := position_parts stands
    cases style with
    | dotted => rw [step, Expr.tokens, ungrouped, entryName, Expr.part_token_whole natural, kinds]
    | bracketed quote =>
      rw [step, Expr.tokens, ungrouped, Expr.tokens, if_neg (Int.not_lt.mpr natural), kinds]
      rfl
  | name s named =>
    cases style with
    | dotted => rw [step, Expr.tokens, ungrouped, entryName, Expr.part_token_name named, kinds]
    | bracketed quote =>
      rw [step, Expr.tokens, ungrouped, Expr.tokens, kinds]
      rfl

/-- A path has the tokens of its steps behind those of what it goes into. The induction is on the
steps, from any expression that needs no brackets. -/
theorem tokens_steps (keys : List Key) (writable : of.Writable)
    (tight : of.level = Expr.postfixStrength) : (keys.foldl (step style) of).Writable ∧
      (keys.foldl (step style) of).tokens = of.tokens ++ keys.flatMap (kinds style) := by
  induction keys generalizing of with
  | nil => exact ⟨writable, (List.append_nil _).symm⟩
  | cons key rest inductionHypothesis =>
    have level : (step style of key).level = Expr.postfixStrength := by
      cases style <;> cases key <;> rfl
    obtain ⟨whole, tokens⟩ := inductionHypothesis (writable_step style writable key) level
    refine ⟨whole, tokens.trans ?_⟩
    rw [tokens_step style tight, List.append_assoc, List.flatMap_cons]

section Sources

variable {x : String} (named : Token.isName x = true) (keys : List Key) (trim : Bool)

include named

/-- A tag with a path in it has the name and the steps as its tokens, whatever the digits are and
whether line ends are trimmed or not. The name ends where the first step begins, with a dot, a
bracket or the blank in front of the closing. -/
theorem kinds_of_path : (Token.Stream.ofSource trim ("\x7b\x7b " ++ x ++
      String.ofList (keys.flatMap (spelling style)) ++ " \x7d\x7d")).tokens.map Token.kind =
    .opening .output :: .name x :: (keys.flatMap (kinds style) ++ [.closing .output]) := by
  have parts : ("\x7b\x7b " ++ x ++ String.ofList (keys.flatMap (spelling style)) ++
      " \x7d\x7d").toList = '{' :: '{' :: ' ' ::
        (x.toList ++ (keys.flatMap (spelling style) ++ [' ', '}', '}'])) := by
    simp [String.toList_append]
  have unblank : Token.Unblank
      (x.toList ++ (keys.flatMap (spelling style) ++ [' ', '}', '}'])) := by
    obtain ⟨c, more, chars, starts, -⟩ := Token.name_parts named
    rw [chars]
    exact ⟨c, _, rfl, (Text.startsWord_apart starts).1⟩
  have inside := kindsRead_name trim .output false named
    (stops_of_follows (follows_keys style keys)).1
  rw [kindsRead_keys] at inside
  rw [Token.Stream.ofSource, Token.kinds_tokensFrom, parts, Token.pieces_opened trim unblank]
  exact congrArg (Token.Kind.opening .output :: ·) inside

/-- A path is read as its steps, one around the other. The tokens are those that its expression is
written with, so reading what is written gives it back. -/
theorem nodes_of_path (name : Option String) :
    Template.nodesOfSource name trim
        ("\x7b\x7b " ++ x ++ String.ofList (keys.flatMap (spelling style)) ++ " \x7d\x7d") =
      .ok [.output (path style x keys)] := by
  have variableWritable : (Expr.variable x).Writable := named
  obtain ⟨writable, tokens⟩ := tokens_steps style keys variableWritable rfl
  apply Template.nodes_of_output writable
  rw [kinds_of_path style named keys trim, tokens]
  rfl

end Sources

end Expressions

/-- Two outcomes are the same value, or a failure both. The causes may differ, since each of them
names the expression that it is about. -/
def Meet (outcome other : Except Mistyped Value) : Prop :=
  (∃ value, outcome = .ok value ∧ other = .ok value) ∨
    ∃ cause otherCause, outcome = .error cause ∧ other = .error otherCause

section Values

variable (escaping : Bool) (scope : Scope) (quote : Quote)

/-- The item at a position counted from the front. Behind the last item there is nothing. -/
theorem itemAt_front (items : List Value) {position : Int} (natural : 0 ≤ position) :
    Value.itemAt items position = (items[position.toNat]?).getD .undefined := by
  simp only [Value.itemAt, if_neg (Int.not_lt.mpr natural)]

/-- The item at a position counted from the end, if there are items enough. -/
theorem itemAt_back (items : List Value) {position : Int} (negative : position < 0)
    (inside : 0 ≤ items.length + position) :
    Value.itemAt items position = (items[(items.length + position).toNat]?).getD .undefined := by
  simp only [Value.itemAt, if_pos negative, if_neg (Int.not_lt.mpr inside)]

/-- Nothing is at a position outside, neither behind the last item nor in front of the first one.
The two ends are told apart, since a negative position is counted from the back first. -/
theorem itemAt_outside (items : List Value) {position : Int}
    (outside : position < -items.length ∨ items.length ≤ position) :
    Value.itemAt items position = .undefined := by
  rcases outside with before | behind
  · have negative : position < 0 := by omega
    have inside : (items.length + position : Int) < 0 := by omega
    simp only [Value.itemAt, if_pos negative, if_pos inside]
  · have natural : 0 ≤ position := by omega
    rw [itemAt_front items natural, List.getElem?_eq_none (by omega), Option.getD_none]

/-- What a position leads to does not hang on how it is written, whatever it is a position in. A
sequence reads the text as the number, a mapping writes the number as the text, and nothing else has
parts. -/
theorem meet_position (of other : Expr) (value : Value) {n : Int64} (natural : 0 ≤ n.toInt) :
    Meet (value.member of (Number.wholeText n)) (value.part other (.int n)) := by
  cases value with
  | map entries => exact .inl ⟨_, rfl, rfl⟩
  | seq items =>
    refine .inl ⟨_, rfl, congrArg Except.ok ?_⟩
    have position : n.toInt.toNat = n.toInt.natAbs := by omega
    rw [itemAt_front items natural, Number.toList_wholeText natural, Number.natural?_toDigits,
      Option.bind_some, position]
  | _ => exact .inr ⟨_, _, rfl, rfl⟩

/-- Steps to a position meet where what they go into does. If one of the two has no value, neither
step has one. -/
theorem meet_step {of other : Expr}
    (meet : Meet (of.eval escaping scope) (other.eval escaping scope)) {key : Key}
    (position : key.isPosition = true) :
    Meet ((step .dotted of key).eval escaping scope)
      ((step (.bracketed quote) other key).eval escaping scope) := by
  cases key with
  | name s named => cases position
  | position digits n stands =>
    rw [step, step, Expr.eval, Expr.eval, Expr.eval]
    rcases meet with ⟨value, found, foundThere⟩ | ⟨cause, otherCause, failed, failedThere⟩
    · rw [found, foundThere]
      exact meet_position of other value (position_parts stands).1
    · rw [failed, failedThere]
      exact .inr ⟨cause, otherCause, rfl, rfl⟩

/-- Paths of positions meet. The induction is on the steps and starts from any expressions that
do. -/
theorem meet_steps {of other : Expr} {keys : List Key}
    (positions : ∀ key ∈ keys, key.isPosition = true)
    (meet : Meet (of.eval escaping scope) (other.eval escaping scope)) :
    Meet ((keys.foldl (step .dotted) of).eval escaping scope)
      ((keys.foldl (step (.bracketed quote)) other).eval escaping scope) := by
  induction keys generalizing of other with
  | nil => exact meet
  | cons key rest inductionHypothesis =>
    obtain ⟨position, others⟩ := List.forall_mem_cons.mp positions
    exact inductionHypothesis others (meet_step escaping scope quote meet position)

variable {escaping scope} {of : Expr}

/-- Whatever a step into a mapping goes to, it leads to the same entry either way, or to nothing if
there is none under its name. A position goes by its digits in the shortest way, and both styles
have the same one. -/
theorem step_mapping {entries : List (String × Value)}
    (evaluated : of.eval escaping scope = .ok (.map entries)) (style : Style) (key : Key) :
    (step style of key).eval escaping scope =
      .ok ((Dict.get? entries key.entryName).getD .undefined) := by
  cases style with
  | dotted =>
    rw [step, Expr.eval, evaluated]
    rfl
  | bracketed quote =>
    cases key with
    | position digits n stands =>
      rw [step, Expr.eval, Expr.eval, evaluated]
      rfl
    | name s named =>
      rw [step, Expr.eval, Expr.eval, evaluated]
      rfl

variable {key : Expr} {items : List Value} {position : Int64}

/-- A position in a sequence is looked up, from the front or from the end. Nothing has to be known
about the position: what is outside is nothing. -/
theorem index_sequence (evaluated : of.eval escaping scope = .ok (.seq items))
    (stated : key.eval escaping scope = .ok (.int position)) :
    (Expr.index of key).eval escaping scope = .ok (Value.itemAt items position.toInt) := by
  rw [Expr.eval, evaluated, stated]
  rfl

/-- Where there is an item, it is the value. The premise `found` says where the position is counted
to, from whichever end. -/
theorem index_present (evaluated : of.eval escaping scope = .ok (.seq items))
    (stated : key.eval escaping scope = .ok (.int position)) {place : Nat}
    (inside : place < items.length)
    (found : Value.itemAt items position.toInt = (items[place]?).getD .undefined) :
    ∃ item, items[place]? = some item ∧ (Expr.index of key).eval escaping scope = .ok item := by
  have present : items[place]? = some items[place] := List.getElem?_eq_getElem inside
  refine ⟨items[place], present, ?_⟩
  rw [index_sequence evaluated stated, found, present, Option.getD_some]

end Values

end Key

/-- Paths are the same behind dots as in brackets. From a name on, steps to any positions and names
are read as the steps that are written, in both ways: digits behind a dot are a step of their own
each, whatever stands around them, and a name in brackets may stand between either marks. Wherever
all steps go to positions, the two paths have the same value, or neither has one. A step into a
mapping leads to the same entry both ways, also if it goes to a name. A position in brackets leads
to the item of a sequence that is there, counted from the front or, if it is negative, from the end,
and to nothing if it is outside. -/
theorem paths_agree (escaping : Bool) (scope : Scope) (quote : Quote) :
    (∀ (x : String) (keys : List Key), Token.isName x = true →
      (∀ (style : Style) (trim : Bool) (name : Option String),
        Template.nodesOfSource name trim ("\x7b\x7b " ++ x ++
            String.ofList (keys.flatMap (Key.spelling style)) ++ " \x7d\x7d") =
          .ok [.output (Key.path style x keys)]) ∧
      ((∀ key ∈ keys, key.isPosition = true) →
        Key.Meet ((Key.path .dotted x keys).eval escaping scope)
          ((Key.path (.bracketed quote) x keys).eval escaping scope))) ∧
    (∀ (of : Expr) (entries : List (String × Value)),
      of.eval escaping scope = .ok (.map entries) → ∀ (style : Style) (key : Key),
        (key.step style of).eval escaping scope =
          .ok ((Dict.get? entries key.entryName).getD .undefined)) ∧
    ∀ (of key : Expr) (items : List Value) (position : Int64),
      of.eval escaping scope = .ok (.seq items) →
      key.eval escaping scope = .ok (.int position) →
      let i := position.toInt
      let part := (Expr.index of key).eval escaping scope
      (0 ≤ i → i < items.length →
        ∃ item, items[i.toNat]? = some item ∧ part = .ok item) ∧
      (-items.length ≤ i → i < 0 →
        ∃ item, items[(items.length + i).toNat]? = some item ∧ part = .ok item) ∧
      (i < -items.length ∨ items.length ≤ i → part = .ok .undefined) := by
  refine ⟨?_, ?_, ?_⟩
  · intro x keys named
    constructor
    · intro style trim name
      exact Key.nodes_of_path style named keys trim name
    · intro positions
      -- Both paths start from the name, and every step takes equal values to equal values.
      apply Key.meet_steps escaping scope quote positions
      exact .inl ⟨scope.lookup x, rfl, rfl⟩
  · intro of entries evaluated style key
    exact Key.step_mapping evaluated style key
  · intro of key items position evaluated stated i part
    refine ⟨?_, ?_, ?_⟩
    · intro natural inside
      apply Key.index_present evaluated stated
      · omega
      · exact Key.itemAt_front items natural
    · intro inside negative
      apply Key.index_present evaluated stated
      · omega
      · apply Key.itemAt_back items negative
        omega
    · intro outside
      rw [← Key.itemAt_outside items outside]
      exact Key.index_sequence evaluated stated

/-- The first position, with a zero in front. -/
def firstKey : Key := .position ['0', '0'] 0 (by decide)

/-- The name of a part. -/
def partKey : Key := .name "part" (by decide)

/-- A row of a mapping and a text, and positions in both of them. Zeros in front of a position are
read in both styles, and the mapping has an entry that is called by a digit. -/
theorem paths_agree_row :
    let entries : List (String × Value) := [("0", .text "a"), ("part", .text "b")]
    let items : List Value := [.map entries, .text "c"]
    let scope : Scope := ⟨[[("row", .seq items)]]⟩
    let row : Expr := .variable "row"
    let first : Expr := .attribute row "0"
    Token.isName "row" = true ∧
      Template.nodesOfSource none false "\x7b\x7b row.00.00 \x7d\x7d" =
        .ok [.output (.attribute first "0")] ∧
      Template.nodesOfSource none false "\x7b\x7b row[00]['part'] \x7d\x7d" =
        .ok [.output (.index (.index row (.int 0)) (.text "part"))] ∧
      (∀ key ∈ [firstKey, firstKey], key.isPosition = true) ∧
      Key.Meet ((Expr.attribute first "0").eval true scope)
        ((Expr.index (.index row (.int 0)) (.int 0)).eval true scope) ∧
      first.eval true scope = .ok (.map entries) ∧
      (Expr.attribute first "part").eval true scope = .ok (.text "b") ∧
      (Expr.index first (.text "part")).eval true scope = .ok (.text "b") ∧
      row.eval true scope = .ok (.seq items) ∧
      (∀ position : Int64, (Expr.int position).eval true scope = .ok (.int position)) ∧
      (∃ item, items[1]? = some item ∧ (Expr.index row (.int 1)).eval true scope = .ok item) ∧
      (∃ item, items[0]? = some item ∧ (Expr.index row (.int (-2))).eval true scope = .ok item) ∧
      (Expr.index row (.int (-3))).eval true scope = .ok .undefined := by
  intro entries items scope row first
  have named : Token.isName "row" = true := by decide
  have positions : ∀ key ∈ [firstKey, firstKey], key.isPosition = true := by
    simp [firstKey, Key.isPosition]
  have mapping : first.eval true scope = .ok (.map entries) := by
    simp only [first, row, scope, items, entries]
    rfl
  have sequence : row.eval true scope = .ok (.seq items) := by
    simp only [row, scope, items, entries]
    rfl
  have number (position : Int64) : (Expr.int position).eval true scope = .ok (.int position) := by
    rw [Expr.eval]
  obtain ⟨written, inMapping, inSequence⟩ := paths_agree true scope .single
  obtain ⟨-, meet⟩ := written "row" [firstKey, firstKey] named
  have dotted := (written "row" [firstKey, firstKey] named).1 .dotted false none
  have bracketed := (written "row" [firstKey, partKey] named).1 (.bracketed .single) false none
  obtain ⟨inside, -, -⟩ := inSequence row (.int 1) items 1 sequence (number 1)
  obtain ⟨-, fromEnd, -⟩ := inSequence row (.int (-2)) items (-2) sequence (number (-2))
  obtain ⟨-, -, outside⟩ := inSequence row (.int (-3)) items (-3) sequence (number (-3))
  exact ⟨named, dotted, bracketed, positions, meet positions, mapping,
    inMapping first entries mapping .dotted partKey,
    inMapping first entries mapping (.bracketed .single) partKey, sequence, number,
    inside (by decide) (by decide), fromEnd (by decide) (by decide), outside (.inl (by decide))⟩

end Stencil
