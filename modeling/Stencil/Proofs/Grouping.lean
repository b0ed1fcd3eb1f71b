import Stencil.Proofs.Phrases

/-!
# Reading expressions back

What an expression is written as is read as the same expression. While a right operand is read, its
operator waits; so what has been read of an expression is an operand behind some waiting operators,
and it amounts to the expression as soon as the operators that bind as tightly have got their
operands. Where an operand stands, only looser operators wait, so none of them goes before its own.
-/

namespace Stencil.Expr

open Token (Kind)

namespace Reading

/-- Read tokens that all fit and of which none ends the expression. This is the part of reading
between two places inside of one expression. -/
def feed : Reading → List Kind → Option Reading
  | reading, [] => some reading
  | reading, kind :: rest =>
    match reading.step kind with
    | .ok (.more reached) => feed reached rest
    | _ => Option.none

/-- A token that fits is read before the others. -/
theorem feed_step {reading reached : Reading} {kind : Kind}
    (fits : reading.step kind = .ok (.more reached)) (rest : List Kind) :
    feed reading (kind :: rest) = feed reached rest := by
  rw [feed, fits]

/-- Tokens that all fit are read before those behind them, so what is written piece by piece can be
read piece by piece. -/
theorem feed_append {reading reached : Reading} {first : List Kind}
    (read : feed reading first = some reached) (second : List Kind) :
    feed reading (first ++ second) = feed reached second := by
  induction first generalizing reading with
  | nil =>
    cases read
    rfl
  | cons kind rest inductionHypothesis =>
    rw [feed] at read
    split at read
    · next fits => rw [List.cons_append, feed_step fits, inductionHypothesis read]
    · cases read

/-- Where an operand that binds with `least` may stand: behind operators that neither take it apart
nor go before its own. A negation may be as tight as the operand, since nothing stands in front of
it that could be taken. -/
def Room (least : Nat) : List Waiting → Prop
  | .negation :: _ => negationStrength ≤ least
  | .binary op _ :: _ => op.strength < least
  | [] => True

/-- Where there is room for an operand there is room for one that binds more tightly. -/
theorem room_mono {least more : Nat} {waiting : List Waiting} (room : Room least waiting)
    (grows : least ≤ more) : Room more waiting := by
  unfold Room at room ⊢
  split at room
  · exact Nat.le_trans room grows
  · exact Nat.lt_of_lt_of_le room grows
  · trivial

/-- An operator takes nothing from around an operand for which there is room. The strength of
negations is left out, since an operator of that strength would end a negation. -/
theorem settle_room {least : Nat} {waiting : List Waiting} (room : Room least waiting)
    (other : least ≠ negationStrength) (e : Expr) : settle least e waiting = (e, waiting) := by
  unfold settle
  unfold Room at room
  split
  · exact if_neg (by omega)
  · exact if_neg (Nat.not_le.mpr room)
  · rfl

/-- What binds more tightly than all operators takes nothing from around an operand, whatever waits
there. -/
theorem settle_tight (e : Expr) (waiting : List Waiting) :
    settle postfixStrength e waiting = (e, waiting) := by
  have room : Room postfixStrength waiting := by
    unfold Room
    split
    · decide
    · next op _ _ => cases op <;> decide
    · trivial
  exact settle_room room (by decide) e

/-- Settled with everything around it, an operand is collapsed: an end finds what the loosest
operator would. -/
theorem settle_zero (e : Expr) (waiting : List Waiting) :
    settle 0 e waiting = (collapse e waiting, []) := by
  induction waiting generalizing e with
  | nil => rfl
  | cons first outer inductionHypothesis =>
    cases first with
    | negation => exact inductionHypothesis _
    | binary op left => exact inductionHypothesis _

/-- The operand that the next token may go on from. The name of a filter counts as an operand, since
its arguments may be left out. -/
def held? : Stage → Option Expr
  | .complete e => some e
  | .filtered of named => some (.filter of named [])
  | _ => Option.none

/-- What has been read amounts to `e` behind the operators in `waiting`: an operator that binds no
more tightly than `strength` will find exactly that. Inside, operators may still wait for it to
come; this is the invariant that lets a right operand be read before the operator in front of it is
applied. -/
def Amounts (strength : Nat) (e : Expr) (waiting : List Waiting)
    (brackets : List (Bracket × List Waiting)) (reading : Reading) : Prop :=
  reading.brackets = brackets ∧ ∃ operand, held? reading.stage = some operand ∧
    ∀ least ≤ strength, settle least operand reading.waiting = settle least e waiting

section Steps

variable {strength : Nat} {e : Expr} {waiting : List Waiting}
  {brackets : List (Bracket × List Waiting)} {reading : Reading}

/-- A complete operand amounts to itself, whatever comes next. -/
theorem amounts_complete : Amounts strength e waiting brackets ⟨waiting, brackets, .complete e⟩ :=
  ⟨rfl, e, rfl, fun _ _ => rfl⟩

/-- What is found by an operator is found by a looser one as well. -/
theorem amounts_mono {least : Nat} (amounts : Amounts strength e waiting brackets reading)
    (weaker : least ≤ strength) : Amounts least e waiting brackets reading := by
  obtain ⟨same, operand, held, agree⟩ := amounts
  exact ⟨same, operand, held, fun lower within => agree lower (Nat.le_trans within weaker)⟩

/-- Behind an operand every token but an opening parenthesis goes on from it. The parenthesis is
left out because behind the name of a filter it begins the arguments. -/
theorem step_held {operand : Expr} {kind : Kind} (held : held? reading.stage = some operand)
    (other : kind ≠ .sign .leftParen) :
    reading.step kind = extend reading.waiting reading.brackets operand kind := by
  obtain ⟨waiting, brackets, stage⟩ := reading
  cases stage with
  | complete e =>
    cases held
    rfl
  | filtered of named =>
    cases held
    exact if_neg other
  | _ => cases held

/-- Signs that bind more tightly than all operators find the operand as it is. -/
theorem step_tight {kind : Kind} (amounts : Amounts postfixStrength e waiting brackets reading)
    (other : kind ≠ .sign .leftParen) : reading.step kind = extend waiting brackets e kind := by
  obtain ⟨same, operand, held, agree⟩ := amounts
  have alike := agree postfixStrength (Nat.le_refl _)
  rw [settle_tight, settle_tight] at alike
  obtain ⟨rfl, kept⟩ := Prod.mk.inj alike
  rw [step_held held other, same, kept]

/-- An operator takes what it finds as its left operand and waits for the right one. Since there is
room for it, none of the operators that wait goes before it. -/
theorem step_operator {op : Operator} (amounts : Amounts op.strength e waiting brackets reading)
    (room : Room op.strength waiting) :
    reading.step (operatorToken op) =
      .ok (.more ⟨.binary op e :: waiting, brackets, .operand⟩) := by
  obtain ⟨same, operand, held, agree⟩ := amounts
  have found : settle op.strength operand reading.waiting = (e, waiting) := by
    rw [agree op.strength (Nat.le_refl _), settle_room room (by cases op <;> decide)]
  have joined : extend reading.waiting reading.brackets operand (operatorToken op) =
      .ok (.more ⟨.binary op (settle op.strength operand reading.waiting).1 ::
        (settle op.strength operand reading.waiting).2, reading.brackets, .operand⟩) := by
    cases op <;> rfl
  rw [step_held held (by cases op <;> decide), joined, found, same]

/-- Whether a token can only stand behind a whole operand, and does not extend it. An expression
that is written in front of such a token is read to its end there. -/
def endsOperand : Kind → Bool
  | .sign .comma | .sign .rightBracket | .sign .rightParen | .closing _ => true
  | _ => false

/-- A token that ends an operand finds all of it. Nothing waits around it, so everything that has
been read is put together, and the brackets alone decide what becomes of it. -/
theorem step_end {kind : Kind} (amounts : Amounts strength e [] brackets reading)
    (ends : endsOperand kind = true) : reading.step kind = endOperand e brackets kind := by
  obtain ⟨same, operand, held, agree⟩ := amounts
  have all := agree 0 (Nat.zero_le _)
  rw [settle_zero, settle_zero] at all
  have whole : collapse operand reading.waiting = e := (Prod.mk.inj all).1
  have other : kind ≠ .sign .leftParen := by
    rintro rfl
    cases ends
  rw [step_held held other, same, ← whole]
  unfold endsOperand at ends
  split at ends
  · rfl
  · rfl
  · rfl
  · rfl
  · cases ends

end Steps

/-- Tokens that are read as `e` wherever there is room for an operand that binds with `strength`.
Brackets around it do not matter, and neither do looser operators that wait. -/
def ReadAs (strength : Nat) (e : Expr) (written : List Kind) : Prop :=
  ∀ waiting brackets, Room strength waiting →
    ∃ reached, feed ⟨waiting, brackets, .operand⟩ written = some reached ∧
      Amounts strength e waiting brackets reached

/-- A token that is an operand by itself. It completes the operand at once, so it can stand behind
any operator. -/
theorem read_as_token {strength : Nat} {e : Expr} {kind : Kind}
    (single : ∀ waiting brackets,
      startOperand waiting brackets kind = .ok (.more ⟨waiting, brackets, .complete e⟩)) :
    ReadAs strength e [kind] := by
  intro waiting brackets _
  have complete : step ⟨waiting, brackets, .operand⟩ kind =
      .ok (.more ⟨waiting, brackets, .complete e⟩) := single waiting brackets
  exact ⟨_, feed_step complete [], amounts_complete⟩

/-- An expression is read as itself in parentheses where there is no room for it otherwise. In
parentheses nothing waits, so there is room for anything, and behind them it is a single operand. -/
theorem read_as_grouped {e : Expr} {written : List Kind} (read : ReadAs e.level e written)
    (least : Nat) : ReadAs least e (grouped least e written) := by
  intro waiting brackets room
  by_cases tight : least ≤ e.level
  · obtain ⟨reached, fed, amounts⟩ := read waiting brackets (room_mono room tight)
    rw [grouped, if_pos tight]
    exact ⟨reached, fed, amounts_mono amounts tight⟩
  · -- in parentheses nothing waits, so there is room for everything
    obtain ⟨reached, fed, amounts⟩ := read [] ((.group, waiting) :: brackets) trivial
    have opened : step ⟨waiting, brackets, .operand⟩ (.sign .leftParen) =
        .ok (.more ⟨[], (.group, waiting) :: brackets, .operand⟩) := rfl
    have closed : reached.step (.sign .rightParen) =
        .ok (.more ⟨waiting, brackets, .complete e⟩) := step_end amounts rfl
    refine ⟨_, ?_, amounts_complete⟩
    rw [grouped, if_neg tight, feed_step opened, feed_append fed, feed_step closed, feed]

/-- Where a list may end, its next item may start. The first token of the item is no bracket that
ends the list. -/
theorem feed_item {written : List Kind} (starts : StartsOperand written) (waiting : List Waiting)
    (brackets : List (Bracket × List Waiting)) :
    feed ⟨waiting, brackets, .item⟩ written = feed ⟨waiting, brackets, .operand⟩ written := by
  obtain ⟨kind, rest, rfl, noBracket, noParen⟩ := starts
  have same : step ⟨waiting, brackets, .item⟩ kind = step ⟨waiting, brackets, .operand⟩ kind := by
    show startItem waiting brackets kind = startOperand waiting brackets kind
    unfold startItem
    split
    · exact absurd rfl noBracket
    · exact absurd rfl noParen
    · rfl
  rw [feed, feed, same]

/-- Expressions between commas are read up to the sign that ends them: `bracket` gets all of them,
and `result` is made of it. Lists and the arguments of filters are the two uses; the premises
`goesOn` and `stops` say what a comma and the end do there. -/
theorem feed_series (bracket : List Expr → Bracket) (result : List Expr → Expr) {closing : Sign}
    (ends : endsOperand (.sign closing) = true)
    (goesOn : ∀ e items outer rest, endOperand e ((bracket items, outer) :: rest) (.sign .comma) =
      .ok (.more ⟨[], (bracket (items ++ [e]), outer) :: rest, .item⟩))
    (stops : ∀ e items outer rest, endOperand e ((bracket items, outer) :: rest) (.sign closing) =
      .ok (.more ⟨outer, rest, .complete (result (items ++ [e]))⟩))
    (outer : List Waiting) (brackets : List (Bracket × List Waiting)) {e : Expr}
    {rest : List Expr} (read : ReadAs e.level e (tokens e))
    (others : ∀ item ∈ rest, ReadAs item.level item (tokens item)) (before : List Expr) :
    feed ⟨[], (bracket before, outer) :: brackets, .item⟩
        (tokens e ++ (tokensBehind rest ++ [.sign closing])) =
      some ⟨outer, brackets, .complete (result (before ++ e :: rest))⟩ := by
  induction rest generalizing e before with
  | nil =>
    obtain ⟨reached, fed, amounts⟩ := read [] ((bracket before, outer) :: brackets) trivial
    have stopped := (step_end amounts ends).trans (stops e before outer brackets)
    rw [feed_item (starts_append (starts_tokens e) _), feed_append fed, tokensBehind,
      List.nil_append, feed_step stopped, feed]
  | cons next rest inductionHypothesis =>
    obtain ⟨reached, fed, amounts⟩ := read [] ((bracket before, outer) :: brackets) trivial
    have continued : reached.step (.sign .comma) =
        .ok (.more ⟨[], (bracket (before ++ [e]), outer) :: brackets, .item⟩) :=
      (step_end amounts rfl).trans (goesOn e before outer brackets)
    obtain ⟨readNext, readRest⟩ := List.forall_mem_cons.mp others
    rw [feed_item (starts_append (starts_tokens e) _), feed_append fed, tokensBehind,
      List.cons_append, feed_step continued, List.append_assoc,
      inductionHypothesis readNext readRest, List.append_assoc, List.singleton_append]

/-- A number is read with its sign. A negative one is written with a minus, which reading takes
together with the digits behind it. -/
theorem read_as_int (n : Int64) : ReadAs postfixStrength (.int n) (tokens (.int n)) := by
  by_cases negative : n.toInt < 0
  · intro waiting brackets _
    have begun : step ⟨waiting, brackets, .operand⟩ (.sign .minus) =
        .ok (.more ⟨waiting, brackets, .negative⟩) := rfl
    have signed : step ⟨waiting, brackets, .negative⟩ (.integer (-n)) =
        .ok (.more ⟨waiting, brackets, .complete (.int (- -n))⟩) := rfl
    rw [Int64.neg_neg] at signed
    refine ⟨_, ?_, amounts_complete⟩
    rw [tokens, if_pos negative, feed_step begun, feed_step signed, feed]
  · rw [tokens, if_neg negative]
    exact read_as_token fun _ _ => rfl

/-- A list is read up to its end. Each of its items is read where nothing waits, since the bracket
keeps apart what waits around it. -/
theorem read_as_list {items : List Expr}
    (each : ∀ item ∈ items, ReadAs item.level item (tokens item)) :
    ReadAs postfixStrength (.list items) (tokens (.list items)) := by
  intro waiting brackets _
  have opened : step ⟨waiting, brackets, .operand⟩ (.sign .leftBracket) =
      .ok (.more ⟨[], (.list [], waiting) :: brackets, .item⟩) := rfl
  refine ⟨_, ?_, amounts_complete⟩
  rw [tokens, feed_step opened]
  cases items with
  | nil => rfl
  | cons first rest =>
    obtain ⟨read, others⟩ := List.forall_mem_cons.mp each
    exact feed_series .list .list rfl (fun _ _ _ _ => rfl) (fun _ _ _ _ => rfl) waiting brackets
      read others []

section Forms

variable {of : Expr} (inner : ReadAs of.level of (tokens of))

include inner

/-- The part of an expression is read behind the dot. It is a word or a position, and what is in
front is put in parentheses unless it binds as tightly. The dot goes to the last operand alone,
which here is all that has been read. -/
theorem read_as_part {name : String} (isPart : IsPart name) :
    ReadAs postfixStrength (.attribute of name) (tokens (.attribute of name)) := by
  intro waiting brackets room
  obtain ⟨reached, fed, amounts⟩ := read_as_grouped inner postfixStrength waiting brackets room
  have stepped : reached.step (.sign .dot) = .ok (.more ⟨waiting, brackets, .member of⟩) :=
    step_tight amounts (by decide)
  have taken : step ⟨waiting, brackets, .member of⟩ (partToken name) =
      .ok (.more ⟨waiting, brackets, .complete (.attribute of name)⟩) := by
    rcases isPart with named | ⟨n, natural, rfl⟩
    · rw [part_token_name named]
      rfl
    · rw [part_token_whole natural]
      rfl
  refine ⟨_, ?_, amounts_complete⟩
  rw [tokens, feed_append fed, feed_step stepped, feed_step taken, feed]

/-- A key is read between its brackets, where nothing waits around it. What comes in front of the
brackets must be read first, as an operand that binds tightly. -/
theorem read_as_index {key : Expr} (inKey : ReadAs key.level key (tokens key)) :
    ReadAs postfixStrength (.index of key) (tokens (.index of key)) := by
  intro waiting brackets room
  obtain ⟨reached, fed, amounts⟩ := read_as_grouped inner postfixStrength waiting brackets room
  have opened : reached.step (.sign .leftBracket) =
      .ok (.more ⟨[], (.index of, waiting) :: brackets, .operand⟩) :=
    step_tight amounts (by decide)
  obtain ⟨atEnd, fedKey, amountsKey⟩ := inKey [] ((.index of, waiting) :: brackets) trivial
  have closed : atEnd.step (.sign .rightBracket) =
      .ok (.more ⟨waiting, brackets, .complete (.index of key)⟩) := step_end amountsKey rfl
  refine ⟨_, ?_, amounts_complete⟩
  rw [tokens, feed_append fed, feed_step opened, feed_append fedKey, feed_step closed, feed]

/-- A negation waits while its operand is read. A looser operand is in parentheses, so the negation
takes all of it. It is admitted because there is room for it among the operators that wait. -/
theorem read_as_not : ReadAs negationStrength (.not of) (tokens (.not of)) := by
  intro waiting brackets room
  have admitted : admitsNegation waiting = true := by
    unfold admitsNegation
    split
    · exact decide_eq_true room
    · rfl
  have begun : step ⟨waiting, brackets, .operand⟩ (.keyword .not) =
      .ok (.more ⟨.negation :: waiting, brackets, .operand⟩) := if_pos admitted
  obtain ⟨reached, fed, same, operand, held, agree⟩ :=
    read_as_grouped inner negationStrength (.negation :: waiting) brackets (Nat.le_refl _)
  refine ⟨reached, ?_, same, operand, held, ?_⟩
  · rw [tokens, feed_step begun, fed]
  · -- whoever settles up to a negation gives the operand to it first
    intro least within
    have settled : settle least of (.negation :: waiting) = settle least (.not of) waiting :=
      if_pos within
    rw [agree least within, settled]

/-- An operator takes the left operand and waits while the right one is read. The left one may bind
as tightly as the operator, and the right one must bind more tightly, which groups operators of one
strength to the left. -/
theorem read_as_binary {right : Expr} (inRight : ReadAs right.level right (tokens right))
    (op : Operator) : ReadAs op.strength (.binary op of right) (tokens (.binary op of right)) := by
  intro waiting brackets room
  obtain ⟨between, fedLeft, amounts⟩ := read_as_grouped inner op.strength waiting brackets room
  have joined := step_operator amounts room
  obtain ⟨reached, fed, same, operand, held, agree⟩ := read_as_grouped inRight (op.strength + 1)
    (.binary op of :: waiting) brackets (Nat.lt_succ_self _)
  refine ⟨reached, ?_, same, operand, held, ?_⟩
  · rw [tokens, feed_append fedLeft, feed_step joined, fed]
  · -- an operator of the same strength behind it settles this one: equal strengths group left
    intro least within
    have settled : settle least right (.binary op of :: waiting) =
        settle least (.binary op of right) waiting := if_pos within
    rw [agree least (Nat.le_succ_of_le within), settled]

/-- A filter is read with its arguments, if it has any. Without any there are no parentheses, and
the name alone is the filter. Arguments are in brackets, so each of them is read as if nothing were
around it. -/
theorem read_as_filter {arguments : List Expr}
    (each : ∀ argument ∈ arguments, ReadAs argument.level argument (tokens argument))
    (name : String) :
    ReadAs postfixStrength (.filter of name arguments) (tokens (.filter of name arguments)) := by
  intro waiting brackets room
  obtain ⟨reached, fed, amounts⟩ := read_as_grouped inner postfixStrength waiting brackets room
  have stepped : reached.step (.sign .pipe) = .ok (.more ⟨waiting, brackets, .filter of⟩) :=
    step_tight amounts (by decide)
  have named : step ⟨waiting, brackets, .filter of⟩ (.name name) =
      .ok (.more ⟨waiting, brackets, .filtered of name⟩) := rfl
  rw [tokens, feed_append fed, feed_step stepped, feed_step named]
  cases arguments with
  | nil => exact ⟨_, rfl, rfl, _, rfl, fun _ _ => rfl⟩
  | cons first rest =>
    obtain ⟨read, others⟩ := List.forall_mem_cons.mp each
    have opened : step ⟨waiting, brackets, .filtered of name⟩ (.sign .leftParen) =
        .ok (.more ⟨[], (.arguments of name [], waiting) :: brackets, .item⟩) := rfl
    refine ⟨_, ?_, amounts_complete⟩
    rw [argumentTokens, feed_step opened]
    exact feed_series (.arguments of name) (.filter of name) rfl (fun _ _ _ _ => rfl)
      (fun _ _ _ _ => rfl) waiting brackets read others []

end Forms

/-- What is written of an expression is read as the expression. The induction is on the expression,
and each of its forms has a lemma above. The level says how much room the form needs among the
operators that wait. -/
theorem read_as_tokens {e : Expr} (writable : e.Writable) : ReadAs e.level e (tokens e) := by
  induction e using expr_induction with
  | text s => exact read_as_token fun _ _ => rfl
  | int n => exact read_as_int n
  | float x => cases writable
  | bool b => cases b <;> exact read_as_token fun _ _ => rfl
  | none => exact read_as_token fun _ _ => rfl
  | list items each =>
    apply read_as_list
    intro item member
    exact each item member (writable_of_mem writable item member)
  | named name => exact read_as_token fun _ _ => rfl
  | part of name inner => exact read_as_part (inner writable.1) writable.2
  | index of key inner inKey => exact read_as_index (inner writable.1) (inKey writable.2)
  | not of inner => exact read_as_not (inner writable)
  | binary op left right inLeft inRight =>
    exact read_as_binary (inLeft writable.1) (inRight writable.2) op
  | filter of name arguments inner each =>
    apply read_as_filter (inner writable.1)
    intro argument member
    exact each argument member (writable_of_mem writable.2.2 argument member)

/-- What is written of an expression is read as the expression, up to the end of its tag. At the
start nothing waits, so there is room for all of it. -/
theorem feed_tokens {e : Expr} (writable : e.Writable) :
    ∃ reached, feed start (tokens e) = some reached ∧
      ∀ tag, reached.step (.closing tag) = .ok (.finished e) := by
  obtain ⟨reached, fed, amounts⟩ := read_as_tokens writable [] [] trivial
  exact ⟨reached, fed, fun tag => step_end amounts rfl⟩

end Reading

end Stencil.Expr
