import Stencil.Expr.Basic
import Stencil.Token.Wanted

/-!
# Reading expressions

An expression is read token by token. What has been read is kept as operators that wait
for their right operand, within brackets that wait for their end, and a stage that says
what the next token may be. An operand is given to the waiting operators that bind at
least as tightly as the operator behind it, so equal strengths group to the left; a
bracket or the end of the expression gives it to all of them. Every token makes one step,
and which tokens fit depends on what has been read before and on nothing behind.
-/

namespace Stencil.Expr

open Token (Kind Wanted)

/-- An operator that waits for its operand on the right. A binary one has its left operand
already. -/
inductive Waiting where
  | negation
  | binary (op : Operator) (left : Expr)

/-- A bracket that waits for its end, with what has been read of it so far. The operators around it
wait with it. -/
inductive Bracket where
  | group
  /-- The key of a step into `of`. -/
  | index (of : Expr)
  /-- A list with the items before the current one. -/
  | list (items : List Expr)
  /-- The arguments of a filter before the current one. -/
  | arguments (of : Expr) (named : String) (arguments : List Expr)

/-- What the next token may be. It tells what has just been read, where more than an operator may
follow. -/
inductive Stage where
  /-- The start of an operand. -/
  | operand
  /-- The start of an operand, or the end of the list it would be in. -/
  | item
  /-- The digits behind a minus sign. -/
  | negative
  /-- The name of a part of `of`. -/
  | member (of : Expr)
  /-- The name of a filter for `of`. -/
  | filter (of : Expr)
  /-- As `complete`, or the arguments of a filter whose name was just read. -/
  | filtered (of : Expr) (named : String)
  /-- Anything that goes on from, or ends, the operand `e`. -/
  | complete (e : Expr)

/-- An expression that is being read. The operand at hand is in the stage, and everything around it
waits in the other two fields. -/
structure Reading where
  /-- Operators of the innermost bracket, the last one first. -/
  waiting : List Waiting
  /-- Open brackets, the innermost first, each with the operators around it. -/
  brackets : List (Bracket × List Waiting)
  stage : Stage

namespace Reading

/-- Nothing is read yet. An expression begins with an operand. -/
def start : Reading := ⟨[], [], .operand⟩

/-- What one token leads to. An expression has no sign at its end, so it ends at the first token
that cannot go on with it. -/
inductive Progress where
  | more (reading : Reading)
  /-- The expression ended before the token. -/
  | finished (e : Expr)

/-- Give an operand to the waiting operators that bind with at least `strength`, from the innermost
outward, and stop at the first that binds less tightly. -/
def settle (strength : Nat) : Expr → List Waiting → Expr × List Waiting
  | e, .negation :: outer =>
    if strength ≤ negationStrength then settle strength (.not e) outer else (e, .negation :: outer)
  | e, .binary op left :: outer =>
    if strength ≤ op.strength then settle strength (.binary op left e) outer
    else (e, .binary op left :: outer)
  | e, [] => (e, [])

/-- Give an operand to all waiting operators, as the end of a bracket or of the expression does. The
innermost one takes it first. -/
def collapse : Expr → List Waiting → Expr
  | e, .negation :: outer => collapse (.not e) outer
  | e, .binary op left :: outer => collapse (.binary op left e) outer
  | e, [] => e

/-- Whether a negation may start here: not as an operand of something tighter, for which it would
need parentheses. -/
def admitsNegation : List Waiting → Bool
  | .binary op _ :: _ => op.strength < negationStrength
  | _ => true

/-- The operator that a token stands for. The sign of a negative number is none. -/
def operator? : Kind → Option Operator
  | .keyword .or => some .or
  | .keyword .and => some .and
  | .sign .equal => some .equal
  | .sign .unequal => some .unequal
  | .sign .plus => some .plus
  | _ => Option.none

/-- Start an operand: a constant, a name, a sign that a number follows, a bracket or a negation. A
bracket sets the waiting operators aside until its end. A negation is admitted only where no
operator waits that binds more tightly. -/
def startOperand (waiting : List Waiting) (brackets : List (Bracket × List Waiting))
    (kind : Kind) : Except Wanted Progress :=
  let complete (e : Expr) := .ok (.more ⟨waiting, brackets, .complete e⟩)
  match kind with
  | .string s => complete (.text s)
  | .integer n => complete (.int n)
  | .decimal x => complete (.float x)
  | .keyword .true => complete (.bool true)
  | .keyword .false => complete (.bool false)
  | .keyword .none => complete .none
  | .name s => complete (.variable s)
  | .sign .minus => .ok (.more ⟨waiting, brackets, .negative⟩)
  | .sign .leftBracket => .ok (.more ⟨[], (.list [], waiting) :: brackets, .item⟩)
  | .sign .leftParen => .ok (.more ⟨[], (.group, waiting) :: brackets, .operand⟩)
  | .keyword .not =>
    if admitsNegation waiting then .ok (.more ⟨.negation :: waiting, brackets, .operand⟩)
    else .error .expression
  | _ => .error .expression

/-- End a list that has no further item, if the token is its end; else start an item. So a comma may
stand behind the last item. -/
def startItem (waiting : List Waiting) (brackets : List (Bracket × List Waiting))
    (kind : Kind) : Except Wanted Progress :=
  match brackets, kind with
  | (.list items, outer) :: rest, .sign .rightBracket =>
    .ok (.more ⟨outer, rest, .complete (.list items)⟩)
  | (.arguments of named arguments, outer) :: rest, .sign .rightParen =>
    .ok (.more ⟨outer, rest, .complete (.filter of named arguments)⟩)
  | brackets, kind => startOperand waiting brackets kind

/-- End an operand at a token that does not extend it. All waiting operators get it, and what it is
then depends on the bracket it is in; outside of brackets the expression ends with it. -/
def endOperand (e : Expr) (brackets : List (Bracket × List Waiting)) (kind : Kind) :
    Except Wanted Progress :=
  match brackets with
  | [] => .ok (.finished e)
  | (.group, outer) :: rest =>
    if kind = .sign .rightParen then .ok (.more ⟨outer, rest, .complete e⟩)
    else .error (.token (.sign .rightParen))
  | (.index of, outer) :: rest =>
    if kind = .sign .rightBracket then .ok (.more ⟨outer, rest, .complete (.index of e)⟩)
    else .error (.token (.sign .rightBracket))
  | (.list items, outer) :: rest =>
    if kind = .sign .comma then .ok (.more ⟨[], (.list (items ++ [e]), outer) :: rest, .item⟩)
    else if kind = .sign .rightBracket then
      .ok (.more ⟨outer, rest, .complete (.list (items ++ [e]))⟩)
    else .error (.separator .rightBracket)
  | (.arguments of named arguments, outer) :: rest =>
    if kind = .sign .comma then
      .ok (.more ⟨[], (.arguments of named (arguments ++ [e]), outer) :: rest, .item⟩)
    else if kind = .sign .rightParen then
      .ok (.more ⟨outer, rest, .complete (.filter of named (arguments ++ [e]))⟩)
    else .error (.separator .rightParen)

/-- Go on behind the operand `e`: step into it, filter it, put an operator behind it, or
end it. -/
def extend (waiting : List Waiting) (brackets : List (Bracket × List Waiting)) (e : Expr)
    (kind : Kind) : Except Wanted Progress :=
  match kind with
  | .sign .dot => .ok (.more ⟨waiting, brackets, .member e⟩)
  | .sign .leftBracket => .ok (.more ⟨[], (.index e, waiting) :: brackets, .operand⟩)
  | .sign .pipe => .ok (.more ⟨waiting, brackets, .filter e⟩)
  | kind =>
    match operator? kind with
    | some op =>
      let (left, outer) := settle op.strength e waiting
      .ok (.more ⟨.binary op left :: outer, brackets, .operand⟩)
    | Option.none => endOperand (collapse e waiting) brackets kind

/-- Read one token. Which tokens fit is decided by the stage, and a refusal says what would have
fitted. Digits behind a dot are a name as well, written in the shortest way. -/
def step (reading : Reading) (kind : Kind) : Except Wanted Progress :=
  let ⟨waiting, brackets, stage⟩ := reading
  match stage with
  | .operand => startOperand waiting brackets kind
  | .item => startItem waiting brackets kind
  | .negative =>
    match kind with
    | .integer n => .ok (.more ⟨waiting, brackets, .complete (.int (-n))⟩)
    | .decimal x => .ok (.more ⟨waiting, brackets, .complete (.float (-x))⟩)
    | _ => .error .number
  | .member of =>
    match kind with
    | .name name => .ok (.more ⟨waiting, brackets, .complete (.attribute of name)⟩)
    | .integer n =>
      .ok (.more ⟨waiting, brackets, .complete (.attribute of (Number.wholeText n))⟩)
    | _ => .error .attribute
  | .filter of =>
    match kind with
    | .name name => .ok (.more ⟨waiting, brackets, .filtered of name⟩)
    | _ => .error .filter
  | .filtered of named =>
    if kind = .sign .leftParen then
      .ok (.more ⟨[], (.arguments of named [], waiting) :: brackets, .item⟩)
    else extend waiting brackets (.filter of named []) kind
  | .complete e => extend waiting brackets e kind

end Reading

end Stencil.Expr
