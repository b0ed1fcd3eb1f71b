import Stencil.Text.Blank
import Stencil.Text.Letter
import Stencil.Token.Basic

/-!
# The pieces of a source

A source falls into pieces, tokens and gaps, that follow each other without loss: put
together again they are the source. Which piece comes next depends on where it starts:
outside tags everything up to the next marker is one text, inside a tag blanks are gaps
and words, numbers, quoted texts and signs are tokens. A piece is taken off the front of
what is left with at least one character, so cutting ends with the source.
-/

namespace Stencil.Token

/-- Why a stretch of source belongs to no token. The three reasons are told apart, since they may
stand in different places. -/
inductive Gap where
  /-- Blanks inside a tag. -/
  | blank
  | comment
  /-- The line end behind a statement tag, where it is to be dropped. -/
  | lineEnd
deriving DecidableEq, Repr

/-- A token with its text, or a gap. The text is kept with both, so that nothing of the source is
lost. -/
inductive Piece where
  | token (kind : Kind) (text : List Char)
  | gap (gap : Gap) (text : List Char)
deriving DecidableEq

/-- The text of a piece. The texts of all pieces put together are the source. -/
def Piece.text : Piece → List Char
  | .token _ text => text
  | .gap _ text => text

/-- What decides how the next piece is read. -/
inductive Mode where
  /-- Outside tags. A line end that comes first is dropped if `trimming` is set. -/
  | text (trimming : Bool)
  /-- Inside a tag. Digits right after a dot are a whole number, so that a path such as
  `rows.0.1` has no fraction in it. -/
  | tag (tag : Tag) (afterDot : Bool)
deriving DecidableEq

/-- One piece, given by the number of characters that follow its first one, and the mode
behind it; or the fault that all the rest amounts to. -/
inductive Step where
  | token (kind : Kind) (more : Nat) (next : Mode)
  | gap (gap : Gap) (more : Nat) (next : Mode)
  | fault (f : Fault)

/-- Whether a character and those behind it start a tag or a comment. Two characters decide, and
what follows them does not matter. -/
def startsMarker : Char → List Char → Bool
  | '{', '%' :: _ | '{', '{' :: _ | '{', '#' :: _ => true
  | _, _ => false

/-- The number of characters before the next marker, or all of them if there is none. A brace that
begins no marker is a character like all others. -/
def untilMarker : List Char → Nat
  | [] => 0
  | c :: rest => if startsMarker c rest then 0 else untilMarker rest + 1

/-- The number of characters through the first end of a comment, counted from where the search
begins. -/
def throughCommentEnd : List Char → Option Nat
  | [] => none
  | '#' :: '}' :: _ => some 2
  | _ :: rest => (throughCommentEnd rest).map (· + 1)

/-- The piece at the front of text outside tags. A line end to be dropped comes first of all, then
the three markers, and what begins with none of these is a text up to the next marker. -/
def textStep (trimming : Bool) (c : Char) (rest : List Char) : Step :=
  match trimming, c, rest with
  | true, '\n', _ => .gap .lineEnd 0 (.text false)
  | true, '\r', '\n' :: _ => .gap .lineEnd 1 (.text false)
  | _, '{', '%' :: _ => .token (.opening .statement) 1 (.tag .statement false)
  | _, '{', '{' :: _ => .token (.opening .output) 1 (.tag .output false)
  | _, '{', '#' :: _ =>
    match throughCommentEnd rest with
    | some more => .gap .comment more (.text false)
    | none => .fault .openComment
  | _, c, rest =>
    let more := untilMarker rest
    .token (.text (String.ofList (c :: rest.take more))) more (.text false)

/-- The sign that starts with `c`, and the number of its further characters. An equals sign or an
exclamation mark alone is no sign. -/
def sign? : Char → List Char → Option (Sign × Nat)
  | '=', '=' :: _ => some (.equal, 1)
  | '!', '=' :: _ => some (.unequal, 1)
  | '+', _ => some (.plus, 0)
  | '-', _ => some (.minus, 0)
  | '.', _ => some (.dot, 0)
  | ',', _ => some (.comma, 0)
  | '|', _ => some (.pipe, 0)
  | '[', _ => some (.leftBracket, 0)
  | ']', _ => some (.rightBracket, 0)
  | '(', _ => some (.leftParen, 0)
  | ')', _ => some (.rightParen, 0)
  | _, _ => none

/-- What a character behind a backslash stands for: two letters have a meaning, and every other
character stands for itself. -/
def unescape : Char → Char
  | 'n' => '\n'
  | 't' => '\t'
  | c => c

/-- The text up to the closing quotation mark, and the number of characters through it. A backslash
takes the next character with it, whichever it is, so an escaped mark does not end the text. -/
def quoted (quote : Char) : List Char → Option (List Char × Nat)
  | [] => none
  | c :: rest =>
    if c = quote then some ([], 1)
    else if c = '\\' then
      match rest with
      | [] => none
      | escaped :: behind =>
        (quoted quote behind).map fun (text, more) => (unescape escaped :: text, more + 2)
    else (quoted quote rest).map fun (text, more) => (c :: text, more + 1)

/-- The digits of the fraction that follows, if one does: a point with a digit behind it. A point
alone is left to the path that it may belong to. -/
def fraction? : List Char → Option (List Char)
  | '.' :: rest =>
    let digits := rest.takeWhile Char.isDigit
    if digits.isEmpty then none else some digits
  | _ => none

/-- The number that starts with the digit `c`. With a fraction it is a decimal, and without one it
must have no more than 64 bits. -/
def numberStep (tag : Tag) (afterDot : Bool) (c : Char) (rest : List Char) : Step :=
  let digits := rest.takeWhile Char.isDigit
  let behind := rest.dropWhile Char.isDigit
  match if afterDot then none else fraction? behind with
  | some places =>
    let value := Float.ofScientific (Nat.ofDigitChars 10 (c :: digits ++ places) 0) true places.length
    .token (.decimal value) (digits.length + 1 + places.length) (.tag tag false)
  | none =>
    match Number.whole? (Nat.ofDigitChars 10 (c :: digits) 0) with
    | some n => .token (.integer n) digits.length (.tag tag false)
    | none => .fault (.tooLarge (String.ofList (c :: digits)))

/-- The word that starts with `c`: a keyword or a name. It is taken as far as it goes, so no keyword
is cut off the front of a longer word. -/
def wordStep (tag : Tag) (c : Char) (rest : List Char) : Step :=
  let tail := rest.takeWhile Text.continuesWord
  let word := String.ofList (c :: tail)
  match Keyword.ofWord? word with
  | some k => .token (.keyword k) tail.length (.tag tag false)
  | none => .token (.name word) tail.length (.tag tag false)

/-- The piece at the front of what is left of a tag. Either end of a tag closes it,
whichever way it was opened. -/
def tagStep (trim : Bool) (tag : Tag) (afterDot : Bool) (c : Char) (rest : List Char) : Step :=
  if Text.isBlank c then
    .gap .blank (rest.takeWhile Text.isBlank).length (.tag tag afterDot)
  else
    match c, rest with
    | '%', '}' :: _ => .token (.closing .statement) 1 (.text trim)
    | '}', '}' :: _ => .token (.closing .output) 1 (.text false)
    | c, rest =>
      match sign? c rest with
      | some (sign, more) => .token (.sign sign) more (.tag tag (sign == .dot))
      | none =>
        if c = '\'' ∨ c = '"' then
          match quoted c rest with
          | some (text, more) => .token (.string (String.ofList text)) more (.tag tag false)
          | none => .fault .openString
        else if c.isDigit then numberStep tag afterDot c rest
        else if Text.startsWord c then wordStep tag c rest
        else .fault (.stray c)

/-- The piece at the front of a source that has at least one character left, as the mode has it. -/
def step (trim : Bool) : Mode → Char → List Char → Step
  | .text trimming, c, rest => textStep trimming c rest
  | .tag tag afterDot, c, rest => tagStep trim tag afterDot c rest

/-- All pieces of a source, from the given mode on. With `trim` set, a line end right
behind a statement tag is a gap. -/
def pieces (trim : Bool) : Mode → List Char → List Piece
  | .text _, [] => []
  | .tag tag _, [] => [.token (.fault (.openTag tag)) []]
  | mode, c :: rest =>
    match step trim mode c rest with
    | .token kind more next =>
      .token kind (c :: rest.take more) :: pieces trim next (rest.drop more)
    | .gap gap more next => .gap gap (c :: rest.take more) :: pieces trim next (rest.drop more)
    | .fault f => [.token (.fault f) (c :: rest)]
termination_by _ source => source.length
decreasing_by all_goals simp only [List.length_drop, List.length_cons]; omega

/-- Nothing is lost: the texts of the pieces make up the source. The induction is that of cutting it
into pieces. -/
theorem flatMap_text_pieces (trim : Bool) (mode : Mode) (source : List Char) :
    (pieces trim mode source).flatMap Piece.text = source := by
  fun_induction pieces trim mode source with
  | case1 => rfl
  | case2 => rfl
  | case3 mode c rest kind more next _ inductionHypothesis => simp [Piece.text, inductionHypothesis]
  | case4 mode c rest gap more next _ inductionHypothesis => simp [Piece.text, inductionHypothesis]
  | case5 => simp [Piece.text]

end Stencil.Token
