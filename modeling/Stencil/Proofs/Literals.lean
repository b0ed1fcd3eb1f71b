import Stencil.Proofs.Places
import Stencil.Proofs.Sources

/-!
# Texts in tags

Any text can stand in a tag between marks, if each backslash and each mark of the kind that is
around it gets a backslash in front. Line feeds and tabs may be written as letters behind a
backslash, here and there or everywhere. What would end the tag or begin another one means nothing
between the marks: the scan for the end of the text comes first, and it ends at the first mark that
no backslash stands in front of. So the tag has the text as its only token, and puts it out as
markup.
-/

namespace Stencil

/-- A text between its marks, as it is written with letters for some of the line feeds and tabs.
Which of them is asked position by position. -/
def Quote.literal (quote : Quote) (short : Nat → Bool) (text : String) : List Char :=
  quote.mark :: (quote.encode short text.toList ++ [quote.mark])

namespace Token

variable (trim : Bool) (quote : Quote) (short : Nat → Bool) (text : String)

/-- A text between its marks is read as one token, whatever stands behind it. The scan for its end
stops at the mark that no backslash stands in front of, and takes every escape for the character
that it stands for. -/
theorem pieces_literal (tag : Tag) (afterDot : Bool) (rest : List Char) :
    pieces trim (.tag tag afterDot) (quote.literal short text ++ rest) =
      .token (.string text) (quote.literal short text) :: pieces trim (.tag tag false) rest := by
  have length : (quote.encode short text.toList ++ [quote.mark]).length =
      (quote.encode short text.toList).length + 1 := by
    rw [List.length_append, List.length_singleton]
  have read : step trim (.tag tag afterDot) quote.mark
      (quote.encode short text.toList ++ [quote.mark] ++ rest) =
        .token (.string text) (quote.encode short text.toList ++ [quote.mark]).length
          (.tag tag false) := by
    have whole := tagStep_quoted trim tag afterDot quote
      (quoted_encode quote short text.toList rest)
    rw [String.ofList_toList] at whole
    rw [length, List.append_assoc, List.singleton_append]
    exact whole
  rw [Quote.literal, List.cons_append, pieces_of_token read, List.take_left, List.drop_left]

/-- A tag with a text in it has five pieces, of which three are tokens. -/
theorem pieces_literal_tag :
    pieces trim (.text false) ('{' :: '{' :: ' ' :: (quote.literal short text ++ [' ', '}', '}'])) =
      [.token (.opening .output) ['{', '{'], .gap .blank [' '],
        .token (.string text) (quote.literal short text), .gap .blank [' '],
        .token (.closing .output) ['}', '}']] := by
  have unblank : Unblank (quote.literal short text ++ [' ', '}', '}']) :=
    ⟨quote.mark, _, rfl, by cases quote <;> decide⟩
  rw [pieces_opened trim unblank, pieces_literal, pieces_closed]

end Token

section Sources

variable (quote : Quote) (short : Nat → Bool) (text : String)

/-- The source of a tag with a text in it. A blank stands on either side of it, inside the marks of
the tag; `short` says at which positions a letter is written for a line feed or a tab. -/
def Quote.tag : String :=
  "\x7b\x7b " ++ String.ofList (quote.literal short text) ++ " \x7d\x7d"

/-- The characters of such a tag, with its two blanks. -/
theorem tag_parts : (quote.tag short text).toList =
    '{' :: '{' :: ' ' :: (quote.literal short text ++ [' ', '}', '}']) := by
  simp [Quote.tag, String.toList_append]

/-- The text is the only token between the ends of the tag, and it covers what is written from mark
to mark. -/
theorem tokens_tag (trim : Bool) : ∃ opening inner closing : Token,
    (Token.Stream.ofSource trim (quote.tag short text)).tokens = [opening, inner, closing] ∧
      opening.kind = .opening .output ∧ inner.kind = .string text ∧
      closing.kind = .closing .output ∧
      inner.Covers ['{', '{', ' '] (quote.literal short text) := by
  rw [Token.Stream.ofSource, tag_parts, Token.pieces_literal_tag]
  refine ⟨_, _, _, rfl, rfl, rfl, rfl, Place.past_first ['{', '{', ' '], ?_⟩
  show ((Place.first.past ['{', '{', ' ']).past (quote.literal short text)).offset = _
  rw [← Place.past_append, Place.past_first]
  rfl

end Sources

/-- Texts in tags can be any texts. Whatever the text is, which of the two marks it stands between
and which of its line feeds and tabs are written as letters, the tag has three tokens: its start,
the text, which covers what is written from mark to mark, and its end. The tag is rendered as the
markup of the text, whatever the variables are. -/
theorem literals_carry_any_text (text : String) (quote : Quote) (short : Nat → Bool) :
    let literal := String.ofList (quote.literal short text)
    let source := "\x7b\x7b " ++ literal ++ " \x7d\x7d"
    (∀ trim, ∃ opening inner closing : Token,
      (Token.Stream.ofSource trim source).tokens = [opening, inner, closing] ∧
        opening.kind = .opening .output ∧ inner.kind = .string text ∧
        closing.kind = .closing .output ∧ inner.raw source = literal) ∧
    ∀ bindings, renderText source bindings = .ok (Text.Markup.escape text) := by
  intro literal source
  refine ⟨fun trim => ?_, fun bindings => ?_⟩
  · obtain ⟨opening, inner, closing, tokens, starts, carries, ends, covers⟩ :=
      tokens_tag quote short text trim
    exact ⟨opening, inner, closing, tokens, starts, carries, ends,
      covers.raw (tag_parts quote short text)⟩
  · obtain ⟨opening, inner, closing, tokens, starts, carries, ends, -⟩ :=
      tokens_tag quote short text false
    have kinds : (Token.Stream.ofSource false source).tokens.map Token.kind =
        .opening .output :: ((Expr.text text).tokens ++ [.closing .output]) := by
      rw [show (Token.Stream.ofSource false source).tokens = _ from tokens, List.map_cons,
        List.map_cons, List.map_singleton, starts, carries, ends]
      rfl
    have writable : (Expr.text text).Writable := by
      rw [Expr.Writable]
      trivial
    obtain ⟨scope, -, rendered⟩ := renderText_output writable kinds bindings
    exact rendered

/-- The end of a tag, a mark, and two line feeds of which only the second is a letter. -/
example : String.ofList (Quote.single.literal (· == 5) "\x7d\x7d'\n\\\n") =
    "'\x7d\x7d\\'\n\\\\\\n'" := rfl

end Stencil
