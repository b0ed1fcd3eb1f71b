import Mathlib.Data.List.Infix
import Stencil.Proofs.Gaps
import Stencil.Proofs.Refusals
import Stencil.Proofs.Sources

/-!
# Comments

A comment goes up to the first end of a comment that is found from the sign in its beginning on.
That sign may be a part of the end: a brace right behind the beginning of a comment ends it at once.
Any other comment goes from its beginning to the end that is written for it, whatever braces and
signs are in it, and is not seen in the output; what stands around it is put out as it is. A comment
without an end is refused where it begins.
-/

namespace Stencil

namespace Token

section Reading

variable {body : List Char}

/-- The end of a comment is found where it is written, if there is none before. Only the sign that
the end begins with can be taken for the end of what stands in front of it, and no brace follows
there. -/
theorem comment_closed (closed : ¬['#', '}'] <:+: body) (rest : List Char) :
    throughCommentEnd (body ++ '#' :: '}' :: rest) = some (body.length + 2) := by
  induction body with
  | nil => rfl
  | cons c later inductionHypothesis =>
    have apart : ∀ behind, c = '#' → later ++ '#' :: '}' :: rest = '}' :: behind → False := by
      rintro behind rfl ends
      cases later with
      | nil => cases ends
      | cons d others =>
        obtain ⟨rfl, -⟩ := List.cons.inj ends
        exact closed ⟨[], others, rfl⟩
    have goesOn := inductionHypothesis fun inside => closed (List.infix_cons inside)
    rw [List.cons_append, throughCommentEnd.eq_3 c _ apart, goesOn]
    rfl

/-- Where there is no end of a comment none is found. The induction is on the text. -/
theorem comment_unclosed (closed : ¬['#', '}'] <:+: body) : throughCommentEnd body = none := by
  cases found : throughCommentEnd body with
  | none => rfl
  | some more =>
    obtain ⟨ends, -⟩ := comment_end found
    exact absurd (ends.isInfix.trans (List.take_prefix more body).isInfix) closed

/-- What a text without markers is as pieces: one of them, or none if the text is empty. The scanner
makes no token for an empty text. -/
def textPieces (text : List Char) : List Piece :=
  if text = [] then [] else [.token (.text (String.ofList text)) text]

/-- A text without markers is one piece, or none if it is empty. What comes behind may begin with a
marker, but must not make one with the end of the text. -/
theorem pieces_text {text rest : List Char} (unmarked : ∀ marker ∈ markers, ¬marker <:+: text)
    (ended : rest = [] ∨ ¬['{'] <:+ text) (ends : Ends rest = true) :
    pieces false (.text false) (text ++ rest) =
      textPieces text ++ pieces false (.text false) rest := by
  cases text with
  | nil => rfl
  | cons c later =>
    have read : step false (.text false) c (later ++ rest) = _ :=
      textStep_unmarked unmarked ended ends
    rw [List.cons_append, pieces_of_token read, List.take_left, List.drop_left]
    rfl

/-- The end of a comment is looked for from the sign in its beginning on. -/
theorem step_comment (behind : List Char) :
    step false (.text false) '{' ('#' :: behind) =
      match throughCommentEnd ('#' :: behind) with
      | some more => .gap .comment more (.text false)
      | none => .fault .openComment := rfl

/-- A comment is one gap, whatever follows it: the comment that is read there begins where it does,
and no other comment does. So the scanner, which looks for an end, finds the end of this one and not
a later one. -/
theorem pieces_comment {comment : List Char} (isComment : IsComment comment)
    (rest : List Char) : pieces false (.text false) (comment ++ rest) =
      .gap .comment comment :: pieces false (.text false) rest := by
  obtain ⟨behind, rfl⟩ := isComment.begins
  have read := step_comment (behind ++ rest)
  cases found : throughCommentEnd ('#' :: (behind ++ rest)) with
  | none =>
    have ends : ['#', '}'] <:+: '{' :: '#' :: (behind ++ rest) :=
      isComment.ends.isInfix.trans (List.prefix_append _ rest).isInfix
    rcases List.infix_cons_iff.mp ends with front | inside
    · cases (List.cons_prefix_cons.mp front).1
    · exact absurd inside (comment_endless found)
  | some more =>
    -- Up to the end that is found there is a comment as well, and it begins at the same place.
    have same : '{' :: '#' :: behind = '{' :: ('#' :: (behind ++ rest)).take more :=
      comment_unique isComment (comment_read found) (List.prefix_append _ rest)
        (List.cons_prefix_cons.mpr ⟨rfl, List.take_prefix more _⟩)
    have taken : ('#' :: (behind ++ rest)).take more = '#' :: behind := (List.cons.inj same).2.symm
    have whole := List.take_append_drop more ('#' :: (behind ++ rest))
    rw [taken] at whole
    have left : ('#' :: (behind ++ rest)).drop more = rest :=
      List.append_cancel_left (show '#' :: behind ++ _ = '#' :: behind ++ rest from whole)
    rw [found] at read
    show pieces false (.text false) ('{' :: '#' :: (behind ++ rest)) = _
    rw [pieces_of_gap read, taken, left]
    rfl

/-- What is written as a comment is one, unless the sign in its beginning or what it says ends it
early. -/
theorem isComment_written (closed : ¬['#', '}'] <:+: '#' :: body) :
    IsComment ('{' :: '#' :: body ++ ['#', '}']) := by
  have isRead : IsComment ('{' :: ('#' :: (body ++ ['#', '}'])).take _) :=
    comment_read (comment_closed closed [])
  rwa [List.take_of_length_le (by simp)] at isRead

/-- A comment without an end is a fault, which covers the rest of the source. -/
theorem pieces_open_comment (closed : ¬['#', '}'] <:+: '#' :: body) :
    pieces false (.text false) ('{' :: '#' :: body) =
      [.token (.fault .openComment) ('{' :: '#' :: body)] := by
  have read := step_comment body
  rw [comment_unclosed closed] at read
  exact pieces_of_fault read

/-- The texts of a source are its pieces without a gap, as far as there is anything in them. -/
theorem kinds_textPieces (text : String) :
    (textPieces text.toList).filterMap Piece.kind? = ([text].filter (· ≠ "")).map .text := by
  by_cases empty : text = ""
  · subst empty
    rfl
  · have filled : text.toList ≠ [] := fun none => empty (String.toList_eq_nil_iff.mp none)
    simp [textPieces, filled, empty, Piece.kind?]

/-- The pieces of a text have the text in them. -/
theorem text_textPieces (text : List Char) : (textPieces text).flatMap Piece.text = text := by
  cases text with
  | nil => rfl
  | cons c rest => exact List.append_nil (c :: rest)

end Reading

end Token

namespace Template

open Token (Kind Stream)

/-- Texts are read as nodes, each behind the nodes that there are. The induction is on the texts. -/
theorem Reading.leads_texts (reading : Reading) (content : reading.stage = .content)
    (texts : List String) : reading.Leads (texts.map .text)
      (· = { reading with nodes := reading.nodes ++ texts.map .text }) := by
  induction texts generalizing reading with
  | nil => exact leads_nil (by simp)
  | cons text rest inductionHypothesis =>
    have fits (start : Place) (stop : Nat) :
        reading.next ⟨.text text, start, stop⟩ = .ok (reading.add (.text text)) := by
      unfold next
      rw [content]
    refine leads_step fits (leads_imp (inductionHypothesis _ rfl) ?_)
    rintro reached rfl
    simp [add, content]

/-- A source of texts is read as its texts, whatever it is called. -/
theorem nodes_of_texts {trim : Bool} {source : String} {texts : List String}
    (kinds : (Stream.ofSource trim source).tokens.map Token.kind = texts.map .text)
    (name : Option String) : nodesOfSource name trim source = .ok (texts.map .text) := by
  obtain ⟨reached, ran, rfl⟩ := Reading.leads_texts (.start name) rfl texts _ kinds
  exact nodesOfSource_ok.mpr ⟨_, ran, rfl⟩

end Template

section Texts

variable {source : String} {texts : List String}

/-- Texts say themselves, one behind the other, and need neither a scope nor anything embedded.
Whether escaping is on makes no difference, since texts of a template are never escaped. -/
theorem say_texts (embed : Scope → String → Except Fault String) (escaping : Bool)
    (texts : List String) (scope : Scope) :
    sayBody embed escaping (texts.map .text) scope = .ok (String.join texts) := by
  induction texts with
  | nil => rfl
  | cons text rest inductionHypothesis =>
    rw [List.map_cons, sayBody, sayNode, inductionHypothesis, String.join_cons]
    rfl

/-- A source that is read as texts is rendered as these texts, whatever the variables are. Texts are
leaves, so nothing of an engine takes part in it. -/
theorem renderText_texts
    (read : Template.nodesOfSource (some "<string>") false source = .ok (texts.map .text))
    (bindings : Layer) : renderText source bindings = .ok (String.join texts) := by
  have leaves : ∀ node ∈ texts.map Node.text, node.IsLeaf := by
    intro node member
    obtain ⟨text, -, rfl⟩ := List.mem_map.mp member
    trivial
  obtain ⟨embed, scope, -, rendered⟩ := renderText_leaves leaves read bindings
  rw [rendered, say_texts]

end Texts

section Around

open Token (markers pieces textPieces Stream)

variable {before body behind : String}

/-- A comment is gone, and the texts around it are what is read. The premises say that no marker
begins in the texts; a brace at the end of the first one would make a marker with the comment. -/
theorem kinds_around {comment : String} (isComment : Token.IsComment comment.toList)
    (unmarked : ∀ marker ∈ markers, ¬marker <:+: before.toList) (ended : ¬['{'] <:+ before.toList)
    (unmarkedBehind : ∀ marker ∈ markers, ¬marker <:+: behind.toList) :
    (Stream.ofSource false (before ++ comment ++ behind)).tokens.map Token.kind =
      ([before, behind].filter (· ≠ "")).map .text := by
  have last := Token.pieces_text unmarkedBehind (.inl rfl) rfl
  rw [List.append_nil, pieces, List.append_nil] at last
  have ends : Token.Ends (comment.toList ++ behind.toList) = true := by
    obtain ⟨inside, begins⟩ := isComment.begins
    rw [← begins]
    rfl
  rw [Stream.ofSource, Token.kinds_tokensFrom, String.toList_append, String.toList_append,
    List.append_assoc, Token.pieces_text unmarked (.inr ended) ends,
    Token.pieces_comment isComment, last, List.filterMap_append, Token.kinds_textPieces]
  show _ ++ (textPieces behind.toList).filterMap Token.Piece.kind? = _
  rw [Token.kinds_textPieces, ← List.map_append, ← List.filter_append]
  rfl

/-- A comment without an end is the first token that does not fit. The refusal has the place behind
the text in front, which is where the comment begins. The premises say that nothing in front is a
marker, or makes one together with what is behind it. -/
theorem refused_open (unmarked : ∀ marker ∈ markers, ¬marker <:+: before.toList)
    (ended : ¬['{'] <:+ before.toList) (closed : ¬['#', '}'] <:+: '#' :: body.toList)
    (name : Option String) :
    Template.nodesOfSource name false (before ++ "\x7b#" ++ body) =
      .error ⟨.fault .openComment, (Place.behind before.toList).line,
        (Place.behind before.toList).column⟩ := by
  have parts : (before ++ "\x7b#" ++ body).toList =
      before.toList ++ '{' :: '#' :: body.toList := by
    simp [String.toList_append]
  have tokens : (Stream.ofSource false (before ++ "\x7b#" ++ body)).tokens =
      Token.tokensFrom .first (textPieces before.toList) ++
        [⟨.fault .openComment, .behind before.toList,
          ((Place.behind before.toList).past ('{' :: '#' :: body.toList)).offset⟩] := by
    rw [Stream.ofSource, parts, Token.pieces_text unmarked (.inr ended) rfl,
      Token.pieces_open_comment closed, Token.tokensFrom_append, Token.text_textPieces,
      Place.past_first]
    rfl
  have kinds : (Token.tokensFrom .first (textPieces before.toList)).map Token.kind =
      ([before].filter (· ≠ "")).map .text := by
    rw [Token.kinds_tokensFrom, Token.kinds_textPieces]
  obtain ⟨between, ran, -⟩ := Template.Reading.leads_texts (.start name) rfl _ _ kinds
  exact Template.refused_of_misfit tokens ran (Template.Reading.next_fault rfl)

/-- A comment is not seen in what is put out: the two texts come one behind the other. Where one of
them is empty there is no token for it, which makes four cases. -/
theorem render_around {comment : String} (isComment : Token.IsComment comment.toList)
    (unmarked : ∀ marker ∈ markers, ¬marker <:+: before.toList) (ended : ¬['{'] <:+ before.toList)
    (unmarkedBehind : ∀ marker ∈ markers, ¬marker <:+: behind.toList) (bindings : Layer) :
    renderText (before ++ comment ++ behind) bindings = .ok (before ++ behind) := by
  have kinds := kinds_around isComment unmarked ended unmarkedBehind
  have texts : String.join ([before, behind].filter (· ≠ "")) = before ++ behind := by
    by_cases empty : before = "" <;> by_cases emptyBehind : behind = "" <;>
      simp [empty, emptyBehind, String.join_cons]
  rw [renderText_texts (Template.nodes_of_texts kinds _), texts]

end Around

/-- A brace right behind the beginning of a comment ends it. The sign in the beginning is taken for
the sign in the end. -/
theorem isComment_brace : Token.IsComment "\x7b#\x7d".toList :=
  Token.comment_read (show Token.throughCommentEnd ['#', '}'] = some 2 from rfl)

/-- Comments vanish. Between texts in which no tag or comment begins, also not with what comes
behind them, a comment is put out as nothing and the texts as they are, whatever the variables are.
What it says may be anything that has no end of a comment in it and does not begin with a brace.
Without its end such a comment is refused at its beginning. A brace right behind the beginning is
taken for the end, of which the sign in the beginning is the other part: the comment is over with
it, and what follows is put out. -/
theorem comments_vanish {before behind body : String}
    (unmarked : ∀ marker ∈ Token.markers, ¬marker <:+: before.toList)
    (ended : ¬['{'] <:+ before.toList)
    (unmarkedBehind : ∀ marker ∈ Token.markers, ¬marker <:+: behind.toList)
    (closed : ¬['#', '}'] <:+: body.toList) (bindings : Layer) :
    (¬['}'] <+: body.toList →
      renderText (before ++ "\x7b#" ++ body ++ "#\x7d" ++ behind) bindings =
        .ok (before ++ behind) ∧
      renderText (before ++ "\x7b#" ++ body) bindings =
        .error (.malformed ⟨.fault .openComment, (Place.behind before.toList).line,
          (Place.behind before.toList).column⟩)) ∧
    renderText (before ++ "\x7b#\x7d" ++ behind) bindings = .ok (before ++ behind) := by
  refine ⟨fun braceless => ?_, ?_⟩
  · have closedBehind : ¬['#', '}'] <:+: '#' :: body.toList := by
      rw [List.infix_cons_iff]
      rintro (here | later)
      · exact braceless (List.cons_prefix_cons.mp here).2
      · exact closed later
    have isComment : Token.IsComment ("\x7b#" ++ body ++ "#\x7d").toList := by
      rw [String.toList_append, String.toList_append]
      exact Token.isComment_written closedBehind
    have parts : before ++ "\x7b#" ++ body ++ "#\x7d" ++ behind =
        before ++ ("\x7b#" ++ body ++ "#\x7d") ++ behind := by
      simp only [String.append_assoc]
    refine ⟨?_, ?_⟩
    · rw [parts]
      exact render_around isComment unmarked ended unmarkedBehind bindings
    · rw [renderText, Template.ofSource, refused_open unmarked ended closedBehind]
      rfl
  · exact render_around isComment_brace unmarked ended unmarkedBehind bindings

/-- A remark with braces and signs in it, in the second line. It vanishes with its markers; without
its end it is refused at the place in the second line where it begins. -/
theorem comments_vanish_remark :
    let before := "a\nb"
    let body := " \x7b# \x7d\x7d "
    (∀ marker ∈ Token.markers, ¬marker <:+: before.toList) ∧ ¬['{'] <:+ before.toList ∧
      (∀ marker ∈ Token.markers, ¬marker <:+: "c".toList) ∧ ¬['#', '}'] <:+: body.toList ∧
      ¬['}'] <+: body.toList ∧
      renderText (before ++ "\x7b#" ++ body ++ "#\x7d" ++ "c") [] = .ok "a\nbc" ∧
      renderText (before ++ "\x7b#" ++ body) [] =
        .error (.malformed ⟨.fault .openComment, 2, 2⟩) := by
  have unmarked : ∀ marker ∈ Token.markers, ¬marker <:+: "a\nb".toList := by decide
  have unmarkedBehind : ∀ marker ∈ Token.markers, ¬marker <:+: "c".toList := by decide
  have ended : ¬['{'] <:+ "a\nb".toList := by decide
  have closed : ¬['#', '}'] <:+: " \x7b# \x7d\x7d ".toList := by decide
  have braceless : ¬['}'] <+: " \x7b# \x7d\x7d ".toList := by decide
  obtain ⟨vanishes, -⟩ := comments_vanish unmarked ended unmarkedBehind closed []
  obtain ⟨rendered, refused⟩ := vanishes braceless
  exact ⟨unmarked, ended, unmarkedBehind, closed, braceless, rendered, refused⟩

/-- Not every text without an end of a comment can be written in a comment: one that begins with a
brace ends it, and the rest of the text is put out. Without an end of its own such a comment is not
refused. -/
theorem comments_vanish_not_braced :
    let body := "\x7db"
    ¬['#', '}'] <:+: body.toList ∧
      renderText ("a" ++ "\x7b#" ++ body ++ "#\x7d" ++ "c") [] = .ok "ab#\x7dc" ∧
      renderText ("a" ++ "\x7b#" ++ body) [] = .ok "ab" := by
  have unmarked : ∀ marker ∈ Token.markers, ¬marker <:+: "a".toList := by decide
  have ended : ¬['{'] <:+ "a".toList := by decide
  have closed : ¬['#', '}'] <:+: "\x7db".toList := by decide
  have rendered : renderText ("a" ++ "\x7b#\x7d" ++ "b#\x7dc") [] = .ok ("a" ++ "b#\x7dc") :=
    render_around isComment_brace unmarked ended (by decide) []
  have unended : renderText ("a" ++ "\x7b#\x7d" ++ "b") [] = .ok ("a" ++ "b") :=
    render_around isComment_brace unmarked ended (by decide) []
  exact ⟨closed, rendered, unended⟩

end Stencil
