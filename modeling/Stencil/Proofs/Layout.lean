import Stencil.Proofs.Phrases
import Stencil.Proofs.Segments
import Stencil.Proofs.TemplateShape

/-!
# Writing templates

Nodes are written as a source: texts as they are, and everything else in tags, with one blank
between the tokens of a tag. Nodes that a source can define are called well-formed. What is laid
out of them falls into the same texts and tags again, since every construct stands between two tags
and so no text comes next to a text.
-/

namespace Stencil

open Token (Kind Segment)

namespace Node

/-- A tag of a statement. -/
def statement (written : List Kind) : Segment := .tag .statement written

mutual

/-- How a node is laid out as texts and tags. A construct has its body between two tags, so it
begins and ends with one. -/
def segments : Node → List Segment
  | .text s => [.text s]
  | .output e => [.tag .output e.tokens]
  | .loop target sequence body =>
    statement (.keyword .for :: .name target :: .keyword .in :: sequence.tokens) ::
      (segmentsOf body ++ [statement [.keyword .endfor]])
  | .choice cases otherwise =>
    segmentsOfCases .if cases ++ (segmentsOfOption otherwise ++ [statement [.keyword .endif]])
  | .block name body =>
    statement [.keyword .block, .name name] ::
      (segmentsOf body ++ [statement [.keyword .endblock]])
  | .inherits parent => [statement [.keyword .extends, .string parent]]
  | .embed template => [statement [.keyword .include, .string template]]

/-- How the nodes of a body are laid out, one behind the other and with nothing in between. A text
is a segment of its own. -/
def segmentsOf : List Node → List Segment
  | [] => []
  | node :: rest => segments node ++ segmentsOf rest

/-- How the cases of a choice are laid out, the first of them behind the given word. It is `if` for
the first case of a choice and `elif` for all others. -/
def segmentsOfCases : Keyword → List (Expr × List Node) → List Segment
  | _, [] => []
  | word, (condition, body) :: rest =>
    statement (.keyword word :: condition.tokens) :: (segmentsOf body ++ segmentsOfCases .elif rest)

/-- How the other body of a choice is laid out, if there is one. An empty body still has its tag, so
it can be told from none. -/
def segmentsOfOption : Option (List Node) → List Segment
  | none => []
  | some body => statement [.keyword .else] :: segmentsOf body

end

/-- The source that nodes are written as, with quoted texts between the given marks. Nothing is
added between tags, as it would be read as a text. -/
def source (quote : Quote) (nodes : List Node) : String :=
  String.ofList ((segmentsOf nodes).flatMap (Segment.spelling quote))

/-- A text and a text behind it would be read as one, so they must not be neighbours. -/
def Apart : Node → List Node → Prop
  | .text _, .text _ :: _ => False
  | _, _ => True

mutual

/-- A node that can be written: texts could not be mistaken for tags, names are words, a choice
has a case, and no reference is relative. -/
def Writable : Node → Prop
  | .text s => Text.IsPlain s
  | .output e => e.Writable
  | .loop target sequence body => Token.isName target ∧ sequence.Writable ∧ WritableBody body
  | .choice cases otherwise => cases ≠ [] ∧ WritableCases cases ∧ WritableOption otherwise
  | .block name body => Token.isName name ∧ WritableBody body
  | .inherits target | .embed target => Reference.isRelative target.toList = false

/-- A body that can be written: so can its nodes, and no two texts are neighbours. It may be empty,
as nothing is written for it. -/
def WritableBody : List Node → Prop
  | [] => True
  | node :: rest => Writable node ∧ Apart node rest ∧ WritableBody rest

/-- Cases of a choice that can be written. -/
def WritableCases : List (Expr × List Node) → Prop
  | [] => True
  | (condition, body) :: rest => condition.Writable ∧ WritableBody body ∧ WritableCases rest

/-- A body that can be written if it is there. -/
def WritableOption : Option (List Node) → Prop
  | none => True
  | some body => WritableBody body

end

/-- Nodes of a template as a source can define them: all of them can be written, no two blocks have
one name, and a parent is named by the first node or not at all. These are the conditions that
reading checks. -/
structure WellFormed (nodes : List Node) : Prop where
  writable : WritableBody nodes
  distinct : (blockNames nodes).Nodup
  parentFirst : ParentFirst nodes

/-- Cases that can be written can be written one by one. -/
theorem writable_case {cases : List (Expr × List Node)} (writable : WritableCases cases) :
    ∀ case ∈ cases, case.1.Writable ∧ WritableBody case.2 := by
  induction cases with
  | nil =>
    intro case member
    cases member
  | cons case rest inductionHypothesis =>
    obtain ⟨condition, body, others⟩ := writable
    exact List.forall_mem_cons.mpr ⟨⟨condition, body⟩, inductionHypothesis others⟩

section Laid

open Token (Laid TagFirst tagFirst_tag laid_nil laid_text laid_tag laid_append)

/-- Only texts are laid out with a text in front. So what comes behind a text that is kept apart is
laid out with a tag in front. -/
theorem tagFirst_apart {s : String} {rest : List Node} (apart : Apart (.text s) rest)
    (writable : WritableBody rest) : TagFirst (segmentsOf rest) := by
  intro segment found isText
  cases rest with
  | nil => cases found
  | cons node behind =>
    cases node with
    | text other => exact apart
    | choice cases otherwise =>
      obtain ⟨⟨present, -⟩, -⟩ := writable
      cases cases with
      | nil => exact present rfl
      | cons case others => exact tagFirst_tag _ _ _ segment found isText
    | _ => exact tagFirst_tag _ _ _ segment found isText

/-- Cases are laid out with a tag in front, as is what stands behind them if there are none. -/
theorem tagFirst_cases (word : Keyword) (cases : List (Expr × List Node)) {behind : List Segment}
    (tagFirst : TagFirst behind) : TagFirst (segmentsOfCases word cases ++ behind) := by
  cases cases with
  | nil => exact tagFirst
  | cons case rest => exact tagFirst_tag _ _ _

/-- Cases keep texts apart if their bodies do, whichever word the first of them begins with. The
induction is on the cases. -/
theorem laid_cases {cases : List (Expr × List Node)}
    (each : ∀ case ∈ cases, case.1.Writable ∧ Laid (segmentsOf case.2)) (word : Keyword)
    {behind : List Segment} (laid : Laid behind) (tagFirst : TagFirst behind) :
    Laid (segmentsOfCases word cases ++ behind) := by
  induction cases generalizing word with
  | nil => exact laid
  | cons case rest inductionHypothesis =>
    obtain ⟨⟨condition, body⟩, others⟩ := List.forall_mem_cons.mp each
    rw [segmentsOfCases, List.cons_append, List.append_assoc]
    exact laid_tag (List.forall_mem_cons.mpr ⟨trivial, Expr.tokens_writable condition⟩)
      (laid_append body (inductionHypothesis others .elif) (tagFirst_cases .elif rest tagFirst))

/-- A construct between two tags keeps texts apart if its body does. The two tags are all that its
body and what is around it have in common. -/
theorem laid_construct {first last : List Kind} (begins : ∀ kind ∈ first, kind.Writable)
    (ends : ∀ kind ∈ last, kind.Writable) {body behind : List Segment} (within : Laid body)
    (laid : Laid behind) :
    Laid ((statement first :: (body ++ [statement last])) ++ behind) := by
  rw [List.cons_append, List.append_assoc]
  exact laid_tag begins (laid_append within (laid_tag ends laid) (tagFirst_tag _ _ _))

/-- What is laid out of a body that can be written has no two texts next to each other. The
induction is on the nodes, with the bodies inside of them. Bodies stand between tags, so a text at
the end of one does not meet the text behind it. -/
theorem laid_segments {nodes : List Node} (writable : WritableBody nodes) :
    Laid (segmentsOf nodes) := by
  have keyword (k : Keyword) : ∀ kind ∈ [Kind.keyword k], kind.Writable :=
    List.forall_mem_singleton.mpr trivial
  have reference (k : Keyword) (target : String) :
      ∀ kind ∈ [Kind.keyword k, .string target], kind.Writable :=
    List.forall_mem_cons.mpr ⟨trivial, List.forall_mem_singleton.mpr trivial⟩
  induction nodes using body_induction with
  | nil => exact laid_nil
  | text s rest behind =>
    obtain ⟨plain, apart, others⟩ := writable
    -- A body that can be written has no text behind a text, so a tag comes next.
    exact laid_append (laid_text plain) (behind others) (tagFirst_apart apart others)
  | output e rest behind =>
    obtain ⟨expression, -, others⟩ := writable
    exact laid_tag (Expr.tokens_writable expression) (behind others)
  | loop target sequence body rest inner behind =>
    obtain ⟨⟨name, expression, within⟩, -, others⟩ := writable
    have begins : ∀ kind ∈ .keyword .for :: .name target :: .keyword .in :: sequence.tokens,
        kind.Writable := by
      simp only [List.forall_mem_cons]
      exact ⟨trivial, name, trivial, Expr.tokens_writable expression⟩
    exact laid_construct begins (keyword .endfor) (inner within) (behind others)
  | choice cases otherwise rest inCases inOther behind =>
    obtain ⟨⟨-, first, second⟩, -, others⟩ := writable
    have each : ∀ case ∈ cases, case.1.Writable ∧ Laid (segmentsOf case.2) := by
      intro case member
      obtain ⟨condition, body⟩ := writable_case first case member
      exact ⟨condition, inCases case member body⟩
    have ended : Laid (statement [.keyword .endif] :: segmentsOf rest) :=
      laid_tag (keyword .endif) (behind others)
    rw [segmentsOf, segments, List.append_assoc, List.append_assoc]
    cases otherwise with
    | none => exact laid_cases each .if ended (tagFirst_tag _ _ _)
    | some body =>
      refine laid_cases each .if (laid_tag (keyword .else) ?_) (tagFirst_tag _ _ _)
      exact laid_append (inOther body rfl second) ended (tagFirst_tag _ _ _)
  | block name body rest inner behind =>
    obtain ⟨⟨named, within⟩, -, others⟩ := writable
    have begins : ∀ kind ∈ [Kind.keyword .block, .name name], kind.Writable :=
      List.forall_mem_cons.mpr ⟨trivial, List.forall_mem_singleton.mpr named⟩
    exact laid_construct begins (keyword .endblock) (inner within) (behind others)
  | inherits parent rest behind => exact laid_tag (reference .extends parent) (behind writable.2.2)
  | embed template rest behind => exact laid_tag (reference .include template) (behind writable.2.2)

end Laid

end Node

end Stencil
