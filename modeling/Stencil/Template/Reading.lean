import Stencil.Expr.Reading
import Stencil.Node
import Stencil.Reference
import Stencil.Template.Malformed
import Stencil.Token.Stream

/-!
# Reading templates

The tokens of a source are read one by one into a tree of nodes. The state of reading
holds the nodes of the innermost open construct, the constructs around it, and how far
the current tag has come. A token either fits and leads to the next state or is refused,
and the first refusal decides. When the tokens are used up, every construct must have
been ended.
-/

namespace Stencil.Template

open Token (Kind Wanted)

/-- A tag that has begun a construct; its nodes are being read. A choice goes through several of
these, one for each of its cases. -/
inductive Opened where
  | loop (target : String) (sequence : Expr)
  /-- A case of a choice, behind the cases already read. -/
  | case (cases : List (Expr × List Node)) (condition : Expr)
  /-- The part of a choice for which no condition is left. -/
  | otherwise (cases : List (Expr × List Node))
  | block (name : String)

/-- The construct that a tag has begun. All cases of a choice are parts of one construct. -/
def Opened.construct : Opened → Malformed.Construct
  | .loop .. => .loop
  | .case .. | .otherwise _ => .choice
  | .block _ => .block

/-- An open construct, the place of the word that began it, and the nodes before it. The place is
kept for the complaint that the construct has no end. -/
structure Level where
  opened : Opened
  place : Place
  before : List Node

/-- What the expression of a tag is for. Reading the expression is the same for all three, and what
comes of it is decided at its end. -/
inductive Purpose where
  | output
  /-- The sequence of a loop. -/
  | loop (place : Place) (target : String)
  /-- The condition of a case behind others. -/
  | case (place : Place) (cases : List (Expr × List Node))

/-- The tag that an expression stands in. Only its own end may stand behind the expression. -/
def Purpose.tag : Purpose → Tag
  | .output => .output
  | .loop .. | .case .. => .statement

/-- The two ways to refer to another template. They are read alike and make different nodes. -/
inductive Link where
  | parent | embedded

/-- The node that a reference makes. The name in it is the full one. -/
def Link.node : Link → String → Node
  | .parent, name => .inherits name
  | .embedded, name => .embed name

/-- What the end of a tag completes. It is known before the tag ends, so that nothing but the end of
the tag can come between. -/
inductive Ending where
  /-- The node goes to the others of the innermost open construct. -/
  | add (node : Node)
  /-- A construct begins. -/
  | descend (opened : Opened) (place : Place)

/-- What the expression of a tag completes: a node, or the opening of a construct. -/
def Purpose.ending (e : Expr) : Purpose → Ending
  | .output => .add (.output e)
  | .loop place target => .descend (.loop target e) place
  | .case place cases => .descend (.case cases e) place

/-- How far the current tag has come. Each stage fixes which tokens fit next, and what has been
gathered on the way. -/
inductive Stage where
  /-- Between tags. -/
  | content
  /-- At the word that begins a statement. -/
  | statement
  | loopTarget (place : Place)
  | loopIn (place : Place) (target : String)
  | blockName (place : Place)
  | reference (link : Link)
  | expression (purpose : Purpose) (reading : Expr.Reading)
  /-- At the name that may be repeated at the end of a block. -/
  | blockEnd (name : String) (body : List Node)
  /-- At the end of the tag. -/
  | close (ending : Ending)

/-- The state of reading. It holds no more than later tokens can need, so the same state means the
same continuation. -/
structure Reading where
  /-- The name that relative references start from. -/
  name : Option String
  nodes : List Node
  /-- The open constructs, the innermost first. -/
  levels : List Level
  /-- The names of the blocks so far. -/
  blocks : List String
  /-- Whether a parent has been named. -/
  inherited : Bool
  stage : Stage

namespace Reading

/-- Nothing is read yet. The name is that of the template, from which relative references start. -/
def start (name : Option String) : Reading := ⟨name, [], [], [], false, .content⟩

/-- The same with another stage. What has been read is kept. -/
def reach (reading : Reading) (stage : Stage) : Reading := { reading with stage }

/-- Back between tags, with one more node behind those of the innermost open construct. -/
def add (reading : Reading) (node : Node) : Reading :=
  { reading with nodes := reading.nodes ++ [node], stage := .content }

/-- Inside a new construct, with no nodes yet. The nodes so far are kept on its level. -/
def descend (reading : Reading) (opened : Opened) (place : Place) : Reading :=
  { reading with
    nodes := [], levels := ⟨opened, place, reading.nodes⟩ :: reading.levels, stage := .content }

/-- Outside the innermost construct again, whose nodes the new stage holds. -/
def ascend (reading : Reading) (level : Level) (outer : List Level) (stage : Stage) : Reading :=
  { reading with nodes := level.before, levels := outer, stage }

/-- What the end of a tag completes, done. Either way the machine is between tags again. -/
def complete (reading : Reading) : Ending → Reading
  | .add node => reading.add node
  | .descend opened place => reading.descend opened place

/-- A word that ends or continues a construct. Where no construct is open all of them are refused
alike. -/
def isTerminator : Keyword → Bool
  | .elif | .else | .endif | .endfor | .endblock => true
  | _ => false

/-- The end or the continuation of the innermost construct. The word must be one that belongs to
this construct; a case is closed both by the word that begins another and by the end of the
choice. -/
def terminate (reading : Reading) (word : Keyword) : Except Malformed.Reason Reading :=
  let found : Kind := .keyword word
  let refuse (wanted : Keyword) := .error (.expected (.token (.keyword wanted)) found)
  match reading.levels with
  | [] => .error (.stray found)
  | level :: outer =>
    let leave (stage : Stage) := .ok (reading.ascend level outer stage)
    match level.opened with
    | .loop target sequence =>
      if word = .endfor then leave (.close (.add (.loop target sequence reading.nodes)))
      else refuse .endfor
    | .block name =>
      if word = .endblock then leave (.blockEnd name reading.nodes) else refuse .endblock
    | .case cases condition =>
      let cases := cases ++ [(condition, reading.nodes)]
      match word with
      | .elif => leave (.expression (.case level.place cases) .start)
      | .else => leave (.close (.descend (.otherwise cases) level.place))
      | .endif => leave (.close (.add (.choice cases none)))
      | _ => refuse .endif
    | .otherwise cases =>
      if word = .endif then leave (.close (.add (.choice cases (some reading.nodes))))
      else refuse .endif

/-- The word that begins a statement. A parent may be named once and in front of all nodes, and that
it has been named already comes before that it comes too late. -/
def statement (reading : Reading) (place : Place) (kind : Kind) :
    Except Malformed.Reason Reading :=
  match kind with
  | .keyword .for => .ok (reading.reach (.loopTarget place))
  | .keyword .if => .ok (reading.reach (.expression (.case place []) .start))
  | .keyword .block => .ok (reading.reach (.blockName place))
  | .keyword .extends =>
    if reading.inherited then .error .secondParent
    else if reading.levels.isEmpty && reading.nodes.isEmpty then
      .ok { reading with inherited := true, stage := .reference .parent }
    else .error .lateParent
  | .keyword .include => .ok (reading.reach (.reference .embedded))
  | .keyword word =>
    if isTerminator word then reading.terminate word
    else .error (.expected .statement kind)
  | kind => .error (.unfit .statement kind)

/-- Read one token: the next state, or the reason to refuse the token. Nothing but the state and the
token decides, and the token counts only by its kind and by where it starts. -/
def next (reading : Reading) (token : Token) : Except Malformed.Reason Reading :=
  let refuse (wanted : Wanted) := .error (.unfit wanted token.kind)
  match reading.stage with
  | .content =>
    match token.kind with
    | .text s => .ok (reading.add (.text s))
    | .opening .output => .ok (reading.reach (.expression .output .start))
    | .opening .statement => .ok (reading.reach .statement)
    | _ => refuse .content
  | .statement => reading.statement token.start token.kind
  | .loopTarget place =>
    match token.kind with
    | .name target => .ok (reading.reach (.loopIn place target))
    | _ => refuse .loopVariable
  | .loopIn place target =>
    if token.kind = .keyword .in then .ok (reading.reach (.expression (.loop place target) .start))
    else refuse (.token (.keyword .in))
  | .blockName place =>
    match token.kind with
    | .name name =>
      if name ∈ reading.blocks then .error (.duplicateBlock name)
      else
        .ok { reading with
          blocks := name :: reading.blocks, stage := .close (.descend (.block name) place) }
    | _ => refuse .blockName
  | .reference link =>
    match token.kind with
    | .string target =>
      match Reference.resolve? reading.name target with
      | some name => .ok (reading.reach (.close (.add (link.node name))))
      | none => .error (.escapesRoot target)
    | _ => refuse .templateName
  | .expression purpose inner =>
    match inner.step token.kind with
    | .error wanted => refuse wanted
    | .ok (.more inner) => .ok (reading.reach (.expression purpose inner))
    | .ok (.finished e) =>
      if token.kind = .closing purpose.tag then .ok (reading.complete (purpose.ending e))
      else refuse (.token (.closing purpose.tag))
  | .blockEnd name body =>
    match token.kind with
    | .name closing =>
      if closing = name then .ok (reading.reach (.close (.add (.block name body))))
      else .error (.mismatchedEnd closing name)
    | kind =>
      if kind = .closing .statement then .ok (reading.add (.block name body))
      else refuse (.token (.closing .statement))
  | .close ending =>
    if token.kind = .closing .statement then .ok (reading.complete ending)
    else refuse (.token (.closing .statement))

/-- Read tokens in order; the first that does not fit is refused, and those behind it are not looked
at. -/
def run : Reading → List Token → Except Malformed Reading
  | reading, [] => .ok reading
  | reading, token :: rest =>
    match reading.next token with
    | .ok reading => run reading rest
    | .error reason => .error (.atToken token reason)

/-- The nodes, if the tokens may end here: outside tags and with nothing open. A construct that is
open is told by the place where it was opened, the innermost one first. -/
def result (reading : Reading) : Except Malformed.Reason (List Node) :=
  match reading.stage, reading.levels with
  | .content, [] => .ok reading.nodes
  | .content, level :: _ =>
    .error (.unterminated level.opened.construct level.place.line level.place.column)
  | _, _ => .error .unfinishedTag

end Reading

/-- The nodes that the tokens of a source stand for. A source that ends too early is refused where
reading ended. -/
def nodesOfStream (name : Option String) (stream : Token.Stream) : Except Malformed (List Node) :=
  match (Reading.start name).run stream.tokens with
  | .error refusal => .error refusal
  | .ok reading =>
    match reading.result with
    | .ok nodes => .ok nodes
    | .error reason => .error ⟨reason, stream.finish.line, stream.finish.column⟩

/-- The nodes of a source. With `trim` set, a line end right behind a statement tag is
dropped. Without a name, relative references start from the root. -/
def nodesOfSource (name : Option String) (trim : Bool) (source : String) :
    Except Malformed (List Node) :=
  nodesOfStream name (.ofSource trim source)

end Stencil.Template
