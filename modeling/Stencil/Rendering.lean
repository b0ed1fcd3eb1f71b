import Stencil.Expr.Evaluation
import Stencil.Flattening

/-!
# Rendering

Rendering walks the nodes of a flattened template and puts their texts together. It works
in a session: the scope, on which loops put layers, the names of the templates that are
being embedded, and the shelf that embedded templates are fetched from. Layers and names
are taken off again whether the part that needed them failed or not. How deep templates
may embed each other is bounded, which also bounds the rendering itself.
-/

namespace Stencil

/-- What rendering works in; `σ` is the state of the shelf. The number of names is limited, and the
layers are not. -/
structure Session (σ : Type) where
  scope : Scope
  /-- The templates being embedded, the outermost first. -/
  embedding : List String
  shelf : σ

/-- An activity within a session that may fail. The session is there after a failure as well, so
that layers and names can be taken off. -/
abbrev Rendering (σ α : Type) := ExceptT Fault (StateM (Session σ)) α

/-- Hands out flattened templates by name. It has a state of its own, which a cache needs and a
plain registry does not. -/
abbrev Shelf (σ : Type) := String → σ → Except Fault Flattened × σ

namespace Rendering

variable {σ : Type}

/-- An activity given by what it makes of a session. The session is told for a failure as well. -/
def ofRun {α : Type} (run : Session σ → Except Fault α × Session σ) : Rendering σ α :=
  ExceptT.mk run

/-- What an activity makes of a session. Behind a failure there is a session as well, the one that
it has left. -/
def run {α : Type} (activity : Rendering σ α) (session : Session σ) :
    Except Fault α × Session σ :=
  (ExceptT.run activity).run session

/-- An activity with a layer on the scope for its time. The layer is taken off whether the activity
fails or not. -/
def withLayer {α : Type} (layer : Layer) (activity : Rendering σ α) : Rendering σ α :=
  ofRun fun session =>
    let (result, after) := activity.run { session with scope := session.scope.push layer }
    (result, { after with scope := after.scope.pop })

/-- An activity for an embedded template, whose name is on the session meanwhile and is taken off in
any case. -/
def withName {α : Type} (name : String) (activity : Rendering σ α) : Rendering σ α :=
  ofRun fun session =>
    let (result, after) :=
      activity.run { session with embedding := session.embedding ++ [name] }
    (result, { after with embedding := after.embedding.dropLast })

/-- Fetch a template from the shelf. The state of the shelf is kept, whether there is a template or
not. -/
def fetch (shelf : Shelf σ) (name : String) : Rendering σ Flattened :=
  ofRun fun session =>
    let (result, state) := shelf name session.shelf
    (result, { session with shelf := state })

/-- A computation in the current scope, which changes nothing in the session. -/
def inScope {α : Type} (compute : Scope → Except Mistyped α) : Rendering σ α :=
  ofRun fun session => ((compute session.scope).mapError .mistyped, session)

end Rendering

/-- What a loop says about the turn with `index` turns before it, of `count` in all. A loop that is
around this one is not told of. -/
def turnFacts (index count : Nat) : Value :=
  .map (Dict.ofList [("index", .ofNat (index + 1)), ("index0", .ofNat index),
    ("first", .bool (index == 0)), ("last", .bool (index + 1 == count)),
    ("length", .ofNat count)])

/-- The layer of a turn: the item under the name of the target, and `loop`, which wins if
the target has that name itself. -/
def turnLayer (target : String) (item : Value) (index count : Nat) : Layer :=
  Dict.insert (Dict.insert [] target item) "loop" (turnFacts index count)

/-- One turn for each item, in order; `index` turns came before. The first turn that fails is the
last one. -/
def renderTurns {σ : Type} (target : String) (count : Nat) (turn : Rendering σ String) :
    Nat → List Value → Rendering σ String
  | _, [] => pure ""
  | index, item :: rest => do
    let text ← Rendering.withLayer (turnLayer target item index count) turn
    return text ++ (← renderTurns target count turn (index + 1) rest)

mutual

/-- The text of a node, where `embed` renders embedded templates. The name of a parent has no text;
a flattened template has none of these nodes. -/
def renderNode {σ : Type} (embed : String → Rendering σ String) (escaping : Bool) :
    Node → Rendering σ String
  | .text s => pure s
  | .output e =>
    Rendering.inScope fun scope => do (← e.eval escaping scope).emit escaping e
  | .loop target sequence body => do
    let items ← Rendering.inScope fun scope => do
      match ← sequence.eval escaping scope with
      | .seq items => return items
      | other => throw (.notSequence other.kind sequence)
    renderTurns target items.length (renderBody embed escaping body) 0 items
  | .choice cases otherwise =>
    renderCases embed escaping (renderOption embed escaping otherwise) cases
  | .block _ body => renderBody embed escaping body
  | .inherits _ => pure ""
  | .embed template => embed template

/-- The texts of nodes put together. The first node that fails ends it, and the text so far is
lost. -/
def renderBody {σ : Type} (embed : String → Rendering σ String) (escaping : Bool) :
    List Node → Rendering σ String
  | [] => pure ""
  | node :: rest => do
    let text ← renderNode embed escaping node
    return text ++ (← renderBody embed escaping rest)

/-- The text of a body that may be absent. Without a body it is empty. -/
def renderOption {σ : Type} (embed : String → Rendering σ String) (escaping : Bool) :
    Option (List Node) → Rendering σ String
  | none => pure ""
  | some body => renderBody embed escaping body

/-- The text of the first case whose condition holds; `otherwise` renders what is left if
none does. Conditions behind that case are not evaluated. -/
def renderCases {σ : Type} (embed : String → Rendering σ String) (escaping : Bool)
    (otherwise : Rendering σ String) : List (Expr × List Node) → Rendering σ String
  | [] => otherwise
  | (condition, body) :: rest => do
    let value ← Rendering.inScope fun scope => condition.eval escaping scope
    if value.isTruthy then renderBody embed escaping body
    else renderCases embed escaping otherwise rest

end

/-- The text of an embedded template, where templates may be embedded `allowance` deep from here on.
With no allowance left it is a cycle, and the template is not even fetched. -/
def renderEmbedded {σ : Type} (shelf : Shelf σ) (escaping : Bool) :
    Nat → String → Rendering σ String
  | 0, name => .ofRun fun session => (.error (.cycle (session.embedding ++ [name])), session)
  | allowance + 1, name => do
    let template ← Rendering.fetch shelf name
    Rendering.withName name
      (renderBody (renderEmbedded shelf escaping allowance) escaping template.nodes)

/-- Render nodes in a session, where at most `limit` templates may be embedded in each
other, those of the session included. -/
def render {σ : Type} (shelf : Shelf σ) (limit : Nat) (escaping : Bool) (nodes : List Node)
    (session : Session σ) : Except Fault String × Session σ :=
  (renderBody (renderEmbedded shelf escaping (limit - session.embedding.length)) escaping
    nodes).run session

end Stencil
