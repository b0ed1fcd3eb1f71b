import Stencil.Proofs.Depth
import Stencil.Proofs.Entities
import Stencil.Proofs.Plain
import Stencil.Proofs.Reachable

/-!
# Escaping as a last step

Where no text is marked as safe, neither by the variables nor by a filter, and the texts of the
templates need no escaping, it makes no difference when text is escaped: each value as it is put
out, or the whole output at the end. So to render with escaping on is to render with escaping off
and to escape the output, and if one of the two fails the other one does, with the same fault.

Every condition, loop and path is the same in both renderings, because expressions have plain
values that do not hang on escaping. The outputs are then compared piece by piece; escaping goes
character by character, so it goes through when texts are put together. It can be undone, so the
output with escaping off can be told from the other one.
-/

namespace Stencil

open Text.Markup (escape escape_append escape_injective escape_ordinary specials)

/-- One outcome is the other one escaped: it succeeds exactly where that one does, with its markup,
and has the same faults. It is stated without a map, so that it can be read both ways. -/
def EscapeOf (on off : Except Fault String) : Prop :=
  (∀ output, on = .ok (escape output) ↔ off = .ok output) ∧
    ∀ fault, on = .error fault ↔ off = .error fault

/-- To escape an outcome is to escape the text, if there is one. The way back is where escaping must
be injective: the text is then known from what it is escaped to. -/
theorem escapeOf_iff (on off : Except Fault String) : EscapeOf on off ↔ on = off.map escape := by
  constructor
  · rintro ⟨succeeds, fails⟩
    cases off with
    | error fault => exact (fails fault).mpr rfl
    | ok output => exact (succeeds output).mpr rfl
  · rintro rfl
    cases off with
    | error fault => exact ⟨fun output => iff_of_false nofun nofun, fun other => Iff.rfl⟩
    | ok output =>
      refine ⟨fun other => ?_, fun fault => iff_of_false nofun nofun⟩
      exact ⟨fun same => congrArg Except.ok (escape_injective (Except.ok.inj same)),
        fun same => congrArg (Except.map escape) same⟩

/-- A piece of a template that needs no escaping and does without it: its text has no special
characters, and no filter of an expression marks text as safe. -/
def Node.Piece.Plain : Node.Piece → Prop
  | .text s => ∀ c ∈ s.toList, c ∉ specials
  | .expression e => e.Unmarked
  | .embedded _ => True

/-- It can be decided, since texts are finite and expressions are searched for the filters that
mark. -/
instance (piece : Node.Piece) : Decidable piece.Plain :=
  match piece with
  | .text s => inferInstanceAs (Decidable (∀ c ∈ s.toList, c ∉ specials))
  | .expression e => inferInstanceAs (Decidable e.Unmarked)
  | .embedded _ => inferInstanceAs (Decidable True)

/-- A template of plain pieces: its texts have no special characters, and no filter in it marks text
as safe. -/
def Template.Plain (template : Template) : Prop :=
  ∀ piece ∈ Node.pieces template.nodes, piece.Plain

/-- A provider whose variables, if it supplies any, have plain values. One that fails is plain,
since nothing of it comes into the scope. -/
def Provider.Plain (provider : Provider) : Prop :=
  ∀ layer, provider.supply = .ok layer → layer.Plain

/-- A scope that providers and a request fill with plain values is plain. The providers come one
behind the other, and if one of them fails there is no scope. -/
theorem Scope.plain_assemble {providers : List Provider} {bindings : Layer} {scope : Scope}
    (supplied : ∀ provider ∈ providers, provider.Plain) (bound : bindings.Plain)
    (assembled : Scope.assemble providers bindings = .ok scope) : scope.Plain := by
  have provided {start reached : Scope} (before : start.Plain)
      (ran : start.provided providers = .ok reached) : reached.Plain := by
    clear assembled
    induction providers generalizing start with
    | nil => exact Except.ok.inj ran ▸ before
    | cons provider rest inductionHypothesis =>
      obtain ⟨first, others⟩ := List.forall_mem_cons.mp supplied
      simp only [Scope.provided, Provider.provide] at ran
      cases supplies : provider.supply with
      | error causes =>
        rw [supplies] at ran
        cases ran
      | ok layer =>
        rw [supplies] at ran
        exact inductionHypothesis others (Scope.plain_push before (first layer supplies)) ran
  unfold Scope.assemble at assembled
  cases ran : Scope.empty.provided providers with
  | error fault =>
    rw [ran] at assembled
    cases assembled
  | ok reached =>
    rw [ran] at assembled
    exact Except.ok.inj assembled ▸ Scope.plain_push (provided (List.forall_mem_nil _) ran) bound

/-- In a plain scope the first speech is the second one escaped. The two are speeches with escaping
on and off, and nothing else relates them. -/
def SpeaksEscaped (on off : Scope → Except Fault String) : Prop :=
  ∀ scope, scope.Plain → on scope = (off scope).map escape

/-- A text that escaping leaves alone may be said on both sides. -/
theorem speaks_fixed {text : String} (same : escape text = text) :
    SpeaksEscaped (fun _ => .ok text) fun _ => .ok text :=
  fun _ _ => congrArg Except.ok same.symm

/-- Speeches one behind the other are escaped one by one. A failure of the first is the end on both
sides. -/
theorem escaped_append {on off onLater offLater : Scope → Except Fault String}
    (before : SpeaksEscaped on off) (behind : SpeaksEscaped onLater offLater) :
    SpeaksEscaped (fun scope => do return (← on scope) ++ (← onLater scope))
      fun scope => do return (← off scope) ++ (← offLater scope) := by
  intro scope plain
  beta_reduce
  rw [before scope plain, behind scope plain]
  cases off scope with
  | error fault => rfl
  | ok first =>
    cases offLater scope with
    | error fault => rfl
    | ok second => exact congrArg Except.ok (escape_append first second).symm

/-- What is said of a value is escaped, if the value does not hang on escaping. The premise `each`
is asked only of values of the kind that there are. -/
theorem escaped_bind {α : Type} {holds : α → Prop} {value : Bool → Except Fault α}
    (steady : Steady holds value) {on off : α → Except Fault String}
    (each : ∀ a, holds a → on a = (off a).map escape) :
    (value true >>= on) = (value false >>= off).map escape := by
  obtain ⟨same, held⟩ := steady
  rw [same]
  cases ran : value false with
  | error fault => rfl
  | ok a => exact each a (held a ran)

/-- To tell faults in other words changes nothing about escaping. -/
theorem steady_mapError {ε φ α : Type} {holds : α → Prop} {value : Bool → Except ε α}
    (steady : Steady holds value) (tell : ε → φ) :
    Steady holds fun escaping => (value escaping).mapError tell := by
  refine ⟨congrArg (Except.mapError tell) steady.1, fun a ran => ?_⟩
  exact steady.2 a (mapError_eq_ok.mp ran)

/-- The layer of a turn is plain if the item is. All else in it is numbers and truth values, which
are plain by themselves. -/
theorem plain_turnLayer {target : String} {item : Value} (plain : item.Plain)
    (index count : Nat) : (turnLayer target item index count).Plain := by
  have facts : (turnFacts index count).Plain := by
    refine Value.plain_map.mpr fun entry member => ?_
    have each : ∀ pair ∈ [("index", Value.ofNat (index + 1)), ("index0", .ofNat index),
        ("first", .bool (index == 0)), ("last", .bool (index + 1 == count)),
        ("length", .ofNat count)], pair.2.Plain := by
      simp only [List.forall_mem_cons]
      exact ⟨Value.plain_ofNat _, Value.plain_ofNat _, rfl, rfl, Value.plain_ofNat _,
        List.forall_mem_nil _⟩
    exact each entry (Dict.mem_ofList member)
  exact Layer.plain_insert (Layer.plain_insert (List.forall_mem_nil _) plain) facts

/-- The turns of a loop are escaped if each turn is. The induction is on the items, and each of them
is put into a scope that is plain again. -/
theorem escaped_turns {target : String} {count : Nat} {on off : Scope → Except Fault String}
    (turn : SpeaksEscaped on off) {items : List Value} (plain : ∀ item ∈ items, item.Plain)
    (index : Nat) :
    SpeaksEscaped (fun scope => sayTurns target count on scope index items)
      fun scope => sayTurns target count off scope index items := by
  induction items generalizing index with
  | nil => exact speaks_fixed rfl
  | cons item rest inductionHypothesis =>
    obtain ⟨first, others⟩ := List.forall_mem_cons.mp plain
    refine escaped_append ?_ (inductionHypothesis others (index + 1))
    exact fun scope inScope => turn _ (Scope.plain_push inScope (plain_turnLayer first index count))

/-- What is put out of an expression is escaped. It has the same value both ways, which is no safe
text, so with escaping on it is escaped as it is put out. -/
theorem escaped_output {scope : Scope} (plain : scope.Plain) {e : Expr} (unmarked : e.Unmarked) :
    (Except.mapError Fault.mistyped do (← e.eval true scope).emit true e) =
      (Except.mapError Fault.mistyped do (← e.eval false scope).emit false e).map escape := by
  obtain ⟨same, held⟩ := Expr.steady_eval plain unmarked
  rw [show e.eval true scope = e.eval false scope from same]
  cases evaluated : e.eval false scope with
  | error cause => rfl
  | ok value =>
    have emitted : value.emit true e = (value.emit false e).map escape :=
      Value.emit_plain (held value evaluated) true e
    show Except.mapError Fault.mistyped (value.emit true e) =
      (Except.mapError Fault.mistyped (value.emit false e)).map escape
    rw [emitted]
    cases value.emit false e <;> rfl

/-- A loop has the same items, and they are plain. If there are none to be had, that is for the same
reason with escaping on and off. -/
theorem steady_items {scope : Scope} (plain : scope.Plain) {sequence : Expr}
    (unmarked : sequence.Unmarked) :
    Steady (fun items => ∀ item ∈ items, Value.Plain item) fun escaping =>
      Except.mapError Fault.mistyped (do
        match ← sequence.eval escaping scope with
        | .seq items => return items
        | other => throw (.notSequence other.kind sequence)) := by
  refine steady_mapError (steady_bind (Expr.steady_eval plain unmarked)
    fun value plainValue => ?_) _
  refine steady_blind fun items iterated => ?_
  split at iterated
  · exact Except.ok.inj iterated ▸ Value.plain_seq.mp plainValue
  · cases iterated

section Nodes

variable {on off : Scope → String → Except Fault String}

/-- A choice takes the same case, and what that case says is escaped. The induction is on the cases.
A condition without marks has one value in both modes, so both take the case or both go on. -/
theorem escaped_cases {onOther offOther : Scope → Except Fault String}
    (inOther : SpeaksEscaped onOther offOther) {cases : List (Expr × List Node)}
    (conditions : ∀ case ∈ cases, case.1.Unmarked)
    (inCases : ∀ case ∈ cases, SpeaksEscaped (sayBody on true case.2) (sayBody off false case.2)) :
    SpeaksEscaped (fun scope => sayCases on true (onOther scope) cases scope)
      fun scope => sayCases off false (offOther scope) cases scope := by
  induction cases with
  | nil => exact inOther
  | cons case rest inductionHypothesis =>
    obtain ⟨condition, body⟩ := case
    obtain ⟨unmarked, otherConditions⟩ := List.forall_mem_cons.mp conditions
    obtain ⟨here, others⟩ := List.forall_mem_cons.mp inCases
    intro scope plain
    refine escaped_bind (steady_mapError (Expr.steady_eval plain unmarked) _) fun value _ => ?_
    by_cases holds : value.isTruthy = true
    · rw [if_pos holds, if_pos holds]
      exact here scope plain
    · rw [if_neg holds, if_neg holds]
      exact inductionHypothesis otherConditions others scope plain

/-- What plain nodes say is escaped, if what embedded templates say is. The induction is on the
nodes, with the bodies inside of them; the escape of texts one behind the other is put together of
their escapes. -/
theorem escaped_body (embedded : ∀ name, SpeaksEscaped (on · name) (off · name))
    {nodes : List Node} (plain : ∀ piece ∈ Node.pieces nodes, piece.Plain) :
    SpeaksEscaped (sayBody on true nodes) (sayBody off false nodes) := by
  induction nodes using Node.body_induction with
  | nil => exact speaks_fixed rfl
  | text s rest behind =>
    rw [Node.pieces_text, List.forall_mem_cons] at plain
    exact escaped_append (speaks_fixed (escape_ordinary plain.1)) (behind plain.2)
  | output e rest behind =>
    rw [Node.pieces_output, List.forall_mem_cons] at plain
    exact escaped_append (fun scope inScope => escaped_output inScope plain.1) (behind plain.2)
  | loop target sequence body rest inner behind =>
    rw [Node.pieces_loop, List.forall_mem_cons, List.forall_mem_append] at plain
    obtain ⟨inSequence, inBody, inRest⟩ := plain
    refine escaped_append (fun scope inScope => ?_) (behind inRest)
    exact escaped_bind (steady_items inScope inSequence) fun items plainItems =>
      escaped_turns (inner inBody) plainItems 0 scope inScope
  | choice cases otherwise rest inCases inOther behind =>
    simp only [Node.pieces_choice, List.forall_mem_append, List.forall_mem_flatMap,
      List.forall_mem_map] at plain
    obtain ⟨conditions, ⟨bodies, other⟩, inRest⟩ := plain
    refine escaped_append ?_ (behind inRest)
    refine escaped_cases ?_ conditions fun case member => inCases case member (bodies case member)
    cases otherwise with
    | none => exact speaks_fixed rfl
    | some body => exact inOther body rfl (other body List.mem_cons_self)
  | block name body rest inner behind =>
    rw [Node.pieces_block, List.forall_mem_append] at plain
    exact escaped_append (inner plain.1) (behind plain.2)
  | inherits parent rest behind => exact escaped_append (speaks_fixed rfl) (behind plain)
  | embed template rest behind =>
    rw [Node.pieces_embed, List.forall_mem_cons] at plain
    exact escaped_append (embedded template) (behind plain.2)

/-- What an embedded template says is escaped, if all templates in the library are plain. The
induction is on the allowance of embedding. -/
theorem escaped_embedded {library : Library}
    (plain : ∀ name template, library name = .ok template →
      ∀ piece ∈ Node.pieces template.nodes, piece.Plain)
    (allowance : Nat) (around : List String) (name : String) :
    SpeaksEscaped (sayEmbedded library true allowance around · name)
      (sayEmbedded library false allowance around · name) := by
  induction allowance generalizing around name with
  | zero => exact fun _ _ => rfl
  | succ allowance inductionHypothesis =>
    intro scope inScope
    have found : Steady (fun template => ∀ piece ∈ Node.pieces template.nodes, piece.Plain)
        fun _ => library name := steady_blind (plain name)
    exact escaped_bind found fun template inTemplate =>
      escaped_body (inductionHypothesis (around ++ [name])) inTemplate scope inScope

end Nodes

section Pages

variable {registry : Registry}

/-- A template of a registry with plain templates only is flattened to plain pieces, since
flattening makes no piece up. -/
theorem plain_flattened
    (templates : ∀ name entry, registry.entry? name = some entry → entry.template.Plain)
    (limit : Nat) (name : String) (template : Flattened)
    (made : Flattened.ofLeaf registry limit name = .ok template) :
    ∀ piece ∈ Node.pieces template.nodes, piece.Plain := by
  intro piece member
  obtain ⟨other, entry, kept, held⟩ := Flattened.pieces_registered made member
  exact templates other entry kept piece held

/-- So what it says with escaping on is what it says with escaping off, escaped. The templates that
it embeds are plain as well, and flattening does not depend on escaping. -/
theorem escaped_page
    (templates : ∀ name entry, registry.entry? name = some entry → entry.template.Plain)
    (limit : Nat) (name : String) {scope : Scope} (plain : scope.Plain) :
    registry.page limit true name scope = (registry.page limit false name scope).map escape := by
  rw [Registry.page_eq, Registry.page_eq]
  have pieces := plain_flattened templates limit
  have found : Steady (fun template => ∀ piece ∈ Node.pieces template.nodes, piece.Plain)
      fun _ => Flattened.ofLeaf registry limit name := steady_blind (pieces name)
  exact escaped_bind found fun template inTemplate =>
    escaped_body (escaped_embedded pieces limit []) inTemplate scope plain

end Pages

section Engines

/-- Engines that are alike, one with escaping on and one with escaping off, answer with a text that
is escaped and with the text as it is. They go to the same depth, so a cycle is met by both. -/
theorem escaped_answer {on off : Engine} (alike : Engine.Alike on off)
    (depth : on.settings.maxDepth = off.settings.maxDepth)
    (escapes : on.settings.autoescape = true) (leaves : off.settings.autoescape = false)
    (templates : ∀ name entry, on.registry.entry? name = some entry → entry.template.Plain)
    (providers : ∀ provider ∈ on.providers, provider.Plain) (name : String) {bindings : Layer}
    (bound : bindings.Plain) :
    (on.render name bindings).1 = (off.render name bindings).1.map escape := by
  rw [(Engine.render_answers alike.firstSound name bindings).1,
    (Engine.render_answers alike.secondSound name bindings).1]
  cases assembled : Scope.assemble on.providers bindings with
  | error fault =>
    unfold Engine.answer Engine.library
    rw [← alike.registry, ← alike.providers, ← depth, assembled]
    cases Flattened.ofLeaf on.registry on.settings.maxDepth name <;> rfl
  | ok scope =>
    have plain : scope.Plain := Scope.plain_assemble providers bound assembled
    rw [Engine.answer_eq on name assembled, Engine.answer_eq off name (alike.providers ▸ assembled),
      ← alike.registry, ← depth, escapes, leaves]
    exact escaped_page templates _ name plain

end Engines

/-- Escaping is a last step, as far as nothing is marked as safe. Whatever templates there are, if
their texts have none of the special characters and no filter in them marks text, then what any
of them says in plain variables with escaping on is the escape of what it says with escaping off,
one fails exactly where the other one does, and with the same fault.

So it is with engines that have got the same requests before, whatever their settings are
otherwise, if their providers supply plain values: rendering with escaping on gives the escape of
what rendering with escaping off gives, for variables given one by one and for those that a value
holds. -/
theorem escaping_comes_last :
    (∀ registry : Registry,
      (∀ name entry, registry.entry? name = some entry → entry.template.Plain) →
      ∀ limit name (scope : Scope), scope.Plain →
        EscapeOf (registry.page limit true name scope) (registry.page limit false name scope)) ∧
    ∀ (settings : Settings) (requests : List Request),
      let on := (Engine.new { settings with autoescape := true }).after requests
      let off := (Engine.new { settings with autoescape := false }).after requests
      (∀ name entry, on.registry.entry? name = some entry → entry.template.Plain) →
      (∀ provider ∈ on.providers, provider.Plain) →
      (∀ name (bindings : Layer), bindings.Plain →
        EscapeOf (on.render name bindings).1 (off.render name bindings).1) ∧
      ∀ name (value : Value), value.Plain →
        EscapeOf (on.renderValue name value).1 (off.renderValue name value).1 := by
  constructor
  · intro registry templates limit name scope plain
    exact (escapeOf_iff _ _).mpr (escaped_page templates limit name plain)
  · intro settings requests on off templates providers
    -- The requests lead two engines that differ in the switch alone to two such engines.
    have start : Engine.Alike (Engine.new { settings with autoescape := true })
        (Engine.new { settings with autoescape := false }) :=
      ⟨rfl, rfl, rfl, Engine.sound_new _, Engine.sound_new _⟩
    have alike : Engine.Alike on off := start.after requests
    have onSettings : on.settings = { settings with autoescape := true } :=
      Engine.settings_after _ requests
    have offSettings : off.settings = { settings with autoescape := false } :=
      Engine.settings_after _ requests
    have rendered (name : String) (bindings : Layer) (bound : bindings.Plain) :
        EscapeOf (on.render name bindings).1 (off.render name bindings).1 := by
      refine (escapeOf_iff _ _).mpr (escaped_answer alike ?_ ?_ ?_ templates providers name bound)
      · rw [onSettings, offSettings]
      · rw [onSettings]
      · rw [offSettings]
    refine ⟨rendered, fun name value plain => ?_⟩
    unfold Engine.renderValue
    cases held : Layer.ofValue value with
    | error fault => exact (escapeOf_iff _ _).mpr rfl
    | ok bindings => exact rendered name bindings (Layer.plain_ofValue plain held)

/-- A template that puts out something with a mark behind it. -/
def callTemplate : Template :=
  ⟨"call", "\x7b\x7b x + '!' \x7d\x7d", [.output (.binary .plus (.variable "x") (.text "!"))]⟩

/-- A template that embeds a call for each of some things. -/
def callsTemplate : Template :=
  ⟨"calls", "\x7b% for x in xs %\x7d\x7b% include 'call' %\x7d\x7b% endfor %\x7d",
    [.loop "x" (.variable "xs") [.embed "call"]]⟩

/-- Calls come out escaped, because they come out as they are with escaping off. Only the rendering
with escaping off is computed here; the other one follows. -/
theorem escaping_comes_last_calls :
    let requests : List Request := [.register "call" callTemplate.source,
      .register "calls" callsTemplate.source]
    let on := (Engine.new { autoescape := true }).after requests
    let off := (Engine.new { autoescape := false }).after requests
    let things : Layer := [("xs", .seq [.text "<b>", .text "'"])]
    things.Plain ∧ (off.render "calls" things).1 = .ok "<b>!'!" ∧
      (on.render "calls" things).1 = .ok "&lt;b&gt;!&#39;!" := by
  have call : Template.ofSource "call" false callTemplate.source = .ok callTemplate := by
    decide +kernel
  have calls : Template.ofSource "calls" false callsTemplate.source = .ok callsTemplate := by
    decide +kernel
  have state (autoescape : Bool) : (Engine.new { autoescape }).after
      [.register "call" callTemplate.source, .register "calls" callsTemplate.source] =
      ⟨{ autoescape }, ⟨[("call", ⟨callTemplate, 1⟩), ("calls", ⟨callsTemplate, 2⟩)], 2, false⟩,
        .empty, []⟩ := by
    simp only [Engine.after, List.foldl, Engine.perform, Engine.register, Registry.register,
      Engine.new, Registry.empty, Registry.insert, call, calls, Except.map]
    rfl
  intro requests on off things
  have bound : things.Plain := by decide
  have plain : (off.render "calls" things).1 = .ok "<b>!'!" := by
    simp only [off, requests, things, state]
    delta Engine.render Engine.resolve Engine.shelf Engine.obtain Cache.fetch Cache.renew
      Cache.issue
    rw [Flattened.ofLeaf_eq_inRounds]
    decide +kernel
  have pieces : ∀ template ∈ [callTemplate, callsTemplate],
      ∀ piece ∈ Node.pieces template.nodes, piece.Plain := by decide
  have templates : ∀ name entry, on.registry.entry? name = some entry → entry.template.Plain := by
    simp only [on, requests, state]
    intro name entry kept
    rcases List.mem_cons.mp (Dict.mem_of_get? kept) with here | later
    · obtain ⟨rfl, rfl⟩ := Prod.mk.inj here
      exact pieces callTemplate (by simp)
    · obtain ⟨rfl, rfl⟩ := Prod.mk.inj (List.mem_singleton.mp later)
      exact pieces callsTemplate (by simp)
  have providers : ∀ provider ∈ on.providers, provider.Plain := by
    simp only [on, requests, state]
    exact List.forall_mem_nil _
  refine ⟨bound, plain, ?_⟩
  have escaped := (escaping_comes_last.2 {} requests templates providers).1 "calls" things bound
  exact (escaped.1 "<b>!'!").mpr plain

end Stencil
