import Mathlib.Data.List.Basic
import Stencil.Proofs.Harmless
import Stencil.Proofs.Pieces
import Stencil.Proofs.Requests
import Stencil.Proofs.Rounds

/-!
# Escaping cannot be got round by data

With escaping on, no mark comes into the output that no template and no safe text brings along:
if the texts of all registered templates are harmless, no template declares text safe, and all
safe text in the variables is harmless, then whatever is rendered is harmless. Plain text in the
variables may hold anything. What a rendering says is followed node by node; scopes stay harmless
on the way, since loops bind parts of harmless values and counts.
-/

namespace Stencil

/-- A piece that brings no mark into the output on its own. Of an expression it is enough that no
filter in it declares text safe, since what is not safe is escaped. -/
def Node.Piece.Harmless : Node.Piece → Prop
  | .text s => Text.Markup.Harmless s.toList
  | .expression e => "safe" ∉ e.filters
  | .embedded _ => True

/-- It can be decided, since texts and the filters of an expression are finite. -/
instance (piece : Node.Piece) : Decidable piece.Harmless :=
  match piece with
  | .text s => inferInstanceAs (Decidable (Text.Markup.Harmless s.toList))
  | .expression e => inferInstanceAs (Decidable ("safe" ∉ e.filters))
  | .embedded _ => inferInstanceAs (Decidable True)

/-- A template of harmless pieces: its own texts hold no marks, and no expression in it takes the
filter that trusts a text as it is. -/
def Template.Harmless (template : Template) : Prop :=
  ∀ piece ∈ Node.pieces template.nodes, piece.Harmless

/-- A provider whose variables, if it supplies any, have harmless values. One that fails is
harmless, since nothing of it comes into the scope. -/
def Provider.Harmless (provider : Provider) : Prop :=
  ∀ layer, provider.supply = .ok layer → layer.Harmless

/-- In a harmless scope only harmless text is said. Nothing is said of faults, which bring no
text. -/
def SpeaksHarmless (speech : Scope → Except Fault String) : Prop :=
  ∀ scope text, scope.Harmless → speech scope = .ok text → Text.Markup.Harmless text.toList

/-- The layer of a turn is harmless if the item is. Besides the item it holds numbers and truth
values, and these are displayed without marks. -/
theorem harmless_turnLayer {target : String} {item : Value} (harmless : item.Harmless)
    (index count : Nat) : (turnLayer target item index count).Harmless := by
  have empty : Layer.Harmless [] := fun binding member => nomatch member
  have facts : (turnFacts index count).Harmless := by
    refine .map (Layer.harmless_ofList ?_)
    simp only [List.forall_mem_cons]
    exact ⟨Value.harmless_ofNat _, Value.harmless_ofNat _, .bool _, .bool _,
      Value.harmless_ofNat _, List.forall_mem_nil _⟩
  exact Layer.harmless_insert (Layer.harmless_insert empty harmless) facts

/-- Two texts one behind the other are harmless if both are, since a mark is a single character and
so cannot come about where they meet. -/
theorem speaks_append {first later : Scope → Except Fault String}
    (before : SpeaksHarmless first) (behind : SpeaksHarmless later) :
    SpeaksHarmless fun scope => do
      let text ← first scope
      return text ++ (← later scope) := by
  intro scope text inScope said
  obtain ⟨left, saidLeft, said⟩ := bind_eq_ok.mp said
  obtain ⟨right, saidRight, joined⟩ := bind_eq_ok.mp said
  obtain rfl : left ++ right = text := Except.ok.inj joined
  rw [String.toList_append]
  exact Text.Markup.harmless_append (before scope left inScope saidLeft)
    (behind scope right inScope saidRight)

/-- Nothing at all is harmless. -/
theorem speaks_nothing : SpeaksHarmless fun _ => .ok "" := by
  intro scope text _ said
  cases said
  exact fun c member => nomatch member

/-- The turns of a loop say harmless text, if each does on its own. The induction is on the items,
and each turn is said in a scope that is harmless again. -/
theorem speaks_turns {target : String} {count : Nat} {turn : Scope → Except Fault String}
    (speaks : SpeaksHarmless turn) {items : List Value}
    (harmless : ∀ item ∈ items, item.Harmless) (index : Nat) :
    SpeaksHarmless fun scope => sayTurns target count turn scope index items := by
  induction items generalizing index with
  | nil => exact speaks_nothing
  | cons item rest inductionHypothesis =>
    refine speaks_append ?_ (inductionHypothesis (fun other member => ?_) (index + 1))
    · intro scope text inScope said
      have layer : (turnLayer target item index count).Harmless :=
        harmless_turnLayer (harmless item List.mem_cons_self) index count
      exact speaks _ text (Scope.harmless_push inScope layer) said
    · exact harmless other (List.mem_cons_of_mem item member)

section Nodes

variable {embed : Scope → String → Except Fault String}

/-- The cases of a choice say harmless text, if all bodies in it do. Which of them is taken does
not matter, so nothing has to be known of the conditions, which may well be values with marks in
them. -/
theorem speaks_cases {otherwise : Scope → Except Fault String} (inOther : SpeaksHarmless otherwise)
    {cases : List (Expr × List Node)}
    (inCases : ∀ case ∈ cases, SpeaksHarmless (sayBody embed true case.2)) :
    SpeaksHarmless fun scope => sayCases embed true (otherwise scope) cases scope := by
  induction cases with
  | nil => exact inOther
  | cons case rest inductionHypothesis =>
    obtain ⟨condition, body⟩ := case
    intro scope text inScope said
    obtain ⟨value, -, said⟩ := bind_eq_ok.mp said
    by_cases holds : value.isTruthy = true
    · rw [if_pos holds] at said
      exact inCases (condition, body) List.mem_cons_self scope text inScope said
    · rw [if_neg holds] at said
      exact inductionHypothesis (fun other member => inCases other (List.mem_cons_of_mem _ member))
        scope text inScope said

/-- Nodes of harmless pieces say harmless text, if embedded templates do. The induction is on the
nodes, with the bodies inside of them; the items of a loop are parts of a harmless value. -/
theorem speaks_body (embedded : ∀ name, SpeaksHarmless (embed · name)) {nodes : List Node}
    (harmless : ∀ piece ∈ Node.pieces nodes, piece.Harmless) :
    SpeaksHarmless (sayBody embed true nodes) := by
  induction nodes using Node.body_induction with
  | nil => exact speaks_nothing
  | text s rest behind =>
    rw [Node.pieces_text, List.forall_mem_cons] at harmless
    refine speaks_append ?_ (behind harmless.2)
    intro scope text _ said
    cases said
    exact harmless.1
  | output e rest behind =>
    rw [Node.pieces_output, List.forall_mem_cons] at harmless
    refine speaks_append ?_ (behind harmless.2)
    intro scope text inScope said
    -- A harmless value is emitted without a mark: either it was escaped, or it was safe as it is.
    obtain ⟨value, evaluated, emitted⟩ := bind_eq_ok.mp (mapError_eq_ok.mp said)
    exact Value.harmless_emit (Expr.harmless_eval inScope harmless.1 evaluated) emitted
  | loop target sequence body rest inner behind =>
    rw [Node.pieces_loop, List.forall_mem_cons, List.forall_mem_append] at harmless
    obtain ⟨inSequence, inBody, inRest⟩ := harmless
    refine speaks_append ?_ (behind inRest)
    intro scope text inScope said
    obtain ⟨items, evaluated, said⟩ := bind_eq_ok.mp said
    obtain ⟨value, evaluated, iterated⟩ := bind_eq_ok.mp (mapError_eq_ok.mp evaluated)
    -- The items are parts of the sequence, so the layer of each turn is harmless as well.
    have whole : value.Harmless := Expr.harmless_eval inScope inSequence evaluated
    split at iterated
    · cases iterated
      exact speaks_turns (inner inBody) whole.items 0 scope text inScope said
    · cases iterated
  | choice cases otherwise rest inCases inOther behind =>
    simp only [Node.pieces_choice, List.forall_mem_append, List.forall_mem_flatMap] at harmless
    obtain ⟨-, ⟨casesHarmless, otherHarmless⟩, inRest⟩ := harmless
    refine speaks_append ?_ (behind inRest)
    refine speaks_cases ?_ fun case member => inCases case member (casesHarmless case member)
    cases otherwise with
    | none => exact speaks_nothing
    | some body => exact inOther body rfl (otherHarmless body List.mem_cons_self)
  | block name body rest inner behind =>
    rw [Node.pieces_block, List.forall_mem_append] at harmless
    exact speaks_append (inner harmless.1) (behind harmless.2)
  | inherits parent rest behind => exact speaks_append speaks_nothing (behind harmless)
  | embed template rest behind =>
    rw [Node.pieces_embed, List.forall_mem_cons] at harmless
    exact speaks_append (embedded template) (behind harmless.2)

/-- Embedded templates say harmless text, if all templates in the library are harmless. The
induction is on the allowance of embedding. -/
theorem speaks_embedded {library : Library}
    (harmless : ∀ name template, library name = .ok template →
      ∀ piece ∈ Node.pieces template.nodes, piece.Harmless)
    (allowance : Nat) (around : List String) (name : String) :
    SpeaksHarmless (sayEmbedded library true allowance around · name) := by
  induction allowance generalizing around name with
  | zero =>
    intro scope text _ said
    cases said
  | succ allowance inductionHypothesis =>
    intro scope text inScope said
    obtain ⟨template, found, said⟩ := bind_eq_ok.mp said
    exact speaks_body (inductionHypothesis (around ++ [name])) (harmless name template found)
      scope text inScope said

end Nodes

/-- A scope that providers and a request fill with harmless values is harmless. The induction is on
the providers; one that fails leaves no scope. What the request gives comes last and is a layer like
the others. -/
theorem Scope.harmless_assemble {providers : List Provider} {bindings : Layer} {scope : Scope}
    (supplied : ∀ provider ∈ providers, provider.Harmless) (bound : bindings.Harmless)
    (assembled : Scope.assemble providers bindings = .ok scope) : scope.Harmless := by
  have provided {start reached : Scope} (before : start.Harmless)
      (ran : start.provided providers = .ok reached) : reached.Harmless := by
    clear assembled
    induction providers generalizing start with
    | nil =>
      cases ran
      exact before
    | cons provider rest inductionHypothesis =>
      simp only [Scope.provided, Provider.provide] at ran
      cases supplies : provider.supply with
      | error causes =>
        rw [supplies] at ran
        cases ran
      | ok layer =>
        rw [supplies] at ran
        have new : layer.Harmless := supplied provider List.mem_cons_self layer supplies
        refine inductionHypothesis (fun other member => ?_) (Scope.harmless_push before new) ran
        exact supplied other (List.mem_cons_of_mem _ member)
  unfold Scope.assemble at assembled
  cases ran : Scope.empty.provided providers with
  | error fault =>
    rw [ran] at assembled
    cases assembled
  | ok reached =>
    rw [ran] at assembled
    cases assembled
    exact Scope.harmless_push (provided (List.forall_mem_nil _) ran) bound

/-- With escaping on, data cannot bring a mark into the output. After any requests to an engine,
if all templates that are registered are harmless, if no provider supplies safe text with a mark
and neither does the request, then a text that is rendered has none of the four characters. -/
theorem rendered_harmless (settings : Settings) (escaping : settings.autoescape = true)
    (requests : List Request)
    (templates : ∀ name entry,
      ((Engine.new settings).after requests).registry.entry? name = some entry →
        entry.template.Harmless)
    (providers : ∀ provider ∈ ((Engine.new settings).after requests).providers,
      provider.Harmless)
    (name : String) (bindings : Layer) (bound : bindings.Harmless) (text : String)
    (rendered : (((Engine.new settings).after requests).render name bindings).1 = .ok text) :
    ∀ c ∈ text.toList, c ≠ '<' ∧ c ≠ '>' ∧ c ≠ '"' ∧ c ≠ '\'' := by
  have sound := Engine.sound_after (Engine.sound_new settings) requests
  have unchanged := Engine.settings_after (Engine.new settings) requests
  generalize (Engine.new settings).after requests = engine at *
  have escapes : engine.settings.autoescape = true := unchanged ▸ escaping
  rw [(Engine.render_answers sound name bindings).1] at rendered
  obtain ⟨template, found, rendered⟩ := bind_eq_ok.mp rendered
  obtain ⟨scope, assembled, said⟩ := bind_eq_ok.mp rendered
  have library : ∀ name template,
      Engine.library engine.settings engine.registry name = .ok template →
        ∀ piece ∈ Node.pieces template.nodes, piece.Harmless := by
    intro name template made piece member
    obtain ⟨other, entry, kept, held⟩ := Flattened.pieces_registered made member
    exact templates other entry kept piece held
  have inScope : scope.Harmless := Scope.harmless_assemble providers bound assembled
  rw [escapes] at said
  have harmless : Text.Markup.Harmless text.toList :=
    speaks_body (speaks_embedded library _ []) (library name template found) scope text inScope said
  intro c member
  have unmarked := harmless c member
  simpa [Text.Markup.marks] using unmarked

/-- A template that joins a note which is escaped with the same note as it is. -/
def noteCard : Template :=
  ⟨"card", "\x7b\x7b note | e + note \x7d\x7d",
    [.output (.binary .plus (.filter (.variable "note") "e" []) (.variable "note"))]⟩

/-- A template that embeds a card for each of some notes. -/
def noteList : Template :=
  ⟨"list", "\x7b% for note in notes %\x7d\x7b% include 'card' %\x7d\x7b% endfor %\x7d",
    [.loop "note" (.variable "notes") [.embed "card"]]⟩

/-- Notes with marks in them come out without any, by way of a loop and of an embedded template. The
text of the templates themselves has no marks either. -/
theorem rendered_harmless_notes :
    let engine := (Engine.new {}).after [
      .register "card" noteCard.source, .register "list" noteList.source]
    let notes : Layer := [("notes", .seq [.text "<b>", .text "'"])]
    (engine.render "list" notes).1 = .ok "&lt;b&gt;&lt;b&gt;&#39;&#39;" ∧
      ∀ c ∈ "&lt;b&gt;&lt;b&gt;&#39;&#39;".toList, c ≠ '<' ∧ c ≠ '>' ∧ c ≠ '"' ∧ c ≠ '\'' := by
  have card : Template.ofSource "card" false noteCard.source = .ok noteCard := by decide +kernel
  have list : Template.ofSource "list" false noteList.source = .ok noteList := by decide +kernel
  have state : (Engine.new {}).after [
      .register "card" noteCard.source, .register "list" noteList.source] =
      ⟨{}, ⟨[("card", ⟨noteCard, 1⟩), ("list", ⟨noteList, 2⟩)], 2, false⟩, .empty, []⟩ := by
    simp only [Engine.after, List.foldl, Engine.perform, Engine.register, Registry.register,
      Engine.new, Registry.empty, Registry.insert, card, list, Except.map]
    rfl
  intro engine notes
  have rendered : (engine.render "list" notes).1 = .ok "&lt;b&gt;&lt;b&gt;&#39;&#39;" := by
    simp only [engine, notes, state]
    delta Engine.render Engine.resolve Engine.shelf Engine.obtain Cache.fetch Cache.renew
      Cache.issue
    rw [Flattened.ofLeaf_eq_inRounds]
    decide +kernel
  refine ⟨rendered, rendered_harmless {} rfl _ ?_ ?_ "list" notes ?_ _ rendered⟩
  · have harmless : ∀ template ∈ [noteCard, noteList],
        ∀ piece ∈ Node.pieces template.nodes, piece.Harmless := by decide
    rw [state]
    intro name entry kept
    rcases List.mem_cons.mp (Dict.mem_of_get? kept) with here | later
    · obtain ⟨rfl, rfl⟩ := Prod.mk.inj here
      exact harmless noteCard (by simp)
    · obtain ⟨rfl, rfl⟩ := Prod.mk.inj (List.mem_singleton.mp later)
      exact harmless noteList (by simp)
  · rw [state]
    exact List.forall_mem_nil _
  · intro binding member
    obtain rfl := List.mem_singleton.mp member
    refine .seq ?_
    simp only [List.forall_mem_cons]
    exact ⟨.text _, .text _, List.forall_mem_nil _⟩

end Stencil
