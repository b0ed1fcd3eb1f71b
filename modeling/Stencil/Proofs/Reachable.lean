import Stencil.Proofs.Agreement
import Stencil.Proofs.Footprint
import Stencil.Proofs.Invalidation
import Stencil.Proofs.Requests

/-!
# What a template depends on

From a template others can be reached: its parent, the templates that it embeds, and what can be
reached from those. The text of a template depends on the nodes of the templates that can be reached
and on the variables in them. Two registries may differ in everything else, in the generations of
entries as well, and two scopes in what they say about other variables and in which of their layers
says it.
-/

namespace Stencil

namespace Registry

/-- The templates that can be reached from a template by the names of parents and of embedded
templates. A name can be reached even if there is no template under it. -/
inductive Reachable (registry : Registry) (start : String) : String → Prop
  | start : Reachable registry start start
  | parent {name parent : String} {entry : Entry} (reached : Reachable registry start name)
      (kept : registry.entry? name = some entry)
      (inherits : entry.template.parent? = some parent) : Reachable registry start parent
  | embedded {name template : String} {entry : Entry} (reached : Reachable registry start name)
      (kept : registry.entry? name = some entry)
      (embeds : .embed template ∈ Node.allOf entry.template.nodes) :
      Reachable registry start template

/-- The variables in the templates that can be reached. They are those of the templates as they are
registered, blocks that are overridden included. -/
def Reads (registry : Registry) (start name : String) : Prop :=
  ∃ reached entry, registry.Reachable start reached ∧ registry.entry? reached = some entry ∧
    name ∈ Node.reads entry.template.nodes

/-- Under every name that can be reached the other registry has the same nodes, or nothing as
well. -/
def SameReachable (registry other : Registry) (start : String) : Prop :=
  ∀ name, registry.Reachable start name →
    (other.entry? name).map (·.template.nodes) = (registry.entry? name).map (·.template.nodes)

end Registry

/-- What flattening sees of an entry: the name and the nodes of its template. The source is not
looked at, and the generation goes into nothing but the lineage. -/
def Entry.view (entry : Entry) : String × List Node := (entry.template.name, entry.template.nodes)

/-- A flattened template without the generations of the templates it was made from. Two registries
with different histories can agree on no more than this. -/
def Flattened.content (flattened : Flattened) : Flattened :=
  { flattened with lineage := flattened.lineage.map fun (name, _) => (name, 0) }

/-- What a template says in a scope. It is flattened, and so is every template embedded in it, anew
each time, so that no cache has a part in it. -/
def Registry.page (registry : Registry) (limit : Nat) (escaping : Bool) (name : String)
    (scope : Scope) : Except Fault String := do
  let template ← Flattened.ofLeaf registry limit name
  (render (Store.shelf registry limit) limit escaping template.nodes ⟨scope, [], ()⟩).1

/-- Two layers in one, in which the bindings of the first win. It is made by inserting them one
after the other, the last first. -/
def Layer.onto (layer below : Layer) : Layer :=
  layer.foldr (fun binding bound => Dict.insert bound binding.1 binding.2) below

/-- All layers of a scope in one, in which inner layers win. A lookup in it gives what a lookup in
the scope gives. -/
def Scope.merged (scope : Scope) : Scope := ⟨[scope.layers.foldr Layer.onto []]⟩

section Merging

/-- A name is looked up in the first of two layers, and then in the second. The induction is on the
first. -/
theorem Layer.get_onto (layer below : Layer) (name : String) :
    Dict.get? (layer.onto below) name = (Dict.get? layer name).or (Dict.get? below name) := by
  induction layer with
  | nil => rfl
  | cons binding rest inductionHypothesis =>
    obtain ⟨bound, value⟩ := binding
    rw [onto] at inductionHypothesis ⊢
    rw [List.foldr_cons, Dict.get?_insert, Dict.get?, inductionHypothesis]
    split <;> rfl

/-- A name is looked up layer by layer. -/
theorem Layer.get_merged (layers : List Layer) (name : String) :
    Dict.get? (layers.foldr onto []) name = layers.findSome? (Dict.get? · name) := by
  induction layers with
  | nil => rfl
  | cons layer outer inductionHypothesis =>
    rw [List.foldr_cons, get_onto, inductionHypothesis, List.findSome?_cons]
    cases Dict.get? layer name <;> rfl

/-- Every name stands for the same in one layer as in all the layers that were put into it. -/
theorem Scope.lookup_merged (scope : Scope) (name : String) :
    scope.merged.lookup name = scope.lookup name := by
  rw [lookup, lookup?, merged, List.findSome?_singleton, Layer.get_merged]
  rfl

end Merging

/-- Templates with the same nodes have the same parent. -/
theorem Template.parent_congr {template other : Template} (same : other.nodes = template.nodes) :
    other.parent? = template.parent? := by
  rw [parent?, parent?, same]

section Coincidence

variable {registry other : Registry} {start : String}

/-- Where the nodes are the same an entry looks the same to flattening. The names are the same
because registries are consistent, and the generations are left out. -/
theorem Registry.SameReachable.view (same : registry.SameReachable other start)
    (consistent : registry.Consistent) (otherConsistent : other.Consistent) {name : String}
    (reached : registry.Reachable start name) {entry : Entry}
    (kept : registry.entry? name = some entry) :
    ∃ otherEntry, other.entry? name = some otherEntry ∧ otherEntry.view = entry.view := by
  have nodes := same name reached
  rw [kept] at nodes
  obtain ⟨otherEntry, keptThere, sameNodes⟩ := Option.map_eq_some_iff.mp nodes
  refine ⟨otherEntry, keptThere, ?_⟩
  rw [Entry.view, Entry.view, otherConsistent.named keptThere, consistent.named kept, sameNodes]

/-- A walk up meets the same templates in both registries, or ends with the same fault. The
induction is that of the walk, and each parent can be reached from the template before. -/
theorem Lineage.climb_view (same : registry.SameReachable other start)
    (consistent : registry.Consistent) (otherConsistent : other.Consistent) (limit : Nat)
    (passed : List String) (current : String) (reached : registry.Reachable start current) :
    (climb other limit passed current).map (List.map Entry.view) =
      (climb registry limit passed current).map (List.map Entry.view) := by
  have put (outcome : Except Fault (List Entry)) (entry : Entry) :
      (outcome.map (· ++ [entry])).map (List.map Entry.view) =
        (outcome.map (List.map Entry.view)).map (· ++ [entry.view]) := by
    cases outcome with
    | error fault => rfl
    | ok lineage => exact congrArg Except.ok (List.map_append ..)
  induction passed, current using climb.induct registry limit with
  | case1 passed current stopped => rw [climb, climb, if_pos stopped, if_pos stopped]
  | case2 passed current free absent =>
    have absentThere := same current reached
    rw [absent, Option.map_none, Option.map_eq_none_iff] at absentThere
    rw [climb, climb, if_neg free, if_neg free, absent, absentThere]
  | case3 passed current free entry kept ends =>
    obtain ⟨otherEntry, keptThere, view⟩ := same.view consistent otherConsistent reached kept
    have endsThere := (Template.parent_congr (congrArg Prod.snd view)).trans ends
    rw [climb, climb, if_neg free, if_neg free]
    simp only [kept, ends, keptThere, endsThere, Except.map, List.map_singleton, view]
  | case4 passed current free entry kept parent inherits inductionHypothesis =>
    -- The parent can be reached because its child can.
    obtain ⟨otherEntry, keptThere, view⟩ := same.view consistent otherConsistent reached kept
    have inheritsThere := (Template.parent_congr (congrArg Prod.snd view)).trans inherits
    have above := inductionHypothesis (reached.parent kept inherits)
    rw [climb, climb, if_neg free, if_neg free]
    simp only [kept, inherits, keptThere, inheritsThere]
    rw [put, put, above, view]

/-- What flattening makes of the names and nodes of a lineage, but for the generations. With it what
flattening depends on is a value, which can be compared. -/
def Flattened.ofViews (leaf : String) (views : List (String × List Node)) : Flattened :=
  ⟨leaf, views.map fun (name, _) => (name, 0),
    Overrides.flatten (views.flatMap fun (_, nodes) => Node.blocksOf nodes) []
      ((views.head?.map Prod.snd).getD [])⟩

/-- Flattening sees nothing of the templates in a lineage but their names and nodes. So templates
may be exchanged for others with the same nodes, and only the generations tell. -/
theorem Flattened.ofLeaf_content (registry : Registry) (limit : Nat) (leaf : String) :
    (ofLeaf registry limit leaf).map content =
      ((Lineage.ofLeaf registry limit leaf).map (List.map Entry.view)).map (ofViews leaf) := by
  unfold ofLeaf
  cases Lineage.ofLeaf registry limit leaf with
  | error fault => rfl
  | ok lineage =>
    have blocks : (lineage.map Entry.view).flatMap (fun (_, nodes) => Node.blocksOf nodes) =
        Overrides.ofLineage lineage := by
      rw [List.flatMap_map]
      rfl
    have root : ((lineage.map Entry.view).head?.map Prod.snd).getD [] =
        (lineage.head?.map (·.template.nodes)).getD [] := by
      cases lineage <;> rfl
    simp only [Except.map, content, ofViews, blocks, root, List.map_map]
    rfl

/-- A template that can be reached is flattened to the same in both registries, but for the
generations, or with the same fault. The walks up are the same to flattening, and nothing else is
seen. -/
theorem Flattened.ofLeaf_same (same : registry.SameReachable other start)
    (consistent : registry.Consistent) (otherConsistent : other.Consistent) (limit : Nat)
    {name : String} (reached : registry.Reachable start name) :
    (ofLeaf other limit name).map content = (ofLeaf registry limit name).map content := by
  rw [ofLeaf_content, ofLeaf_content]
  exact congrArg (Except.map (ofViews name))
    (Lineage.climb_view same consistent otherConsistent limit [] name reached)

/-- The members of the lineage of a template that can be reached can be reached. The induction is on
the walk up. -/
theorem Lineage.rises_reachable {limit : Nat} {passed : List String} {current : String}
    {lineage : List Entry} (rises : Rises registry limit passed current lineage)
    (reached : registry.Reachable start current) {entry : Entry} (member : entry ∈ lineage) :
    ∃ name, registry.Reachable start name ∧ registry.entry? name = some entry := by
  induction rises with
  | root free kept ends =>
    obtain rfl := List.mem_singleton.mp member
    exact ⟨_, reached, kept⟩
  | child free kept inherits higher inductionHypothesis =>
    rcases List.mem_append.mp member with above | here
    · exact inductionHypothesis (reached.parent kept inherits) above
    · obtain rfl := List.mem_singleton.mp here
      exact ⟨_, reached, kept⟩

/-- An embedded template is named by a node. -/
theorem Node.embed_of_piece {nodes : List Node} {template : String}
    (found : .embedded template ∈ Node.pieces nodes) : .embed template ∈ Node.allOf nodes := by
  obtain ⟨node, member, owned⟩ := List.mem_flatMap.mp found
  cases node <;> simp [Node.own] at owned
  exact owned ▸ member

/-- What is reached from a template that can be reached can be reached itself. The pieces of the
flattened template come from the members of its lineage, and what these read and embed is within
reach by definition. -/
theorem Flattened.within_reachable {limit : Nat} {name : String} {flattened : Flattened}
    (reached : registry.Reachable start name)
    (made : ofLeaf registry limit name = .ok flattened) :
    ∀ piece ∈ Node.pieces flattened.nodes,
      piece.Within (registry.Reads start) (registry.Reachable start) := by
  intro piece found
  obtain ⟨lineage, entry, rises, member, held⟩ := pieces_lineage made found
  obtain ⟨holder, reachedHolder, kept⟩ := Lineage.rises_reachable rises reached member
  cases piece with
  | text s => trivial
  | expression e =>
    exact fun name read =>
      ⟨holder, entry, reachedHolder, kept, List.mem_flatMap.mpr ⟨.expression e, held, read⟩⟩
  | embedded template => exact reachedHolder.embedded kept (Node.embed_of_piece held)

/-- So the two registries agree as far as the template goes that is started from. This is what the
text of a template depends on. -/
theorem Flattened.libraries_agree (same : registry.SameReachable other start)
    (consistent : registry.Consistent) (otherConsistent : other.Consistent) (limit : Nat) :
    Library.Agree (registry.Reads start) (registry.Reachable start)
      (ofLeaf registry limit) (ofLeaf other limit) where
  same := by
    intro name reached
    have contents := ofLeaf_same same consistent otherConsistent limit reached
    have nodes (outcome : Except Fault Flattened) :
        outcome.map Flattened.nodes = (outcome.map content).map Flattened.nodes := by
      cases outcome <;> rfl
    rw [nodes, nodes (ofLeaf registry limit name), contents]
  closed := fun _ _ reached made => within_reachable reached made

/-- What a template says is what its nodes say. Rendering through a shelf without state leaves
nothing that could tell the difference. -/
theorem Registry.page_eq (registry : Registry) (limit : Nat) (escaping : Bool) (name : String)
    (scope : Scope) : registry.page limit escaping name scope = (do
      let template ← Flattened.ofLeaf registry limit name
      say (Flattened.ofLeaf registry limit) limit escaping [] template.nodes scope) := by
  unfold page
  cases Flattened.ofLeaf registry limit name with
  | error fault => rfl
  | ok template =>
    obtain ⟨_, -, rendered⟩ := Rendering.render_wording (Store.shelf_answers registry limit) limit
      escaping template.nodes ⟨scope, [], ()⟩ trivial
    exact congrArg Prod.fst rendered

end Coincidence

section Rendering

variable {registry other : Registry} {start : String}

/-- In scopes that agree a template says the same in both registries. The scopes have to agree only
on the variables that the template, and what it reaches, can read. -/
theorem Registry.page_same (same : registry.SameReachable other start)
    (consistent : registry.Consistent) (otherConsistent : other.Consistent) (limit : Nat)
    (escaping : Bool) {scope otherScope : Scope}
    (agree : scope.Agree (registry.Reads start) otherScope) :
    other.page limit escaping start otherScope = registry.page limit escaping start scope := by
  rw [page_eq, page_eq]
  exact spoken_agree escaping
    (Flattened.libraries_agree same consistent otherConsistent limit) limit [] .start agree

/-- Steps that leave alone what can be reached leave the nodes there as they are. The premise asks
it of the names that are touched, so templates may come and go elsewhere. -/
theorem Store.same_reachable (store : Store) (steps : List Store.Step)
    (apart : ∀ name ∈ store.touchedBy steps, ¬store.registry.Reachable start name) :
    store.registry.SameReachable (store.after steps).registry start := by
  intro name reached
  have untouched : name ∉ store.touchedBy steps := fun touched => apart name touched reached
  rw [Registry.entry_untouched (Store.passes_steps store steps) untouched]

/-- Once the scope is there, an engine answers with what the template says. -/
theorem Engine.answer_eq (engine : Engine) (name : String) {bindings : Layer} {scope : Scope}
    (assembled : Scope.assemble engine.providers bindings = .ok scope) :
    engine.answer name bindings =
      engine.registry.page engine.settings.maxDepth engine.settings.autoescape name scope := by
  rw [Registry.page_eq, answer, assembled]
  rfl

end Rendering

/-- What a template is flattened to and what it says depends on what can be reached from it, and on
nothing else. In two registries, after any steps, with the same nodes or nothing under every name
that can be reached, and in two scopes that agree about the variables there, it is flattened to the
same, but for the generations, and says the same or fails with the same fault. So do two engines
with the same settings, whatever their caches hold. It does not matter either in which layer a
variable is found, and templates out of reach can be registered, loaded and removed without being
seen. -/
theorem only_reachable_counts :
    (∀ trim otherTrim steps otherSteps limit escaping start scope otherScope,
      let registry := ((Store.new trim).after steps).registry
      let other := ((Store.new otherTrim).after otherSteps).registry
      registry.SameReachable other start → scope.Agree (registry.Reads start) otherScope →
      (Flattened.ofLeaf other limit start).map Flattened.content =
          (Flattened.ofLeaf registry limit start).map Flattened.content ∧
        other.page limit escaping start otherScope = registry.page limit escaping start scope) ∧
    (∀ settings requests otherRequests start bindings otherBindings scope otherScope,
      let engine := (Engine.new settings).after requests
      let other := (Engine.new settings).after otherRequests
      Scope.assemble engine.providers bindings = .ok scope →
      Scope.assemble other.providers otherBindings = .ok otherScope →
      engine.registry.SameReachable other.registry start →
      scope.Agree (engine.registry.Reads start) otherScope →
      (other.render start otherBindings).1 = (engine.render start bindings).1) ∧
    (∀ registry limit escaping start scope,
      Registry.page registry limit escaping start scope.merged =
        Registry.page registry limit escaping start scope) ∧
    (∀ trim steps later limit escaping start scope,
      let store := (Store.new trim).after steps
      (∀ name ∈ store.touchedBy later, ¬store.registry.Reachable start name) →
      (store.after later).registry.page limit escaping start scope =
        store.registry.page limit escaping start scope) := by
  have consistent (trim : Bool) (steps : List Store.Step) :
      ((Store.new trim).after steps).registry.Consistent :=
    (Store.orderly_after (Store.orderly_new trim) steps).consistent
  refine ⟨?_, ?_, ?_, ?_⟩
  · intro trim otherTrim steps otherSteps limit escaping start scope otherScope registry other same
      agree
    have here : registry.Consistent := consistent trim steps
    have there : other.Consistent := consistent otherTrim otherSteps
    exact ⟨Flattened.ofLeaf_same same here there limit .start,
      Registry.page_same same here there limit escaping agree⟩
  -- The caches drop out first: what an engine says is what its registry says.
  · intro settings requests otherRequests start bindings otherBindings scope otherScope engine other
      assembled otherAssembled same agree
    have sound : engine.Sound := Engine.sound_after (Engine.sound_new settings) requests
    have otherSound : other.Sound := Engine.sound_after (Engine.sound_new settings) otherRequests
    have equal : other.settings = engine.settings :=
      (Engine.settings_after _ otherRequests).trans (Engine.settings_after _ requests).symm
    rw [(Engine.render_answers sound start bindings).1,
      (Engine.render_answers otherSound start otherBindings).1,
      Engine.answer_eq engine start assembled, Engine.answer_eq other start otherAssembled, equal]
    exact Registry.page_same same sound.consistent otherSound.consistent _ _ agree
  -- One registry and two scopes that find the same under every name.
  · intro registry limit escaping start scope
    have libraries : Library.Agree (fun _ => True) (fun _ => True)
        (Flattened.ofLeaf registry limit) (Flattened.ofLeaf registry limit) := by
      refine ⟨fun _ _ => rfl, fun _ _ _ _ piece _ => ?_⟩
      cases piece with
      | text s => trivial
      | expression e => exact fun _ _ => trivial
      | embedded template => trivial
    rw [Registry.page_eq, Registry.page_eq]
    exact spoken_agree escaping libraries limit [] trivial fun name _ => scope.lookup_merged name
  -- One scope, and a registry before and after changes out of reach.
  · intro trim steps later limit escaping start scope store apart
    have after : (store.after later).registry.Consistent :=
      (Store.orderly_after (Store.orderly_after (Store.orderly_new trim) steps) later).consistent
    exact Registry.page_same (store.same_reachable later apart) (consistent trim steps) after limit
      escaping fun _ _ => rfl

/-- A line with a name in it. -/
def lineTemplate : Template := ⟨"line", "\x7b\x7b name \x7d\x7d", [.output (.variable "name")]⟩

/-- A letter that embeds the line. -/
def letterTemplate : Template := ⟨"letter", "\x7b% include 'line' %\x7d", [.embed "line"]⟩

/-- A letter is the same where the name is found in an outer layer, next to another variable, and
where its templates were registered the other way round, after one that is not in it. -/
theorem only_reachable_counts_letter :
    let steps : List Store.Step := [.change (.register "line" lineTemplate.source),
      .change (.register "letter" letterTemplate.source)]
    let otherSteps : List Store.Step := [.change (.register "note" "?"),
      .change (.register "letter" letterTemplate.source),
      .change (.register "line" lineTemplate.source)]
    let registry := ((Store.new false).after steps).registry
    let other := ((Store.new false).after otherSteps).registry
    let scope : Scope := ⟨[[("name", .text "A")]]⟩
    let otherScope : Scope := ⟨[[("day", .int 1)], [("name", .text "A")]]⟩
    registry.SameReachable other "letter" ∧ scope.Agree (registry.Reads "letter") otherScope ∧
      registry.page 4 true "letter" scope = .ok "A" ∧
      other.page 4 true "letter" otherScope = registry.page 4 true "letter" scope := by
  have line : Template.ofSource "line" false lineTemplate.source = .ok lineTemplate := by
    decide +kernel
  have letter : Template.ofSource "letter" false letterTemplate.source = .ok letterTemplate := by
    decide +kernel
  have note : Template.ofSource "note" false "?" = .ok ⟨"note", "?", [.text "?"]⟩ := by
    decide +kernel
  intro steps otherSteps registry other scope otherScope
  have state : registry =
      ⟨[("letter", ⟨letterTemplate, 2⟩), ("line", ⟨lineTemplate, 1⟩)], 2, false⟩ := by
    simp only [registry, steps, Store.after, List.foldl, Store.perform, Registry.change,
      Registry.register, Store.new, Registry.empty, Registry.insert, line, letter, Except.map]
    rfl
  have otherState : other = ⟨[("letter", ⟨letterTemplate, 2⟩), ("line", ⟨lineTemplate, 3⟩),
      ("note", ⟨⟨"note", "?", [.text "?"]⟩, 1⟩)], 3, false⟩ := by
    simp only [other, otherSteps, Store.after, List.foldl, Store.perform, Registry.change,
      Registry.register, Store.new, Registry.empty, Registry.insert, line, letter, note, Except.map]
    rfl
  have names : ∀ name, registry.Reachable "letter" name → name = "letter" ∨ name = "line" := by
    rw [state]
    intro name reached
    induction reached with
    | start => exact .inl rfl
    | parent reached kept inherits inductionHypothesis =>
      rcases inductionHypothesis with rfl | rfl <;> cases kept <;> cases inherits
    | embedded reached kept embeds inductionHypothesis =>
      rcases inductionHypothesis with rfl | rfl <;> cases kept <;>
        simp [letterTemplate, lineTemplate] at embeds
      exact .inr embeds
  have same : registry.SameReachable other "letter" := by
    intro name reached
    rcases names name reached with rfl | rfl <;> rw [state, otherState] <;> rfl
  have agree : scope.Agree (registry.Reads "letter") otherScope := by
    rintro name ⟨holder, entry, reached, kept, read⟩
    have known := names holder reached
    rw [state] at kept
    rcases known with rfl | rfl <;> cases kept
    · cases read
    · obtain rfl : name = "name" := List.mem_singleton.mp read
      rfl
  have spoken : registry.page 4 true "letter" scope = .ok "A" := by
    rw [state]
    delta Registry.page Store.shelf
    rw [Flattened.ofLeaf_eq_inRounds]
    decide +kernel
  exact ⟨same, agree, spoken,
    (only_reachable_counts.1 false false steps otherSteps 4 true "letter" scope otherScope same
      agree).2⟩

end Stencil
