import Stencil.Proofs.Reachable
import Stencil.Proofs.Serials

/-!
# What comes first in a rendering

A rendering has three stages, and each can fail: the template is resolved, the providers are asked
in the order in which they were added, and the nodes are told in the scope that results. A stage is
reached only if those before it succeed, so their order decides which fault is the answer. Of what
is bound under one name the given variables come first, then the later of the providers.

What a rendering leaves behind does not show: the copies that it had the cache make are told from
others in no later reply.
-/

namespace Stencil

/-- The provider that a request adds, if it adds one. A global is a provider of one variable, and
takes its place among the others like any of them. -/
def Request.added : Request → Option Provider
  | .addGlobal name value => some (.global name value)
  | .addProvider provider => some provider
  | _ => none

/-- What a request makes of the providers. One that brings other variables for a provider changes it
at its place. -/
def Request.arrange (request : Request) (providers : List Provider) : List Provider :=
  match request with
  | .supply position supplied =>
    providers.modify position fun provider => { provider with supply := supplied }
  | _ => providers ++ request.added.toList

/-- What a provider supplies under a name, if it does not fail and supplies anything. It is asked of
each provider on its own, before they are put on top of one another. -/
def Provider.value? (provider : Provider) (name : String) : Option Value :=
  match provider.supply with
  | .ok layer => Dict.get? layer name
  | .error _ => none

/-- No provider fails. One that does makes any rendering fail, whether its variables are used or
not. -/
def Provider.AllSupply (providers : List Provider) : Prop :=
  ∀ provider ∈ providers, ∃ layer, provider.supply = .ok layer

/-- The first of the providers that fails, with the causes of its failure. Those in front of it do
not fail, and of those behind it nothing is said. -/
def Provider.FirstFailing (providers : List Provider) (failing : Provider)
    (causes : List String) : Prop :=
  ∃ before behind, providers = before ++ failing :: behind ∧ AllSupply before ∧
    failing.supply = .error causes

/-- What a name stands for in a rendering: what the given variables say, else what the latest
provider says that supplies it. A provider that fails supplies nothing. -/
def Engine.binding? (engine : Engine) (bindings : Layer) (name : String) : Option Value :=
  (Dict.get? bindings name).or (engine.providers.reverse.findSome? (·.value? name))

namespace Request

/-- Providers keep their names and places, and a new one comes behind them. This holds also of the
request that changes what one of them supplies. -/
theorem names_arranged (request : Request) (providers : List Provider) :
    (request.arrange providers).map Provider.name =
      (providers ++ request.added.toList).map Provider.name := by
  cases request with
  | supply position supplied =>
    apply List.ext_getElem?
    intro index
    simp only [arrange, added, Option.toList, List.append_nil, List.getElem?_map,
      List.getElem?_modify]
    cases providers[index]? with
    | none => rfl
    | some provider =>
      by_cases here : position = index <;> simp [here]
  | _ => rfl

/-- Where nothing new is supplied, the providers themselves are kept, with the new one behind
them. -/
theorem arrange_added {request : Request}
    (unsupplied : ∀ position supplied, request ≠ .supply position supplied)
    (providers : List Provider) :
    request.arrange providers = providers ++ request.added.toList := by
  cases request with
  | supply position supplied => exact absurd rfl (unsupplied position supplied)
  | _ => rfl

end Request

section Providers

variable {providers : List Provider}

/-- Where a provider fails, one is the first to do so. The induction is on the providers: the first
one fails, or it supplies a layer and is put in front of those that do so before the failure. -/
theorem Provider.first_failing
    (fails : ∃ provider ∈ providers, ∃ causes, provider.supply = .error causes) :
    ∃ failing causes, FirstFailing providers failing causes := by
  induction providers with
  | nil =>
    obtain ⟨provider, member, -⟩ := fails
    cases member
  | cons provider rest inductionHypothesis =>
    cases supplied : provider.supply with
    | error causes =>
      refine ⟨provider, causes, [], rest, rfl, ?_, supplied⟩
      exact List.forall_mem_nil _
    | ok layer =>
      obtain ⟨failing, member, causes, failed⟩ := fails
      have inRest : failing ∈ rest := by
        rcases List.mem_cons.mp member with rfl | inRest
        · rw [supplied] at failed
          cases failed
        · exact inRest
      obtain ⟨first, causes, before, behind, rfl, all, failed⟩ :=
        inductionHypothesis ⟨failing, inRest, causes, failed⟩
      refine ⟨first, causes, provider :: before, behind, rfl, ?_, failed⟩
      exact List.forall_mem_cons.mpr ⟨⟨layer, supplied⟩, all⟩

/-- The layers of providers that do not fail are put on, and of the layers that bind a name the
latest is on top. The induction is on the providers, from any scope. -/
theorem Scope.provided_all (scope : Scope) (all : Provider.AllSupply providers) :
    ∃ reached, scope.provided providers = .ok reached ∧ ∀ name,
      reached.lookup? name =
        (providers.reverse.findSome? (·.value? name)).or (scope.lookup? name) := by
  induction providers generalizing scope with
  | nil => exact ⟨scope, rfl, fun _ => rfl⟩
  | cons provider rest inductionHypothesis =>
    obtain ⟨⟨layer, supplied⟩, inRest⟩ := List.forall_mem_cons.mp all
    obtain ⟨reached, provided, found⟩ := inductionHypothesis (scope.push layer) inRest
    refine ⟨reached, ?_, ?_⟩
    · simp only [Scope.provided, Provider.provide, supplied]
      exact provided
    · -- What is below the rest of the layers is this one, and the scope below it.
      intro name
      have value : provider.value? name = Dict.get? layer name := by
        rw [Provider.value?, supplied]
      rw [found, lookup?_push, List.reverse_cons, List.findSome?_append,
        List.findSome?_singleton, value, Option.or_assoc]

/-- The first provider that fails decides, whatever those behind it would supply. They are not
asked, so they may fail as well. -/
theorem Scope.provided_failing (scope : Scope) {failing : Provider} {causes : List String}
    (first : Provider.FirstFailing providers failing causes) :
    scope.provided providers =
      .error (.provider failing.name (String.intercalate ": " causes.reverse)) := by
  obtain ⟨before, behind, rfl, all, failed⟩ := first
  induction before generalizing scope with
  | nil => simp only [List.nil_append, provided, Provider.provide, failed]
  | cons provider rest inductionHypothesis =>
    obtain ⟨⟨layer, supplied⟩, inRest⟩ := List.forall_mem_cons.mp all
    simp only [List.cons_append, provided, Provider.provide, supplied]
    exact inductionHypothesis (scope.push layer) inRest

end Providers

/-- A piece has nothing in it that does not matter where everything does. -/
theorem Node.Piece.within_all (piece : Piece) :
    piece.Within (fun _ => True) (fun _ => True) := by
  cases piece with
  | text s => trivial
  | expression e => exact fun _ _ => trivial
  | embedded template => trivial

/-- A library agrees with itself, if everything matters. -/
theorem Library.agree_all (library : Library) :
    Library.Agree (fun _ => True) (fun _ => True) library library where
  same := fun _ _ => rfl
  closed := fun _ _ _ _ piece _ => piece.within_all

namespace Engine

variable {engine : Engine}

/-- Only a request that brings a provider, or news of one, changes the providers. The cases are
those of the requests; those that resolve or render leave everything but the cache as it is. -/
theorem perform_providers (sound : engine.Sound) (request : Request) :
    (engine.perform request).2.providers = request.arrange engine.providers := by
  by_cases resolves : request.Resolves
  · obtain ⟨cache, performed⟩ := perform_cached sound resolves
    rw [performed]
    cases request with
    | resolve name => exact (List.append_nil _).symm
    | render name bindings => exact (List.append_nil _).symm
    | renderValue name value => exact (List.append_nil _).symm
    | _ => exact resolves.elim
  · cases request with
    | register name source =>
      simp only [perform, register, Request.arrange, Request.added, Option.toList, List.append_nil]
      cases engine.registry.register name source <;> rfl
    | insert name trim source =>
      simp only [perform, Request.arrange, Request.added, Option.toList, List.append_nil]
      cases Template.ofSource name trim source <;> rfl
    | remove name => exact (List.append_nil _).symm
    | load root => exact (List.append_nil _).symm
    | addGlobal name value => rfl
    | addProvider provider => rfl
    | supply position supplied => rfl
    | _ => exact absurd trivial resolves

/-- The providers stand in the order in which they were added. If nothing new is supplied meanwhile,
they are those that were added; the induction is on the requests. -/
theorem providers_after (sound : engine.Sound) (requests : List Request) :
    (engine.after requests).providers.map Provider.name =
        (engine.providers ++ requests.filterMap Request.added).map Provider.name ∧
      ((∀ position supplied, .supply position supplied ∉ requests) →
        (engine.after requests).providers =
          engine.providers ++ requests.filterMap Request.added) := by
  induction requests generalizing engine with
  | nil => simp [after]
  | cons request rest inductionHypothesis =>
    obtain ⟨names, same⟩ := inductionHypothesis (sound_perform sound request)
    rw [perform_providers sound] at names same
    have added : (request :: rest).filterMap Request.added =
        request.added.toList ++ rest.filterMap Request.added := by
      rw [List.filterMap_cons]
      cases request.added <;> rfl
    rw [added, ← List.append_assoc]
    constructor
    · rw [List.map_append, ← Request.names_arranged, ← List.map_append]
      exact names
    · intro unsupplied
      obtain ⟨here, later⟩ : (∀ position supplied, request ≠ .supply position supplied) ∧
          ∀ position supplied, .supply position supplied ∉ rest := by
        constructor
        · rintro position supplied rfl
          exact unsupplied position supplied List.mem_cons_self
        · intro position supplied member
          exact unsupplied position supplied (List.mem_cons_of_mem _ member)
      rw [← Request.arrange_added here]
      exact same later

/-- If the template cannot be resolved, that is the answer, whatever the providers do. They are not
asked before it is resolved. -/
theorem render_unresolved {name : String} {fault : Fault}
    (unresolved : (engine.resolve name).1 = .error fault) (providers : List Provider)
    (bindings : Layer) :
    ({ engine with providers }.render name bindings).1 = .error fault := by
  have failed : ({ engine with providers }.resolve name).1 = .error fault := unresolved
  unfold render
  generalize { engine with providers }.resolve name = outcome at failed ⊢
  obtain ⟨result, found⟩ := outcome
  obtain rfl : result = .error fault := failed
  rfl

/-- What is resolved is what the library holds, since the engine is sound. -/
theorem library_of_resolved (sound : engine.Sound) {name : String} {copy : Copy}
    (resolved : (engine.resolve name).1 = .ok copy) :
    library engine.settings engine.registry name = .ok copy.flattened := by
  rw [← (resolve_answers sound name).1, resolved]
  rfl

/-- If the template can be resolved, the first provider that fails decides. No node is told, so what
is in the template does not matter. -/
theorem render_unprovided (sound : engine.Sound) {name : String} {copy : Copy}
    (resolved : (engine.resolve name).1 = .ok copy) {failing : Provider} {causes : List String}
    (first : Provider.FirstFailing engine.providers failing causes) (bindings : Layer) :
    (engine.render name bindings).1 =
      .error (.provider failing.name (String.intercalate ": " causes.reverse)) := by
  rw [(render_answers sound name bindings).1, answer, library_of_resolved sound resolved,
    Scope.assemble, Scope.provided_failing _ first]
  rfl

/-- If no provider fails either, the nodes of the template are told in a scope that binds every name
as the engine does. That any scope of this kind will do is because the text depends on nothing else
about the scope. -/
theorem render_provided (sound : engine.Sound) {name : String} {copy : Copy}
    (resolved : (engine.resolve name).1 = .ok copy)
    (all : Provider.AllSupply engine.providers) (bindings : Layer) :
    (∃ scope, Scope.assemble engine.providers bindings = .ok scope ∧
      ∀ sought, scope.lookup? sought = engine.binding? bindings sought) ∧
    ∀ scope : Scope, (∀ sought, scope.lookup? sought = engine.binding? bindings sought) →
      (engine.render name bindings).1 =
        (Stencil.render (Store.shelf engine.registry engine.settings.maxDepth)
          engine.settings.maxDepth engine.settings.autoescape copy.flattened.nodes
          ⟨scope, [], ()⟩).1 := by
  obtain ⟨below, provided, found⟩ := Scope.provided_all .empty all
  have assembled : Scope.assemble engine.providers bindings = .ok (below.push bindings) := by
    rw [Scope.assemble, provided]
    rfl
  have bound (sought : String) :
      (below.push bindings).lookup? sought = engine.binding? bindings sought := by
    have unbound : Scope.empty.lookup? sought = none := rfl
    rw [Scope.lookup?_push, found, unbound, Option.or_none, binding?]
  refine ⟨⟨below.push bindings, assembled, bound⟩, ?_⟩
  -- The layers do not count, only what the names in them stand for.
  intro scope boundThere
  have agree : scope.Agree (fun _ => True) (below.push bindings) := by
    intro sought _
    rw [Scope.lookup, Scope.lookup, bound, boundThere]
  obtain ⟨_, -, told⟩ := Rendering.render_wording
    (Store.shelf_answers engine.registry engine.settings.maxDepth) engine.settings.maxDepth
    engine.settings.autoescape copy.flattened.nodes ⟨scope, [], ()⟩ trivial
  rw [(render_answers sound name bindings).1, answer, library_of_resolved sound resolved, assembled,
    told]
  exact say_agree _ (Library.agree_all _) _ [] (fun piece _ => piece.within_all) agree

/-- What comes first in a rendering is fixed. Take any engine in use, any name and any variables.

The providers are those that were added, in the order in which they were. If the name cannot be
resolved, that fault is the answer, whatever the providers do. If it can, and some provider fails,
the answer is the failure of the first that does, whatever the template is. If none does, the
template is told in a scope in which a name stands for what the variables say, else for what the
latest provider says that supplies it, and else is unbound; any scope like this will do.

A rendering, whether it fails or not, leaves the templates, the providers and the settings as they
are, and no later reply tells that it took place: with it and without it all replies have the same
content, and of the copies in them the same ones are equal to each other and to those that were
made before. -/
theorem precedence_fixed (settings : Settings) (requests : List Request) (name : String)
    (bindings : Layer) :
    let engine := (new settings).after requests
    let after := (engine.render name bindings).2
    (engine.providers.map Provider.name = (requests.filterMap Request.added).map Provider.name ∧
      ((∀ position supplied, .supply position supplied ∉ requests) →
        engine.providers = requests.filterMap Request.added)) ∧
    (∀ fault, (engine.resolve name).1 = .error fault → ∀ providers,
      ({ engine with providers }.render name bindings).1 = .error fault) ∧
    (∀ copy, (engine.resolve name).1 = .ok copy →
      ((∃ provider ∈ engine.providers, ∃ causes, provider.supply = .error causes) →
        ∃ failing causes, Provider.FirstFailing engine.providers failing causes ∧
          (engine.render name bindings).1 =
            .error (.provider failing.name (String.intercalate ": " causes.reverse))) ∧
      (Provider.AllSupply engine.providers →
        (∃ scope, Scope.assemble engine.providers bindings = .ok scope ∧
          ∀ sought, scope.lookup? sought = engine.binding? bindings sought) ∧
        ∀ scope : Scope, (∀ sought, scope.lookup? sought = engine.binding? bindings sought) →
          (engine.render name bindings).1 =
            (Stencil.render (Store.shelf engine.registry settings.maxDepth) settings.maxDepth
              settings.autoescape copy.flattened.nodes ⟨scope, [], ()⟩).1)) ∧
    after.registry = engine.registry ∧ after.providers = engine.providers ∧
    after.settings = engine.settings ∧
    ∀ later, ∃ tie : Nat → Nat → Prop, Relator.BiUnique tie ∧
      (∀ serial ≤ engine.cache.issued, tie serial serial) ∧
      List.Forall₂ (Reply.Alike tie) (engine.replies later) (after.replies later) := by
  intro engine after
  have sound : engine.Sound := sound_after (sound_new settings) requests
  have orderly : engine.cache.Orderly engine.registry :=
    orderly_after (sound_new settings) (Cache.orderly_empty _) requests
  have same : engine.settings = settings := settings_after _ requests
  obtain ⟨cache, rendered⟩ := render_cached sound name bindings
  have left : after = { engine with cache } := rendered
  refine ⟨?_, ?_, ?_, ?_, ?_, ?_, ?_⟩
  · exact providers_after (sound_new settings) requests
  · exact fun fault unresolved providers => render_unresolved unresolved providers bindings
  -- Resolved, the name leaves it to the providers: either one of them is the first that fails, or
  -- all of them supply a layer.
  · intro copy resolved
    constructor
    · intro fails
      obtain ⟨failing, causes, first⟩ := Provider.first_failing fails
      exact ⟨failing, causes, first, render_unprovided sound resolved first bindings⟩
    · intro all
      have told := render_provided sound resolved all bindings
      rw [same] at told
      exact told
  · rw [left]
  · rw [left]
  · rw [left]
  -- The rendering may have taken serial numbers, so copies that are made later have other ones with
  -- it than without it. They are tied in pairs, and each number from before is tied to itself.
  · intro later
    obtain ⟨tie, wide, oneToOne, alike⟩ := (twins_render sound orderly name bindings).replies later
    exact ⟨tie, oneToOne, fun serial bound => wide serial serial ⟨rfl, bound⟩, alike⟩

/-- A name is told that a global binds and a provider behind it as well. With two providers more
that fail the first of them is the answer, but not to a rendering of what is absent. -/
theorem precedence_fixed_line :
    let requests : List Request := [.register "line" lineTemplate.source,
      .addGlobal "name" (.text "A"), .addProvider ⟨"names", .ok [("name", .text "B")]⟩]
    let more : List Request := requests ++ [.addProvider ⟨"clock", .error ["stopped", "no time"]⟩,
      .addProvider ⟨"news", .error ["none"]⟩]
    let engine := (new {}).after requests
    let failing := (new {}).after more
    let copy : Copy := ⟨1, ⟨"line", [("line", 1)], lineTemplate.nodes⟩⟩
    (∀ position supplied, .supply position supplied ∉ more) ∧
      failing.providers = more.filterMap Request.added ∧
      (failing.resolve "absent").1 = .error (.notFound "absent") ∧
      (failing.render "absent" []).1 = .error (.notFound "absent") ∧
      (failing.resolve "line").1 = .ok copy ∧
      (∃ provider ∈ failing.providers, ∃ causes, provider.supply = .error causes) ∧
      (failing.render "line" []).1 = .error (.provider "clock" "no time: stopped") ∧
      (engine.resolve "line").1 = .ok copy ∧ Provider.AllSupply engine.providers ∧
      (engine.render "line" []).1 = .ok "B" := by
  have line : Template.ofSource "line" false lineTemplate.source = .ok lineTemplate := by
    decide +kernel
  intro requests more engine failing copy
  have unsupplied (position : Nat) (supplied : Except (List String) Layer) :
      .supply position supplied ∉ more := by
    simp [more, requests]
  obtain ⟨⟨-, ordered⟩, unresolved, -⟩ := precedence_fixed {} more "absent" []
  obtain ⟨-, -, failed, -⟩ := precedence_fixed {} more "line" []
  obtain ⟨-, -, told, -⟩ := precedence_fixed {} requests "line" []
  have state : engine = ⟨{}, ⟨[("line", ⟨lineTemplate, 1⟩)], 1, false⟩, .empty,
      [.global "name" (.text "A"), ⟨"names", .ok [("name", .text "B")]⟩]⟩ := by
    simp only [engine, requests, after, List.foldl, perform, register, new, Registry.register,
      Registry.empty, Registry.insert, line, Except.map]
    rfl
  have failingState : failing = ⟨{}, ⟨[("line", ⟨lineTemplate, 1⟩)], 1, false⟩, .empty,
      [.global "name" (.text "A"), ⟨"names", .ok [("name", .text "B")]⟩,
        ⟨"clock", .error ["stopped", "no time"]⟩, ⟨"news", .error ["none"]⟩]⟩ := by
    simp only [failing, more, requests, List.cons_append, List.nil_append, after, List.foldl,
      perform, register, new, Registry.register, Registry.empty, Registry.insert, line, Except.map]
    rfl
  have absent : (failing.resolve "absent").1 = .error (.notFound "absent") := by
    rw [failingState]
    decide +kernel
  have resolvedFailing : (failing.resolve "line").1 = .ok copy := by
    rw [failingState]
    delta resolve obtain Cache.fetch Cache.renew Cache.issue
    rw [Flattened.ofLeaf_eq_inRounds]
    decide +kernel
  have resolved : (engine.resolve "line").1 = .ok copy := by
    rw [state]
    delta resolve obtain Cache.fetch Cache.renew Cache.issue
    rw [Flattened.ofLeaf_eq_inRounds]
    decide +kernel
  have first : Provider.FirstFailing failing.providers ⟨"clock", .error ["stopped", "no time"]⟩
      ["stopped", "no time"] := by
    rw [failingState]
    refine ⟨[.global "name" (.text "A"), ⟨"names", .ok [("name", .text "B")]⟩],
      [⟨"news", .error ["none"]⟩], rfl, ?_, rfl⟩
    simp [Provider.AllSupply, Provider.global]
  have fails : ∃ provider ∈ failing.providers, ∃ causes, provider.supply = .error causes := by
    obtain ⟨before, behind, split, -, failed⟩ := first
    rw [split]
    exact ⟨_, List.mem_append_right _ List.mem_cons_self, _, failed⟩
  have all : Provider.AllSupply engine.providers := by
    rw [state]
    simp [Provider.AllSupply, Provider.global]
  have clock : (failing.render "line" []).1 = .error (.provider "clock" "no time: stopped") := by
    obtain ⟨other, causes, firstToo, answered⟩ := (failed copy resolvedFailing).1 fails
    have same := (Scope.provided_failing .empty firstToo).symm.trans
      (Scope.provided_failing .empty first)
    rw [answered, Except.error.inj same]
    rfl
  have spoken : (engine.render "line" []).1 = .ok "B" := by
    obtain ⟨⟨scope, assembled, bound⟩, anywhere⟩ := (told copy resolved).2 all
    change Scope.assemble engine.providers [] = .ok scope at assembled
    rw [anywhere scope bound]
    change (Stencil.render (Store.shelf engine.registry 64) 64 true _ _).1 = _
    rw [state] at assembled ⊢
    obtain rfl := Except.ok.inj assembled
    rfl
  exact ⟨unsupplied, ordered unsupplied, absent, unresolved _ absent failing.providers,
    resolvedFailing, fails, clock, resolved, all, spoken⟩

end Engine

end Stencil
