import Stencil.Directory.Loading
import Stencil.Proofs.Caching

/-!
# Requests to an engine

An engine is used by requests, one behind the other. The directories that are loaded and what
providers supply come from outside, so a request brings them along. A reply tells all that the
engine answers; copies of flattened templates are told apart by their serial numbers, and the
content of a reply leaves those numbers out.

Two engines that differ only in whether they use their cache are in step: after any requests
they have the same templates, providers and settings otherwise, and each is sound. From there
every request has a reply of the same content.
-/

namespace Stencil

/-- A request to an engine. What comes from outside is a part of it, so the reply to a request
depends on the engine and on the request alone. -/
inductive Request where
  | register (name source : String)
  /-- Keep a template that has been read on its own, with its own choice of `trim`. -/
  | insert (name : String) (trim : Bool) (source : String)
  | remove (name : String)
  /-- Load a directory that looks like this at the time, if it is there. -/
  | load (root : Option Tree)
  | addGlobal (name : String) (value : Value)
  | addProvider (provider : Provider)
  /-- From now on the provider at a position supplies something else. -/
  | supply (position : Nat) (supplied : Except (List String) Layer)
  | resolve (name : String)
  | render (name : String) (bindings : Layer)
  | renderValue (name : String) (value : Value)

/-- What an engine answers. Each request has its own kind of answer; a failure is an answer like any
other, so a run goes on behind it. -/
inductive Reply where
  | done
  | refused (refusal : Malformed)
  /-- Whether there was a template to remove. -/
  | removed (known : Bool)
  | loaded (count : Nat)
  | resolved (outcome : Except Fault Copy)
  | rendered (outcome : Except Fault String)

/-- A reply without the number that tells its copy from others of the same content. All other
replies are their own content. -/
def Reply.content : Reply → Reply
  | .resolved outcome => .resolved (outcome.map fun copy => { copy with serial := 0 })
  | reply => reply

namespace Engine

/-- The reply to a request, and the engine afterwards. A source that is refused leaves the engine as
it was. What a provider is going to supply may change between requests, since it is asked anew for
each rendering. -/
def perform (engine : Engine) : Request → Reply × Engine
  | .register name source =>
    match engine.register name source with
    | .ok changed => (.done, changed)
    | .error refusal => (.refused refusal, engine)
  | .insert name trim source =>
    match Template.ofSource name trim source with
    | .ok template => (.done, engine.insert template)
    | .error refusal => (.refused refusal, engine)
  | .remove name => (.removed (engine.registry.contains name), engine.remove name)
  | .load root =>
    let (count, registry) := Loading.load engine.settings.extensions root engine.registry
    (.loaded count, { engine with registry })
  | .addGlobal name value => (.done, engine.addGlobal name value)
  | .addProvider provider => (.done, engine.addProvider provider)
  | .supply position supplied =>
    let providers := engine.providers.modify position fun provider =>
      { provider with supply := supplied }
    (.done, { engine with providers })
  | .resolve name =>
    let (outcome, after) := engine.resolve name
    (.resolved outcome, after)
  | .render name bindings =>
    let (outcome, after) := engine.render name bindings
    (.rendered outcome, after)
  | .renderValue name value =>
    let (outcome, after) := engine.renderValue name value
    (.rendered outcome, after)

/-- The replies to requests one behind the other. Each request is made to the engine that the one
before it has left, also where that one failed. -/
def replies (engine : Engine) : List Request → List Reply
  | [] => []
  | request :: rest =>
    let (reply, after) := engine.perform request
    reply :: replies after rest

/-- The engine after requests one behind the other. It is told apart from the replies, so that what
holds of engines at any time can be stated of it. -/
def after (engine : Engine) (requests : List Request) : Engine :=
  requests.foldl (fun engine request => (engine.perform request).2) engine

/-- Two engines that differ in nothing but the use of their cache and what is in it. Both are sound,
which is what makes the difference invisible. -/
structure InStep (first second : Engine) : Prop where
  registry : first.registry = second.registry
  providers : first.providers = second.providers
  settings : { first.settings with cacheResolved := second.settings.cacheResolved } =
    second.settings
  firstSound : first.Sound
  secondSound : second.Sound

namespace InStep

variable {first second : Engine}

/-- They go to the same depth. -/
theorem depth (inStep : InStep first second) :
    first.settings.maxDepth = second.settings.maxDepth := by
  have same := congrArg Settings.maxDepth inStep.settings
  exact same

/-- Both escape what they put in, or neither does. -/
theorem escaping (inStep : InStep first second) :
    first.settings.autoescape = second.settings.autoescape := by
  have same := congrArg Settings.autoescape inStep.settings
  exact same

/-- Both load files of the same extensions. -/
theorem extensions (inStep : InStep first second) :
    first.settings.extensions = second.settings.extensions := by
  have same := congrArg Settings.extensions inStep.settings
  exact same

/-- Engines that get the same templates stay in step. Each of them stays sound as long as the
registry goes forward, and in which way does not matter. -/
theorem changed (inStep : InStep first second) {registry : Registry}
    (reaches : first.registry.Reaches registry) :
    InStep { first with registry } { second with registry } where
  registry := rfl
  providers := inStep.providers
  settings := inStep.settings
  firstSound := inStep.firstSound.later reaches
  secondSound := inStep.secondSound.later (inStep.registry ▸ reaches)

/-- Engines that get the same providers stay in step. -/
theorem provided (inStep : InStep first second) (providers : List Provider) :
    InStep { first with providers } { second with providers } where
  registry := inStep.registry
  providers := rfl
  settings := inStep.settings
  firstSound := ⟨inStep.firstSound.consistent, inStep.firstSound.cached⟩
  secondSound := ⟨inStep.secondSound.consistent, inStep.secondSound.cached⟩

/-- Engines that change their caches alone stay in step as long as they are sound. What the two
caches hold need not be related. -/
theorem cached (inStep : InStep first second) {firstCache secondCache : Cache}
    (firstSound : Sound { first with cache := firstCache })
    (secondSound : Sound { second with cache := secondCache }) :
    InStep { first with cache := firstCache } { second with cache := secondCache } where
  registry := inStep.registry
  providers := inStep.providers
  settings := inStep.settings
  firstSound := firstSound
  secondSound := secondSound

/-- They have one library, since it is made from the settings and the registry and not from the
cache. -/
theorem library_eq (inStep : InStep first second) :
    library first.settings first.registry = library second.settings second.registry := by
  unfold library
  rw [inStep.registry, inStep.depth]

/-- Engines in step resolve a template to the same content. What is handed out is what the registry
is flattened to, from the cache or anew. -/
theorem resolve (inStep : InStep first second) (name : String) :
    (first.resolve name).1.map (·.flattened) = (second.resolve name).1.map (·.flattened) ∧
      InStep (first.resolve name).2 (second.resolve name).2 := by
  obtain ⟨content, _, resolved, sound⟩ := resolve_answers inStep.firstSound name
  obtain ⟨otherContent, _, otherResolved, otherSound⟩ := resolve_answers inStep.secondSound name
  rw [content, otherContent, inStep.library_eq, resolved, otherResolved]
  exact ⟨rfl, inStep.cached sound otherSound⟩

/-- Engines in step render a template to the same text. Embedded templates are resolved on the way,
and so the caches may differ more than before. -/
theorem render (inStep : InStep first second) (name : String) (bindings : Layer) :
    (first.render name bindings).1 = (second.render name bindings).1 ∧
      InStep (first.render name bindings).2 (second.render name bindings).2 := by
  obtain ⟨text, _, rendered, sound⟩ := render_answers inStep.firstSound name bindings
  obtain ⟨otherText, _, otherRendered, otherSound⟩ :=
    render_answers inStep.secondSound name bindings
  rw [text, otherText, rendered, otherRendered]
  refine ⟨?_, inStep.cached sound otherSound⟩
  unfold answer
  rw [inStep.library_eq, inStep.providers, inStep.depth, inStep.escaping]

end InStep

/-- Copies of the same content make replies of the same content, whatever their serial numbers
are. -/
theorem content_resolved {outcome other : Except Fault Copy}
    (same : outcome.map (·.flattened) = other.map (·.flattened)) :
    (Reply.resolved outcome).content = (Reply.resolved other).content := by
  cases outcome <;> cases other <;> simp_all [Except.map, Reply.content]

/-- Engines in step reply to a request with the same content and stay in step. The cases are those
of the requests: most of them change what both have alike, and the others resolve or render. -/
theorem perform_in_step {first second : Engine} (inStep : InStep first second)
    (request : Request) :
    (first.perform request).1.content = (second.perform request).1.content ∧
      InStep (first.perform request).2 (second.perform request).2 := by
  cases request with
  | register name source =>
    simp only [perform, register, ← inStep.registry]
    cases registered : first.registry.register name source with
    | error refusal => exact ⟨rfl, inStep⟩
    | ok changed => exact ⟨rfl, inStep.changed (Registry.reaches_register registered)⟩
  | insert name trim source =>
    -- The source is read before the registry is asked, so both engines refuse it or neither does.
    simp only [perform, insert]
    cases read : Template.ofSource name trim source with
    | error refusal => exact ⟨rfl, inStep⟩
    | ok template =>
      have changed := inStep.changed (Registry.Reaches.refl.insert read)
      exact ⟨rfl, inStep.registry ▸ changed⟩
  | remove name =>
    simp only [perform, remove, ← inStep.registry]
    exact ⟨trivial, inStep.changed (Registry.Reaches.refl.remove name)⟩
  | load root =>
    simp only [perform, ← inStep.registry, ← inStep.extensions]
    exact ⟨trivial, inStep.changed (Registry.reaches_load _ root _)⟩
  | addGlobal name value =>
    simp only [perform, addGlobal, addProvider, ← inStep.providers]
    exact ⟨trivial, inStep.provided _⟩
  | addProvider provider =>
    simp only [perform, addProvider, ← inStep.providers]
    exact ⟨trivial, inStep.provided _⟩
  | supply position supplied =>
    simp only [perform, ← inStep.providers]
    exact ⟨trivial, inStep.provided _⟩
  | resolve name =>
    obtain ⟨same, stays⟩ := inStep.resolve name
    exact ⟨content_resolved same, stays⟩
  | render name bindings =>
    obtain ⟨same, stays⟩ := inStep.render name bindings
    exact ⟨congrArg (fun text => (Reply.rendered text).content) same, stays⟩
  | renderValue name value =>
    simp only [perform, renderValue]
    cases Layer.ofValue value with
    | error fault => exact ⟨rfl, inStep⟩
    | ok bindings =>
      obtain ⟨same, stays⟩ := inStep.render name bindings
      exact ⟨congrArg (fun text => (Reply.rendered text).content) same, stays⟩

/-- Rendering leaves the settings as they are, also where it fails. It changes the cache, and
nothing else of the engine. -/
theorem render_settings (engine : Engine) (name : String) (bindings : Layer) :
    (engine.render name bindings).2.settings = engine.settings := by
  have resolved : (engine.resolve name).2.settings = engine.settings := rfl
  unfold render
  generalize engine.resolve name = outcome at resolved ⊢
  obtain ⟨result, found⟩ := outcome
  cases result with
  | error fault => exact resolved
  | ok copy =>
    cases assembled : Scope.assemble found.providers bindings <;> simp only [assembled]
    · exact resolved
    · exact resolved

/-- No request changes the settings. The cases are those of the requests, and those that resolve or
render change the cache at most. -/
theorem perform_settings (engine : Engine) (request : Request) :
    (engine.perform request).2.settings = engine.settings := by
  cases request with
  | register name source =>
    simp only [perform, register]
    cases engine.registry.register name source <;> rfl
  | insert name trim source =>
    simp only [perform]
    cases Template.ofSource name trim source <;> rfl
  | remove name => rfl
  | load root => rfl
  | addGlobal name value => rfl
  | addProvider provider => rfl
  | supply position supplied => rfl
  | resolve name => rfl
  | render name bindings => exact render_settings engine name bindings
  | renderValue name value =>
    simp only [perform, renderValue]
    cases Layer.ofValue value with
    | error fault => rfl
    | ok bindings => exact render_settings engine name bindings

/-- A sound engine stays sound. It is in step with itself. -/
theorem sound_perform {engine : Engine} (sound : engine.Sound) (request : Request) :
    (engine.perform request).2.Sound := by
  have inStep : InStep engine engine := ⟨rfl, rfl, rfl, sound, sound⟩
  exact (perform_in_step inStep request).2.firstSound

/-- A sound engine is sound after any requests. -/
theorem sound_after {engine : Engine} (sound : engine.Sound) (requests : List Request) :
    (engine.after requests).Sound := by
  induction requests generalizing engine with
  | nil => exact sound
  | cons request rest inductionHypothesis =>
    exact inductionHypothesis (sound_perform sound request)

/-- Requests leave the settings as they are. -/
theorem settings_after (engine : Engine) (requests : List Request) :
    (engine.after requests).settings = engine.settings := by
  induction requests generalizing engine with
  | nil => rfl
  | cons request rest inductionHypothesis =>
    exact (inductionHypothesis _).trans (perform_settings engine request)

/-- Engines in step reply to any requests with the same content. The induction is on the requests,
and what one of them keeps carries it. -/
theorem replies_in_step {first second : Engine} (inStep : InStep first second)
    (requests : List Request) :
    (first.replies requests).map Reply.content = (second.replies requests).map Reply.content := by
  induction requests generalizing first second with
  | nil => rfl
  | cons request rest inductionHypothesis =>
    obtain ⟨same, stays⟩ := perform_in_step inStep request
    simp only [replies, List.map_cons]
    rw [same, inductionHypothesis stays]

/-- The cache of flattened templates cannot be seen. Whatever the settings are otherwise, an
engine that uses its cache and one that does not reply to any requests with the same content:
templates that are resolved have the same name, lineage and nodes, texts that are rendered are the
same, and so are all faults. -/
theorem cache_invisible (settings : Settings) (requests : List Request) :
    ((new { settings with cacheResolved := true }).replies requests).map Reply.content =
      ((new { settings with cacheResolved := false }).replies requests).map Reply.content := by
  have inStep : InStep (new { settings with cacheResolved := true })
      (new { settings with cacheResolved := false }) :=
    ⟨rfl, rfl, rfl, sound_new _, sound_new _⟩
  exact replies_in_step inStep requests

end Engine

end Stencil
