import Stencil.Proofs.Lasting
import Stencil.Proofs.Requests
import Stencil.Proofs.Rounds

/-!
# Engines with more depth

One setting of an engine limits both the length of a lineage and the depth of embedding. Two
engines that differ in nothing but this setting and what is in their caches get the same requests:
where the one with less depth replies with something else than a cycle, the other one replies with
the same. The caches of the two drift apart, since the engine with more depth resolves templates
that the other one fails to resolve, but as both are sound they do not show.
-/

namespace Stencil

/-- A request that makes an engine resolve a template. Other requests leave the cache alone, and so
their replies cannot depend on how deep the engine may go. -/
def Request.Resolves : Request → Prop
  | .resolve _ | .render _ _ | .renderValue _ _ => True
  | _ => False

/-- A reply that tells of a cycle. It is the one fault that depends on how deep an engine may go,
both for chains of parents and for templates that are embedded in one another. -/
def Reply.IsCycle : Reply → Prop
  | .resolved outcome => Stencil.IsCycle outcome
  | .rendered outcome => Stencil.IsCycle outcome
  | _ => False

namespace Engine

/-- Where no template is resolved, a request hangs neither on the cache nor on a setting but the
extensions of files, and leaves them as they are. The cases are those of the requests. -/
theorem perform_frame (engine : Engine) {request : Request} (apart : ¬request.Resolves)
    (settings : Settings) (cache : Cache)
    (extensions : settings.extensions = engine.settings.extensions) :
    { engine with settings, cache }.perform request =
      ((engine.perform request).1, { (engine.perform request).2 with settings, cache }) := by
  cases request with
  | register name source =>
    simp only [perform, register]
    cases engine.registry.register name source <;> rfl
  | insert name trim source =>
    simp only [perform]
    cases Template.ofSource name trim source <;> rfl
  | remove name => rfl
  | load root => simp only [perform, extensions]
  | addGlobal name value => rfl
  | addProvider provider => rfl
  | supply position supplied => rfl
  | resolve name => exact absurd trivial apart
  | render name bindings => exact absurd trivial apart
  | renderValue name value => exact absurd trivial apart

/-- Rendering changes the cache and nothing else of a sound engine, whether it fails or not. -/
theorem render_cached {engine : Engine} (sound : engine.Sound) (name : String)
    (bindings : Layer) : ∃ cache, (engine.render name bindings).2 = { engine with cache } := by
  obtain ⟨-, cache, rendered, -⟩ := render_answers sound name bindings
  exact ⟨cache, rendered⟩

/-- Where a template is resolved, nothing but the cache changes. That the engine is sound is needed
for what is embedded, which is resolved along the way. -/
theorem perform_cached {engine : Engine} (sound : engine.Sound) {request : Request}
    (resolves : request.Resolves) :
    ∃ cache, (engine.perform request).2 = { engine with cache } := by
  cases request with
  | resolve name => exact ⟨_, rfl⟩
  | render name bindings => exact render_cached sound name bindings
  | renderValue name value =>
    simp only [perform, renderValue]
    cases Layer.ofValue value with
    | error fault => exact ⟨engine.cache, rfl⟩
    | ok bindings => exact render_cached sound name bindings
  | _ => exact resolves.elim

/-- Two engines that hold the same templates and have the same providers, and that load the same
files. They may differ in their other settings and in what is in their caches. -/
structure Alike (first second : Engine) : Prop where
  registry : first.registry = second.registry
  providers : first.providers = second.providers
  extensions : second.settings.extensions = first.settings.extensions
  firstSound : first.Sound
  secondSound : second.Sound

namespace Alike

variable {first second : Engine}

/-- The second of two engines that are alike is the first with settings and a cache of its own. This
is the form in which one reply can be compared with the other. -/
theorem second_eq (alike : Alike first second) :
    second = { first with settings := second.settings, cache := second.cache } := by
  rw [alike.registry, alike.providers]

/-- Engines stay alike whatever is requested: what they are alike in does not hang on the cache.
Where a template is resolved nothing but the caches changes, and elsewhere both do the same. -/
theorem perform (alike : Alike first second) (request : Request) :
    Alike (first.perform request).2 (second.perform request).2 := by
  obtain ⟨registry, providers⟩ :
      (first.perform request).2.registry = (second.perform request).2.registry ∧
        (first.perform request).2.providers = (second.perform request).2.providers := by
    by_cases resolves : request.Resolves
    · obtain ⟨cache, performed⟩ := perform_cached alike.firstSound resolves
      obtain ⟨otherCache, otherPerformed⟩ := perform_cached alike.secondSound resolves
      rw [performed, otherPerformed]
      exact ⟨alike.registry, alike.providers⟩
    · rw [alike.second_eq, perform_frame first resolves _ _ alike.extensions]
      exact ⟨rfl, rfl⟩
  refine ⟨registry, providers, ?_, ?_, ?_⟩
  · rw [perform_settings, perform_settings]
    exact alike.extensions
  · exact sound_perform alike.firstSound request
  · exact sound_perform alike.secondSound request

/-- So it is after requests one behind the other. -/
theorem after (alike : Alike first second) (requests : List Request) :
    Alike (first.after requests) (second.after requests) := by
  induction requests generalizing first second with
  | nil => exact alike
  | cons request rest inductionHypothesis => exact inductionHypothesis (alike.perform request)

end Alike

/-- The second engine differs from the first in nothing but its cache and in that it goes at least
as deep. Both are sound, so their caches say nothing that the registry does not. -/
structure Deeper (shallow deep : Engine) : Prop where
  registry : shallow.registry = deep.registry
  providers : shallow.providers = deep.providers
  settings : { shallow.settings with maxDepth := deep.settings.maxDepth } = deep.settings
  depth : shallow.settings.maxDepth ≤ deep.settings.maxDepth
  shallowSound : shallow.Sound
  deepSound : deep.Sound

namespace Deeper

variable {shallow deep : Engine}

/-- Both escape what they put in, or neither does. -/
theorem escaping (deeper : Deeper shallow deep) :
    shallow.settings.autoescape = deep.settings.autoescape := by
  have same := congrArg Settings.autoescape deeper.settings
  exact same

/-- Both load files of the same extensions. -/
theorem extensions (deeper : Deeper shallow deep) :
    deep.settings.extensions = shallow.settings.extensions := by
  have same := congrArg Settings.extensions deeper.settings
  exact same.symm

/-- What the library of the first engine has, lasts in the second: a template that is flattened with
less depth is flattened to the same with more. -/
theorem lasts_library (deeper : Deeper shallow deep) (name : String) :
    Lasts (library shallow.settings shallow.registry name)
      (library deep.settings deep.registry name) := by
  unfold library
  rw [← deeper.registry]
  exact Flattened.lasts_ofLeaf shallow.registry deeper.depth name

/-- What the first engine answers, lasts in the second. Both the walk up to a root and the depth of
embedding are bounded by the one setting, and both only gain from more. -/
theorem lasts_answer (deeper : Deeper shallow deep) (name : String) (bindings : Layer) :
    Lasts (shallow.answer name bindings) (deep.answer name bindings) := by
  unfold answer
  rw [← deeper.providers, ← deeper.escaping]
  refine lasts_bind (deeper.lasts_library name) fun template => ?_
  refine lasts_bind (lasts_refl _) fun scope => ?_
  exact lasts_say _ deeper.lasts_library deeper.depth [] template.nodes scope

/-- A template that the first engine resolves, the second one resolves to the same content. The
copies may have different serial numbers, which the content leaves out. -/
theorem resolve (deeper : Deeper shallow deep) (name : String) :
    (Reply.resolved (shallow.resolve name).1).IsCycle ∨
      (Reply.resolved (deep.resolve name).1).content =
        (Reply.resolved (shallow.resolve name).1).content := by
  have content := (resolve_answers deeper.shallowSound name).1
  have deepContent := (resolve_answers deeper.deepSound name).1
  rcases deeper.lasts_library name with cycle | same
  · rw [← content] at cycle
    exact .inl (cycle_of_map cycle)
  · rw [← content, ← deepContent] at same
    exact .inr (content_resolved same)

/-- A text that the first engine renders, the second one renders too, and it fails where the first
one fails with something else than a cycle. -/
theorem render (deeper : Deeper shallow deep) (name : String) (bindings : Layer) :
    (Reply.rendered (shallow.render name bindings).1).IsCycle ∨
      (Reply.rendered (deep.render name bindings).1).content =
        (Reply.rendered (shallow.render name bindings).1).content := by
  rw [(render_answers deeper.shallowSound name bindings).1,
    (render_answers deeper.deepSound name bindings).1]
  exact (deeper.lasts_answer name bindings).imp_right (congrArg Reply.rendered)

/-- Engines of which one goes deeper are alike. -/
theorem alike (deeper : Deeper shallow deep) : Alike shallow deep :=
  ⟨deeper.registry, deeper.providers, deeper.extensions, deeper.shallowSound, deeper.deepSound⟩

/-- A reply of the first engine is a cycle, or the second one gives a reply of the same content.
Where no template is resolved the two replies are the same outright. -/
theorem perform_lasts (deeper : Deeper shallow deep) (request : Request) :
    (shallow.perform request).1.IsCycle ∨
      (deep.perform request).1.content = (shallow.perform request).1.content := by
  by_cases resolves : request.Resolves
  · cases request with
    | resolve name => exact deeper.resolve name
    | render name bindings => exact deeper.render name bindings
    | renderValue name value =>
      simp only [perform, renderValue]
      cases Layer.ofValue value with
      | error fault => exact .inr rfl
      | ok bindings => exact deeper.render name bindings
    | _ => exact resolves.elim
  · rw [deeper.alike.second_eq, perform_frame shallow resolves _ _ deeper.extensions]
    exact .inr rfl

/-- After any request the second engine differs from the first in nothing else than before. So one
comparison of replies can be repeated as often as there are requests. -/
theorem perform (deeper : Deeper shallow deep) (request : Request) :
    Deeper (shallow.perform request).2 (deep.perform request).2 := by
  have alike := deeper.alike.perform request
  refine ⟨alike.registry, alike.providers, ?_, ?_, alike.firstSound, alike.secondSound⟩
  · rw [perform_settings, perform_settings]
    exact deeper.settings
  · rw [perform_settings, perform_settings]
    exact deeper.depth

/-- So it is for all replies to requests one behind the other. After a cycle as well: the two
engines differ in no more than before, so later replies agree again. -/
theorem replies_last (deeper : Deeper shallow deep) (requests : List Request) :
    List.Forall₂ (fun reply deepReply => reply.IsCycle ∨ deepReply.content = reply.content)
      (shallow.replies requests) (deep.replies requests) := by
  induction requests generalizing shallow deep with
  | nil => exact .nil
  | cons request rest inductionHypothesis =>
    exact .cons (deeper.perform_lasts request) (inductionHypothesis (deeper.perform request))

end Deeper

/-- More depth changes no reply that is not a cycle. Two engines with the same settings, but that
the second may go deeper, get the same requests. Whatever the first one replies to one of them, if
it is not a cycle, then the second one replies the same: a template with the same lineage and
nodes, the same text, or the same fault. -/
theorem more_depth_same_replies (settings : Settings) (requests : List Request) {limit more : Nat}
    (deeper : limit ≤ more) :
    List.Forall₂ (fun reply deepReply => ¬reply.IsCycle → deepReply.content = reply.content)
      ((new { settings with maxDepth := limit }).replies requests)
      ((new { settings with maxDepth := more }).replies requests) := by
  have start : Deeper (new { settings with maxDepth := limit })
      (new { settings with maxDepth := more }) :=
    ⟨rfl, rfl, rfl, deeper, sound_new _, sound_new _⟩
  exact (start.replies_last requests).imp fun _ _ lasts notCycle => lasts.resolve_left notCycle

/-- A note that fails wherever it is rendered with nothing bound. -/
def noteTemplate : Template :=
  ⟨"note", "\x7b\x7b a.b \x7d\x7d", [.output (.attribute (.variable "a") "b")]⟩

/-- A page that embeds the note. -/
def pageTemplate : Template := ⟨"page", "\x7b% include 'note' %\x7d", [.embed "note"]⟩

/-- A cover that embeds the page. -/
def coverTemplate : Template := ⟨"cover", "\x7b% include 'page' %\x7d", [.embed "page"]⟩

deriving instance DecidableEq for Reply

/-- At depth one the page fails as the note in it does, and so it does at depth two. The cover is
too deep at depth one, which is a cycle, so nothing is claimed of its reply at depth two. -/
theorem more_depth_same_replies_cover :
    let requests : List Request := [.register "note" noteTemplate.source,
      .register "page" pageTemplate.source, .register "cover" coverTemplate.source,
      .render "page" [], .render "cover" [], .resolve "back"]
    let failed : Reply :=
      .rendered (.error (.mistyped (.noAttributes "b" .undefined (.variable "a"))))
    let shallow := (new { maxDepth := 1 }).replies requests
    let deep := (new { maxDepth := 2 }).replies requests
    shallow = [.done, .done, .done, failed, .rendered (.error (.cycle ["page", "note"])),
      .resolved (.error (.notFound "back"))] ∧
    1 ≤ 2 ∧
    List.Forall₂ (fun reply deepReply => ¬reply.IsCycle → deepReply.content = reply.content)
      shallow deep := by
  have note : Template.ofSource "note" false noteTemplate.source = .ok noteTemplate := by
    decide +kernel
  have page : Template.ofSource "page" false pageTemplate.source = .ok pageTemplate := by
    decide +kernel
  have cover : Template.ofSource "cover" false coverTemplate.source = .ok coverTemplate := by
    decide +kernel
  intro requests failed shallow deep
  refine ⟨?_, by decide, more_depth_same_replies {} requests (by decide)⟩
  simp only [shallow, requests, failed, replies, perform, register, Registry.register, new,
    Registry.empty, Registry.insert, note, page, cover, Except.map]
  delta render resolve shelf obtain Cache.fetch Cache.renew Cache.issue
  rw [Flattened.ofLeaf_eq_inRounds]
  decide +kernel

end Engine

end Stencil
