import Stencil.Cache
import Stencil.Rendering
import Stencil.Settings.Basic
import Stencil.Text.Quoted

/-!
# The engine

An engine holds templates, providers of variables and settings, and renders templates by
name. Flattened templates come from its cache, unless the settings turn that off; the
rendering itself fetches the templates it embeds from the same place.
-/

namespace Stencil

/-- Templates, providers and settings, put to use together. The registry takes over whether line
ends are dropped, so a later change of that setting would not count. -/
structure Engine where
  settings : Settings
  registry : Registry
  cache : Cache
  providers : List Provider

namespace Engine

/-- An engine without templates and providers. How line ends are treated is a setting, and is handed
to the registry once. -/
def new (settings : Settings) : Engine :=
  ⟨settings, .empty settings.trimBlocks, .empty, []⟩

/-- Keep a template that has been read already, in whatever way it was read. -/
def insert (engine : Engine) (template : Template) : Engine :=
  { engine with registry := engine.registry.insert template }

/-- Read a template and keep it. A source that is refused leaves the engine as it was, for there is
no other engine then. -/
def register (engine : Engine) (name source : String) : Except Malformed Engine :=
  (engine.registry.register name source).map fun registry => { engine with registry }

/-- Remove a template. A name that is not there leaves the registry as it is. -/
def remove (engine : Engine) (name : String) : Engine :=
  { engine with registry := engine.registry.remove name }

/-- Add a provider; it is asked for variables at every rendering, after those before it. -/
def addProvider (engine : Engine) (provider : Provider) : Engine :=
  { engine with providers := engine.providers ++ [provider] }

/-- Add a variable that every rendering sees. It is a provider like the others and takes its place
among them. -/
def addGlobal (engine : Engine) (name : String) (value : Value) : Engine :=
  engine.addProvider (.global name value)

/-- A copy of a flattened template, from the cache if the settings allow it. Without the cache each
request makes a copy of its own. -/
def obtain (settings : Settings) (registry : Registry) (name : String) (cache : Cache) :
    Except Fault Copy × Cache :=
  if settings.cacheResolved then cache.fetch registry settings.maxDepth name
  else cache.issue registry settings.maxDepth name

/-- The template called `name`, flattened, and the engine with whatever has become of its cache. -/
def resolve (engine : Engine) (name : String) : Except Fault Copy × Engine :=
  let (copy, cache) := obtain engine.settings engine.registry name engine.cache
  (copy, { engine with cache })

/-- The shelf for templates that are embedded. Its state is the cache, so what is embedded is kept
as what is rendered is. -/
def shelf (settings : Settings) (registry : Registry) : Shelf Cache := fun name cache =>
  let (copy, cache) := obtain settings registry name cache
  (copy.map (·.flattened), cache)

/-- Render a template. It is looked up before any provider is asked, and the providers are asked
before anything is rendered. -/
def render (engine : Engine) (name : String) (bindings : Layer) : Except Fault String × Engine :=
  match engine.resolve name with
  | (.error fault, engine) => (.error fault, engine)
  | (.ok copy, engine) =>
    match Scope.assemble engine.providers bindings with
    | .error fault => (.error fault, engine)
    | .ok scope =>
      let (text, session) :=
        Stencil.render (shelf engine.settings engine.registry) engine.settings.maxDepth
          engine.settings.autoescape copy.flattened.nodes ⟨scope, [], engine.cache⟩
      (text, { engine with cache := session.shelf })

/-- Render a template with the variables that a value holds. A value that holds none is refused
before the template is looked up. -/
def renderValue (engine : Engine) (name : String) (value : Value) :
    Except Fault String × Engine :=
  match Layer.ofValue value with
  | .error fault => (.error fault, engine)
  | .ok bindings => engine.render name bindings

/-- Quoted texts in brackets, with a comma and a blank between them. -/
def quotedList (texts : List String) : String :=
  "[" ++ String.intercalate ", " (texts.map Text.Quoted.encode) ++ "]"

/-- Settings on one line, in the order in which they are declared, each with its name. -/
def describeSettings (settings : Settings) : String :=
  let flag (b : Bool) := if b then "true" else "false"
  "EngineConfig \x7b max_depth: " ++ settings.maxDepth.repr ++
    ", autoescape: " ++ flag settings.autoescape ++
    ", trim_blocks: " ++ flag settings.trimBlocks ++
    ", cache_resolved: " ++ flag settings.cacheResolved ++
    ", extensions: " ++ quotedList settings.extensions ++ " \x7d"

/-- The engine on one line, with the names of its templates and providers. Neither sources nor
variables are shown. -/
def describe (engine : Engine) : String :=
  let provider (p : Provider) := "Provider \x7b name: " ++ Text.Quoted.encode p.name ++ " \x7d"
  "Engine \x7b config: " ++ describeSettings engine.settings ++
    ", registry: TemplateRegistry \x7b templates: " ++ quotedList engine.registry.names ++
    " \x7d, providers: [" ++ String.intercalate ", " (engine.providers.map provider) ++ "] \x7d"

end Engine

/-- Render a source that belongs to no engine, with the usual settings. There are no other
templates, so nothing can be embedded or inherited. -/
def renderText (source : String) (bindings : Layer) : Except Fault String :=
  match Template.ofSource "<string>" false source with
  | .error refusal => .error (.malformed refusal)
  | .ok template => (((Engine.new {}).insert template).render "<string>" bindings).1

end Stencil
