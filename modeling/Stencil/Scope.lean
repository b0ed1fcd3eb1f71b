import Stencil.Fault

/-!
# Scopes

The variables that an expression sees, in layers. A name stands for what the innermost
layer that binds it says. Loops put a layer on for each turn and take it off again;
providers of variables each fill a layer below the variables of the rendering itself.
-/

namespace Stencil

/-- Variables bound together. As a dictionary it binds each name at most once. -/
abbrev Layer := Dict Value

/-- The variables that a value holds: the entries of a mapping, and nothing of none. -/
def Layer.ofValue (value : Value) : Except Fault Layer :=
  match value with
  | .map entries => .ok entries
  | .none => .ok []
  | other => .error (.mistyped (.notVariables other.kind))

/-- Layers of variables, the innermost first. The same name may be bound in several of them, and the
innermost binding hides the others. -/
structure Scope where
  layers : List Layer

namespace Scope

/-- No layers. Every name is unbound. -/
def empty : Scope := ⟨[]⟩

/-- Put a layer on. What it binds hides the bindings further out until it is taken off. -/
def push (scope : Scope) (layer : Layer) : Scope := ⟨layer :: scope.layers⟩

/-- Take the innermost layer off; without layers there is nothing to take. -/
def pop (scope : Scope) : Scope := ⟨scope.layers.tail⟩

/-- The number of layers. It is back where it was whenever a loop has ended. -/
def depth (scope : Scope) : Nat := scope.layers.length

/-- Bind a name in the innermost layer; without layers one is made. -/
def set (scope : Scope) (name : String) (value : Value) : Scope :=
  match scope.layers with
  | [] => ⟨[Dict.insert [] name value]⟩
  | layer :: outer => ⟨Dict.insert layer name value :: outer⟩

/-- What a name stands for, if a layer binds it. The innermost layer that does decides. -/
def lookup? (scope : Scope) (name : String) : Option Value :=
  scope.layers.findSome? (Dict.get? · name)

/-- What a name stands for; an unbound name stands for the undefined value. So to look a name up
never fails. -/
def lookup (scope : Scope) (name : String) : Value := (scope.lookup? name).getD .undefined

end Scope

/-- A named source of variables: the layer that it supplies, or the causes of its failure,
the root cause first. -/
structure Provider where
  name : String
  supply : Except (List String) Layer

namespace Provider

/-- A provider of one variable that never changes. Its name tells the variable. -/
def global (name : String) (value : Value) : Provider :=
  ⟨"global:" ++ name, .ok (Dict.insert [] name value)⟩

/-- The layer of a provider. A failure is told from the outermost cause to the root. -/
def provide (provider : Provider) : Except Fault Layer :=
  match provider.supply with
  | .ok layer => .ok layer
  | .error causes => .error (.provider provider.name (String.intercalate ": " causes.reverse))

end Provider

/-- Put the layers of providers on in order; the first failure ends it, and the providers behind it
are not asked. -/
def Scope.provided (scope : Scope) : List Provider → Except Fault Scope
  | [] => .ok scope
  | provider :: rest =>
    match provider.provide with
    | .error fault => .error fault
    | .ok layer => (scope.push layer).provided rest

/-- The scope of a rendering: a layer for each provider, later ones further in, and the
given variables on top. -/
def Scope.assemble (providers : List Provider) (bindings : Layer) : Except Fault Scope :=
  (Scope.empty.provided providers).map (·.push bindings)

end Stencil
