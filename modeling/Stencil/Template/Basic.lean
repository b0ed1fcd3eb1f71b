import Stencil.Template.Reading

/-!
# Templates

A template is a source that has been read. The name it is known by matters to reading,
since references in it may be relative.
-/

namespace Stencil

/-- A template that has been read. Its source is kept as it was given. -/
structure Template where
  name : String
  source : String
  nodes : List Node

namespace Template

/-- Read a template. References in it are resolved from its own name. -/
def ofSource (name : String) (trim : Bool) (source : String) : Except Malformed Template :=
  (nodesOfSource (some name) trim source).map fun nodes => ⟨name, source, nodes⟩

/-- The template that this one inherits from; it is named by the first node, since reading admits no
other place for it. -/
def parent? (template : Template) : Option String :=
  match template.nodes with
  | .inherits parent :: _ => some parent
  | _ => none

/-- The blocks defined in the template at any depth, in the order of the source. They are what it
gives to the overrides of a lineage. -/
def blocks (template : Template) : List (String × List Node) := Node.blocksOf template.nodes

end Template

end Stencil
