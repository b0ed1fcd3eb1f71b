/-!
# Settings

What an engine can be set to do.
-/

namespace Stencil

/-- The settings of an engine. -/
structure Settings where
  /-- The longest lineage, and how many templates may be embedded in each other. -/
  maxDepth : Nat := 64
  /-- Whether output is escaped unless it is safe. -/
  autoescape : Bool := true
  /-- Whether a line end right behind a statement tag is dropped. -/
  trimBlocks : Bool := false
  /-- Whether flattened templates are kept. -/
  cacheResolved : Bool := true
  /-- The extensions of the files that are templates. -/
  extensions : List String := ["html", "htm", "txt", "jinja", "j2"]
deriving DecidableEq

end Stencil
