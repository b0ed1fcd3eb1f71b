import Stencil.Directory.Basic
import Stencil.Registry
import Stencil.Text.Casing

/-!
# Loading templates from a directory

Every file below a directory is a template if its extension is one of those asked for. It
is registered under its path from that directory. A file whose path or content is not
UTF-8, or that is not a template after all, is passed over and changes nothing.
-/

namespace Stencil.Loading

/-- Bytes as UTF-8 text. Bytes that are none give nothing, and no byte is replaced by another
character. -/
def text? (bytes : List UInt8) : Option String := String.fromUTF8? ⟨bytes.toArray⟩

/-- The extension of a file name: what follows its last dot, unless that dot comes first. -/
def extension? (name : List Char) : Option (List Char) :=
  let behind := (name.reverse.takeWhile (· ≠ '.')).reverse
  if behind.length + 1 < name.length then some behind else none

/-- Whether a file is a template by its name. Case does not matter in the name; the extensions that
are asked for are taken as they are given. -/
def isTemplate (extensions : List String) (name : String) : Bool :=
  match extension? name.toList with
  | none => false
  | some ext => extensions.contains (String.ofList (Text.lower ext))

/-- The name of the template in a file, if its path is text and has a fitting extension. The
segments are joined by slashes, whatever a file system would have between them. -/
def templateName? (extensions : List String) (path : List FileName) : Option String := do
  let segments ← path.mapM text?
  guard (isTemplate extensions (← segments.getLast?))
  return String.intercalate "/" segments

/-- Register the template in a file, if there is one. A file that is no text, or no template, leaves
the registry to the next one as it is. -/
def loadFile? (extensions : List String) (registry : Registry) (path : List FileName)
    (content : List UInt8) : Option Registry := do
  let name ← templateName? extensions path
  let source ← text? content
  (registry.register name source).toOption

/-- Register the templates in files one after the other, and count them. Each is read with the
registry that those before it have left. -/
def loadFiles (extensions : List String) (registry : Registry) :
    List (List FileName × List UInt8) → Nat × Registry
  | [] => (0, registry)
  | (path, content) :: rest =>
    match loadFile? extensions registry path content with
    | none => loadFiles extensions registry rest
    | some registry =>
      let (count, registry) := loadFiles extensions registry rest
      (count + 1, registry)

/-- Register the templates below a directory, and count them. Where there is no directory
there are none. -/
def load (extensions : List String) (root : Option Tree) (registry : Registry) :
    Nat × Registry :=
  match root with
  | none => (0, registry)
  | some tree => loadFiles extensions registry tree.files

end Stencil.Loading
