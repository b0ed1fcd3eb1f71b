import Stencil.Document.Reading
import Stencil.Settings.Basic

/-!
# Reading settings

Settings are read from the root table of a document. A key that is missing leaves the
usual setting, a key that is not known is passed over, and an item of the wrong type is
an error.
-/

namespace Stencil.Settings

open Document (Item Table)

/-- Why settings cannot be read from a file. -/
inductive Refusal where
  | missingFile
  /-- The file is not UTF-8 text. -/
  | notText
  /-- The text is not a document, or an item has the wrong type. -/
  | malformed
deriving DecidableEq, Repr

/-- An item as a truth value. Numbers and texts are none. -/
def flag? : Item → Option Bool
  | .bool b => some b
  | _ => none

/-- An item as a count. A negative number is none. -/
def count? : Item → Option Nat
  | .integer n => if 0 ≤ n.toInt then some n.toInt.toNat else none
  | _ => none

/-- An item as a text. No other item is turned into one. -/
def text? : Item → Option String
  | .text s => some s
  | _ => none

/-- An item as a list of texts. One item that is no text, and it is none. -/
def texts? : Item → Option (List String)
  | .array items => items.mapM text?
  | _ => none

/-- The item under a key as a setting; the usual one if there is none. An item that is there and
does not fit is a failure and not passed over. -/
def entry? {α : Type} (table : Table) (key : String) (as? : Item → Option α) (usual : α) :
    Option α :=
  match table.lookup key with
  | none => some usual
  | some item => as? item

/-- The settings in a table. The five keys are looked up one after the other, and any other key is
passed over. -/
def ofTable? (table : Table) : Option Settings := do
  let usual : Settings := {}
  return {
    maxDepth := ← entry? table "max_depth" count? usual.maxDepth
    autoescape := ← entry? table "autoescape" flag? usual.autoescape
    trimBlocks := ← entry? table "trim_blocks" flag? usual.trimBlocks
    cacheResolved := ← entry? table "cache_resolved" flag? usual.cacheResolved
    extensions := ← entry? table "extensions" texts? usual.extensions }

/-- The settings in a document. A document that cannot be read and one with an item of the wrong
type are refused alike. -/
def ofText (text : String) : Except Refusal Settings :=
  match (Document.table? text).bind ofTable? with
  | some settings => .ok settings
  | none => .error .malformed

/-- The settings in a file, if there is one. Whether it can be read as text is decided before what
is in it. -/
def ofFile : Option (List UInt8) → Except Refusal Settings
  | none => .error .missingFile
  | some bytes =>
    match String.fromUTF8? ⟨bytes.toArray⟩ with
    | none => .error .notText
    | some text => ofText text

end Stencil.Settings
