import Stencil.Fault

/-!
# Data as values

Data from outside, described by shape, and the values that templates see instead. Numbers
without a 64-bit whole equivalent become floats, floats that are not finite become none,
and bytes become numbers. A mapping must have keys that can be written as text.
-/

namespace Stencil

/-- Data by shape. It tells what came in, before it is decided what a template may see of it. Keys
of mappings may be data of any shape here. -/
inductive Data where
  | signed (n : Int64)
  | unsigned (n : UInt64)
  | float (x : Float)
  | bool (b : Bool)
  | text (s : String)
  | bytes (content : List UInt8)
  /-- Nothing, whether as such or in place of something optional. -/
  | nothing
  /-- Something optional that is there. -/
  | some (inner : Data)
  | seq (items : List Data)
  | map (entries : List (Data × Data))
deriving Inhabited

namespace Data

/-- The text of a key: text itself, whole numbers in decimal and the truth values. Keys of any other
shape are refused. -/
def key : Data → Except Fault String
  | .text s => .ok s
  | .signed n => .ok (Number.wholeText n)
  | .unsigned n => .ok (Number.integerText n.toNat)
  | .bool b => .ok (if b then "true" else "false")
  | _ => .error .keyNotText

mutual

/-- The value that stands for data. It fails only where a mapping has a key that is no text. A
float that is not finite is none, and a number with no sign that is too large for a value becomes
a float. -/
def toValue : Data → Except Fault Value
  | .signed n => .ok (.int n)
  | .unsigned n => .ok (.ofNat n.toNat)
  | .float x => .ok (if x.isFinite then .float x else .none)
  | .bool b => .ok (.bool b)
  | .text s => .ok (.text s)
  | .bytes content => .ok (.seq (content.map fun byte => .ofNat byte.toNat))
  | .nothing => .ok .none
  | .some inner => toValue inner
  | .seq items => (toValues items).map .seq
  | .map entries => (toEntries entries).map fun entries => .map (Dict.ofList entries)

/-- The values of items in order. The first failure is the failure of all. -/
def toValues : List Data → Except Fault (List Value)
  | [] => .ok []
  | item :: rest => do
    let value ← toValue item
    return value :: (← toValues rest)

/-- The entries of a mapping in order. Of two that have one name as text the later stays, which is
decided when they are put together. -/
def toEntries : List (Data × Data) → Except Fault (List (String × Value))
  | [] => .ok []
  | (name, entry) :: rest => do
    let name ← name.key
    let value ← toValue entry
    return (name, value) :: (← toEntries rest)

end

end Data

end Stencil
