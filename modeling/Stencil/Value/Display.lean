import Stencil.Number.FloatText
import Stencil.Value.Basic

/-!
# Values as text

What a value looks like when it is put into text: nothing for the undefined value and
for none, numbers in decimal, text as it is, and sequences and mappings with their parts
between brackets.
-/

namespace Stencil.Value

mutual

/-- The text of a value. It is total, so that filters can take any value for a text. Texts inside of
sequences and mappings have no quotation marks. -/
def display : Value → String
  | .undefined | .none => ""
  | .bool b => if b then "true" else "false"
  | .int n => Number.wholeText n
  | .float x => Number.valueText x
  | .text s | .safe s => s
  | .seq items => "[" ++ String.intercalate ", " (displayItems items) ++ "]"
  | .map entries => "\x7b" ++ String.intercalate ", " (displayEntries entries) ++ "\x7d"

/-- The texts of the items of a sequence, in order. -/
def displayItems : List Value → List String
  | [] => []
  | item :: rest => display item :: displayItems rest

/-- The texts of the entries of a mapping, each with its name in front. -/
def displayEntries : List (String × Value) → List String
  | [] => []
  | (name, entry) :: rest => (name ++ ": " ++ display entry) :: displayEntries rest

end

end Stencil.Value
