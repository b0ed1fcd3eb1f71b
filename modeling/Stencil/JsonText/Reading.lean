import Stencil.JsonText.Token

/-!
# Reading JSON text

JSON text is read token by token into a value. Open lists and mappings wait for their
ends; of two entries with one name the later counts.
-/

namespace Stencil.JsonText

/-- A list or mapping that waits for the value being read, with what it has so far. The innermost
one comes first. -/
inductive Open where
  | list (items : List Value)
  | map (entries : List (String × Value)) (name : String)

/-- What the next token may be. A comma leads to a stage where the end may not come, so no comma
stands behind the last item. -/
inductive Stage where
  | value
  /-- A first item, or the end of the list. -/
  | item
  | name (entries : List (String × Value))
  /-- A first name, or the end of the mapping. -/
  | firstName
  | colon (entries : List (String × Value)) (name : String)
  /-- What may follow a value. -/
  | behind (value : Value)

/-- How far reading has come. What is complete is in what waits for it, and only the last value is
in the stage. -/
structure Reading where
  opened : List Open
  stage : Stage

namespace Reading

/-- Start a value. One without parts is complete at once. -/
def startValue (opened : List Open) : Token → Option Reading
  | .scalar value => some ⟨opened, .behind value⟩
  | .leftBracket => some ⟨.list [] :: opened, .item⟩
  | .leftBrace => some ⟨opened, .firstName⟩
  | _ => none

/-- Read one token. What is open decides what a comma and a closing bracket mean, and a name in a
mapping has to be a text with a colon behind it. Names that come twice keep the later value. -/
def step (reading : Reading) (token : Token) : Option Reading :=
  let ⟨opened, stage⟩ := reading
  match stage, opened, token with
  | .value, opened, token => startValue opened token
  | .item, .list items :: outer, .rightBracket => some ⟨outer, .behind (.seq items)⟩
  | .item, opened, token => startValue opened token
  | .firstName, opened, .rightBrace => some ⟨opened, .behind (.map [])⟩
  | .firstName, opened, .scalar (.text name) => some ⟨opened, .colon [] name⟩
  | .name entries, opened, .scalar (.text name) => some ⟨opened, .colon entries name⟩
  | .colon entries name, opened, .colon => some ⟨.map entries name :: opened, .value⟩
  | .behind value, .list items :: outer, .comma => some ⟨.list (items ++ [value]) :: outer, .value⟩
  | .behind value, .list items :: outer, .rightBracket =>
    some ⟨outer, .behind (.seq (items ++ [value]))⟩
  | .behind value, .map entries name :: outer, .comma =>
    some ⟨outer, .name (entries ++ [(name, value)])⟩
  | .behind value, .map entries name :: outer, .rightBrace =>
    some ⟨outer, .behind (.map (Dict.ofList (entries ++ [(name, value)])))⟩
  | _, _, _ => none

/-- The value, once nothing is open any more. Text without any value has none. -/
def result? : Reading → Option Value
  | ⟨[], .behind value⟩ => some value
  | _ => none

end Reading

/-- The value that JSON text stands for. Nothing but blanks may stand behind it. -/
def value? (text : String) : Option Value := do
  let tokens ← tokens? text.toList
  (← tokens.foldlM Reading.step ⟨[], .value⟩).result?

end Stencil.JsonText
