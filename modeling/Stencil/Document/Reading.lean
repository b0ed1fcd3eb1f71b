import Stencil.Document.Scalar
import Stencil.Document.Token

/-!
# Reading documents

A document is read token by token into its table. Each line gives a section header, a key
with its value, or nothing; only arrays and texts between three marks run over several
lines. A token that does not fit, and a definition that is not allowed, end reading.
-/

namespace Stencil.Document

/-- An array or a table between braces that waits for the value being read. The innermost one comes
first. -/
inductive Open where
  | array (items : List Item)
  /-- The entries before the current one, and its key from the inside out. -/
  | inline (entries : Table) (key : List String)

/-- What a key with dots is for; its parts are kept from the inside out. It decides which token may
end the key. -/
inductive Key where
  /-- The header of a section, which may be one of several with that header. -/
  | header (repeated : Bool)
  | line
  | inline (entries : Table)

/-- What the next token may be. Lines count in a document, so where a line may end is a stage of its
own. -/
inductive Stage where
  /-- Anything that a line may start with. -/
  | line
  /-- Behind the bracket of a header. -/
  | bracket
  /-- A part of a key. -/
  | part (key : Key) (path : List String)
  /-- What may follow a part of a key. -/
  | behindPart (key : Key) (path : List String)
  /-- The second bracket at the end of a header. -/
  | secondBracket (path : List String)
  | value
  /-- A first item, or the end of the array. -/
  | item (items : List Item)
  /-- What goes on from bare text, or may follow it. -/
  | bare (text : List Char)
  | behindItem (items : List Item)
  /-- A first key, or the end of the table between braces. -/
  | firstKey
  | behindEntry (entries : Table)
  /-- Nothing but a comment until the line ends. -/
  | lineEnd

/-- How far reading has come. The document is read with no way back: what is read goes to the root
at once, at the path of its section. -/
structure Reading where
  root : Table
  /-- The path of the current section. -/
  sectionPath : List String
  /-- The key of the current line, from the inside out. -/
  key : List String
  opened : List Open
  stage : Stage

/-- Values are nested, and keys have parts, fewer times than this. It keeps a document from being
too deep for those who go down in it. -/
def depthLimit : Nat := 80

namespace Reading

/-- Nothing is read yet. The first lines belong to the root itself. -/
def start : Reading := ⟨[], [], [], [], .line⟩

/-- The part of a key that a token stands for. A text over several lines is none, and neither is
bare text with a plus sign in it. -/
def keyPart? : Token → Option String
  | .text s false => some s
  | .bare s => if s.all fun c => c ≠ '+' then some (String.ofList s) else none
  | _ => none

/-- Add an item under a key that is given from the inside out. A key has at least one part. -/
def addUnder (table : Table) (item : Item) : List String → Option Table
  | [] => none
  | name :: path => table.add name item path.reverse

/-- A value is complete: it goes to what waits for it. Where nothing waits, it is the value of the
line, and goes into the current section. -/
def deliver (reading : Reading) (item : Item) : Option Reading :=
  match reading.opened with
  | [] =>
    (reading.root.within (fun table => addUnder table item reading.key) reading.sectionPath).map
      fun root => { reading with root, stage := .lineEnd }
  | .array items :: outer =>
    some { reading with opened := outer, stage := .behindItem (items ++ [item]) }
  | .inline entries key :: outer =>
    (addUnder entries item key).map fun entries =>
      { reading with opened := outer, stage := .behindEntry entries }

/-- Begin a section whose header is given from the inside out. All lines up to the next header
belong to it. -/
def beginSection (reading : Reading) (repeated : Bool) : List String → Option Reading
  | [] => none
  | name :: path =>
    let change := if repeated then Table.repeated? name else Table.section? name
    (reading.root.within change path.reverse).map fun root =>
      { reading with root, sectionPath := (name :: path).reverse, stage := .lineEnd }

/-- The same with another stage. All that has been read is kept. -/
def reach (reading : Reading) (stage : Stage) : Reading := { reading with stage }

/-- Go into a value with parts, unless it lies too deep. The limit is on how many values are open at
once. -/
def enter (reading : Reading) (stage : Stage) : Option Reading :=
  if reading.opened.length + 1 < depthLimit then some (reading.reach stage) else none

/-- Start a value. Bare text is not told yet, for a float may go on behind a dot. -/
def startValue (reading : Reading) : Token → Option Reading
  | .text s _ => reading.deliver (.text s)
  | .bare text => some (reading.reach (.bare text))
  | .leftBracket => reading.enter (.item [])
  | .leftBrace => reading.enter .firstKey
  | _ => none

/-- Read a token behind a value. In an array lines may end anywhere, and between braces nowhere. -/
def behindValue (reading : Reading) (token : Token) : Option Reading :=
  match reading.stage, token with
  | .lineEnd, .comment | .lineEnd, .space => some reading
  | .lineEnd, .lineEnd => some (reading.reach .line)
  | .behindItem _, .space | .behindItem _, .comment | .behindItem _, .lineEnd => some reading
  | .behindItem items, .comma => some (reading.reach (.item items))
  | .behindItem items, .rightBracket => reading.deliver (.array items)
  | .behindEntry _, .space => some reading
  | .behindEntry entries, .comma => some (reading.reach (.part (.inline entries) []))
  | .behindEntry entries, .rightBrace => reading.deliver (.inline entries)
  | _, _ => none

/-- End a key at a token that does not belong to it. Which token that has to be depends on what the
key is for. -/
def endKey (reading : Reading) (path : List String) : Key → Token → Option Reading
  | .header false, .rightBracket => reading.beginSection false path
  | .header true, .rightBracket => some (reading.reach (.secondBracket path))
  | .line, .equals => some { reading with key := path, stage := .value }
  | .inline entries, .equals =>
    some { reading with opened := .inline entries path :: reading.opened, stage := .value }
  | _, _ => none

/-- Read one token. What it means is decided by the stage and by what is open; a token that fits
nowhere gives no reading. How deep keys may go is limited, and the limit is met when a key ends. -/
def step (reading : Reading) (token : Token) : Option Reading :=
  match reading.stage, token with
  | .line, .space | .line, .comment | .line, .lineEnd => some reading
  | .line, .leftBracket => some (reading.reach .bracket)
  | .line, token => (keyPart? token).map fun part => reading.reach (.behindPart .line [part])
  | .bracket, .leftBracket => some (reading.reach (.part (.header true) []))
  | .bracket, .space => some (reading.reach (.part (.header false) []))
  | .bracket, token =>
    (keyPart? token).map fun part => reading.reach (.behindPart (.header false) [part])
  | .part .., .space => some reading
  | .part key path, token =>
    (keyPart? token).map fun part => reading.reach (.behindPart key (part :: path))
  | .behindPart .., .space => some reading
  | .behindPart key path, .dot => some (reading.reach (.part key path))
  | .behindPart key path, token =>
    if path.length < depthLimit then reading.endKey path key token else none
  | .secondBracket path, .rightBracket => reading.beginSection true path
  | .secondBracket _, _ => none
  | .value, .space => some reading
  | .value, token => reading.startValue token
  | .item _, .space | .item _, .comment | .item _, .lineEnd => some reading
  | .item items, .rightBracket => reading.deliver (.array items)
  | .item items, token =>
    { reading with opened := .array items :: reading.opened }.startValue token
  | .bare text, .dot => some (reading.reach (.bare (text ++ ['.'])))
  | .bare text, .bare more => some (reading.reach (.bare (text ++ more)))
  | .bare text, token =>
    (scalar? text).bind fun item =>
      (reading.deliver item).bind fun reading => reading.behindValue token
  | .firstKey, .space => some reading
  | .firstKey, .rightBrace => reading.deliver (.inline [])
  | .firstKey, token =>
    (keyPart? token).map fun part => reading.reach (.behindPart (.inline []) [part])
  | _, token => reading.behindValue token

/-- The table, if the document may end here: at the end of a line. The last line may end without a
line end. -/
def result? (reading : Reading) : Option Table :=
  match reading.stage with
  | .line | .lineEnd => some reading.root
  | .bare text =>
    match reading.opened with
    | [] => (scalar? text).bind fun item => (reading.deliver item).map (·.root)
    | _ => none
  | _ => none

end Reading

/-- The table of a document. A byte order mark at its beginning is not part of it. One token that
does not fit, and there is no table at all. -/
def table? (text : String) : Option Table := do
  let characters :=
    match text.toList with
    | '\uFEFF' :: rest => rest
    | characters => characters
  let tokens ← tokens? characters
  (← tokens.foldlM Reading.step .start).result?

end Stencil.Document
