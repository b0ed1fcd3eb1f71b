/-!
# Documents

A document is a table of named items, written line by line under section headers. A table
may come about in several ways, and the way decides what may still be added to it later:
nothing is ever defined twice.
-/

namespace Stencil.Document

/-- How a table came about. It decides whether a later header or key may add to the table. -/
inductive Origin where
  /-- As a part of the header of another section. -/
  | implied
  | header
  /-- By a key with dots. -/
  | dotted
deriving DecidableEq, Repr

/-- What a key stands for. An array may hold items of any sort, and tables that are written by
repeated headers are kept apart from it. -/
inductive Item where
  | bool (b : Bool)
  | integer (n : Int64)
  | float (x : Float)
  | text (s : String)
  | array (items : List Item)
  /-- A table written between braces; it is complete. -/
  | inline (entries : List (String × Item))
  | table (origin : Origin) (entries : List (String × Item))
  /-- The tables of sections that repeat one header. -/
  | tables (all : List (List (String × Item)))
deriving Inhabited

/-- Named items, in the order in which they were written. Names are looked up from the front, and
each one occurs once. -/
abbrev Table := List (String × Item)

namespace Table

/-- Replace an item, or add it at the end. So the order stays that in which the names were first
written. -/
def set (key : String) (item : Item) : Table → Table
  | [] => [(key, item)]
  | (other, kept) :: rest =>
    if other = key then (key, item) :: rest else (other, kept) :: set key item rest

/-- Add an item under a key with dots, whose last part must be new. The table that takes it
must have come about by such a key itself, unless it is the current one. The way there may
also lead through implied tables, and through the last of repeated sections. -/
def add (key : String) (item : Item) : List String → Table → Option Table
  | [], table =>
    match table.lookup key with
    | none => some (set key item table)
    | some _ => none
  | name :: path, table =>
    match table.lookup name with
    | none => (add key item path []).map fun inner => set name (.table .dotted inner) table
    | some (.table .dotted inner) =>
      (add key item path inner).map fun inner => set name (.table .dotted inner) table
    | some (.table .implied inner) =>
      if path.isEmpty then none
      else (add key item path inner).map fun inner => set name (.table .implied inner) table
    | some (.tables all) =>
      if path.isEmpty then none
      else
        (add key item path (all.getLast?.getD [])).map fun inner =>
          set name (.tables (all.dropLast ++ [inner])) table
    | some _ => none

/-- Change the table of a section. Tables on the way are made if they are missing; of
repeated sections the last one is meant. -/
def within (change : Table → Option Table) : List String → Table → Option Table
  | [], table => change table
  | name :: path, table =>
    match table.lookup name with
    | none => (within change path []).map fun inner => set name (.table .implied inner) table
    | some (.table origin inner) =>
      (within change path inner).map fun inner => set name (.table origin inner) table
    | some (.tables all) =>
      (within change path (all.getLast?.getD [])).map fun inner =>
        set name (.tables (all.dropLast ++ [inner])) table
    | some _ => none

/-- Begin a section. A section has one header, but it may have come about before as a part of the
header of another one. -/
def section? (name : String) (table : Table) : Option Table :=
  match table.lookup name with
  | none => some (set name (.table .header []) table)
  | some (.table .implied inner) => some (set name (.table .header inner) table)
  | some _ => none

/-- Begin one more section with a header that may be repeated. It fails if the name stands for
anything else already. -/
def repeated? (name : String) (table : Table) : Option Table :=
  match table.lookup name with
  | none => some (set name (.tables [[]]) table)
  | some (.tables all) => some (set name (.tables (all ++ [[]])) table)
  | some _ => none

end Table

end Stencil.Document
