/-!
# Directory trees

A tree of files and directories. File names are bytes, and the entries of a directory are
in the order of their names, byte by byte.
-/

namespace Stencil

/-- The bytes of a file name. They need not be text, and names are compared byte by byte. -/
abbrev FileName := List UInt8

/-- A file or a directory. Links and anything else that is neither are left out. A file is told by
its bytes. -/
inductive Tree where
  | file (content : List UInt8)
  | directory (entries : List (FileName × Tree))

namespace Tree

/-- The entries of a directory; a file has none. -/
def entries : Tree → List (FileName × Tree)
  | .file _ => []
  | .directory entries => entries

/-- Change or make the entry with a name, at its place in the order. The change is given what is
there, if anything is. -/
def alter (name : FileName) (change : Option Tree → Tree) :
    List (FileName × Tree) → List (FileName × Tree)
  | [] => [(name, change none)]
  | (other, tree) :: rest =>
    if other < name then (other, tree) :: alter name change rest
    else if other = name then (name, change (some tree)) :: rest
    else (name, change none) :: (other, tree) :: rest

/-- What is put at a path that may be taken: a file replaces what is there, a directory
keeps the entries that are there. -/
def put (content : Option (List UInt8)) (there : Option Tree) : Tree :=
  match content with
  | some content => .file content
  | none => .directory ((there.map entries).getD [])

/-- Put a file, or without content a directory, at a path below a directory. Directories
on the way are made. -/
def place (content : Option (List UInt8)) : List FileName → Option Tree → Tree
  | [], there => put content there
  | name :: rest, there =>
    .directory (alter name (place content rest) ((there.map entries).getD []))

/-- The tree of files and directories placed one after the other. What is placed later wins, and
directories on the way are made where they are missing. -/
def ofList (placed : List (List FileName × Option (List UInt8))) : Tree :=
  placed.foldl (fun tree (path, content) => place content path (some tree)) (.directory [])

/-- What is at a path, if anything. A path that goes on below a file leads nowhere. -/
def at? : List FileName → Tree → Option Tree
  | [], tree => some tree
  | name :: rest, tree => (tree.entries.lookup name).bind (at? rest)

mutual

/-- The files of a tree with their paths, behind the path of the tree itself. A tree that is a file
is its only file. -/
def filesBelow (path : List FileName) : Tree → List (List FileName × List UInt8)
  | .file content => [(path, content)]
  | .directory entries => filesOfEntries path entries

/-- The files of the entries of a directory, depth first. The path is that of the directory, from
the root on. -/
def filesOfEntries (path : List FileName) :
    List (FileName × Tree) → List (List FileName × List UInt8)
  | [] => []
  | (name, tree) :: rest => filesBelow (path ++ [name]) tree ++ filesOfEntries path rest

end

/-- The files below a directory, depth first and in the order of names. -/
def files (tree : Tree) : List (List FileName × List UInt8) := filesOfEntries [] tree.entries

end Tree

end Stencil
