import Relink.ModuleFiles

/-!
# File trees

Directories, files and links, and the place of each by the names that lead to it from the root. A
name is made of any bytes; those that are no UTF-8 have carriers in it.
-/

set_option autoImplicit false

namespace Relink

/-! ## Contents -/

/-- The contents of a file: text, or bytes that are no UTF-8. -/
inductive Content where
  | text (chars : Text)
  | binary (bytes : List UInt8)
deriving DecidableEq, Repr

namespace Content

def ofBytes (bytes : List UInt8) : Content :=
  match String.fromUTF8? ⟨bytes.toArray⟩ with
  | some decoded => .text decoded.toList
  | none => .binary bytes

end Content

/-! ## Nodes -/

/-- Something in a file tree. A directory lists its entries in no particular order. -/
inductive Node where
  | file (content : Content) (executable : Bool)
  | link (target : Path)
  | directory (entries : List (Text × Node))
deriving Inhabited

/-- The names that lead from the root to a node. -/
abbrev Location := List Text

namespace Entries

def get? (name : Text) : List (Text × Node) → Option Node
  | [] => none
  | (other, node) :: rest => if other = name then some node else get? name rest

/-- The entries with one replaced, or added if there was none. -/
def put (name : Text) (node : Node) : List (Text × Node) → List (Text × Node)
  | [] => [(name, node)]
  | (other, old) :: rest =>
    if other = name then (other, node) :: rest else (other, old) :: put name node rest

def erase (name : Text) (entries : List (Text × Node)) : List (Text × Node) :=
  entries.filter fun entry => entry.1 != name

end Entries

namespace Node

def emptyDirectory : Node := .directory []

def isDirectory : Node → Bool
  | .directory _ => true
  | _ => false

def isFile : Node → Bool
  | .file _ _ => true
  | _ => false

/-- The entries of a directory; other nodes have none. -/
def entries : Node → List (Text × Node)
  | .directory entries => entries
  | _ => []

/-- The node at a location below another. Links are not followed. -/
def get? : Location → Node → Option Node
  | [], node => some node
  | name :: rest, node => (Entries.get? name node.entries).bind (get? rest)

/-- The node with another put at a location below it, and with directories for the names on the way
that are missing. Nothing is put below a file or a link. -/
def put (new : Node) : Location → Node → Node
  | [], _ => new
  | name :: rest, .directory entries =>
    .directory (Entries.put name
      (put new rest ((Entries.get? name entries).getD emptyDirectory)) entries)
  | _ :: _, node => node

def erase : Location → Node → Node
  | [], node => node
  | [name], .directory entries => .directory (Entries.erase name entries)
  | name :: rest, .directory entries =>
    match Entries.get? name entries with
    | some child => .directory (Entries.put name (erase rest child) entries)
    | none => .directory entries
  | _ :: _, node => node

end Node

/-! ## Trees -/

/-- Everything below the root, and where relative paths start. -/
structure FileTree where
  root : Node
  workingDirectory : Location

namespace FileTree

def get? (tree : FileTree) (location : Location) : Option Node := tree.root.get? location

def put (tree : FileTree) (location : Location) (node : Node) : FileTree :=
  { tree with root := Node.put node location tree.root }

def erase (tree : FileTree) (location : Location) : FileTree :=
  { tree with root := tree.root.erase location }

def here (tree : FileTree) : Node :=
  (tree.get? tree.workingDirectory).getD Node.emptyDirectory

def startingAt (location : Location) : FileTree :=
  ⟨Node.put Node.emptyDirectory location Node.emptyDirectory, location⟩

end FileTree

end Relink
