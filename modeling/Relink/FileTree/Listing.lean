import Relink.FileTree.Walk

/-!
# Listing files

The regular files below a directory, directory by directory, each directory's entries in the order
of their names' bytes. Links are neither listed nor followed.
-/

set_option autoImplicit false

namespace Relink

namespace Listing

/-- Puts a named value before the first one whose name does not come earlier. -/
def insertByName {α : Type} (entry : Text × α) : List (Text × α) → List (Text × α)
  | [] => [entry]
  | other :: rest =>
    if Octet.before other.1 entry.1 then other :: insertByName entry rest else entry :: other :: rest

def sortByName {α : Type} : List (Text × α) → List (Text × α)
  | [] => []
  | entry :: rest => insertByName entry (sortByName rest)

/-- The locations of what is listed under each name, in the order of the names. -/
def gather (listed : List (Text × List Location)) : List Location :=
  (sortByName listed).flatMap fun entry => entry.2.map (entry.1 :: ·)

end Listing

mutual

def Node.files : Node → List Location
  | .file _ _ => [[]]
  | .link _ => []
  | .directory entries => Listing.gather (Node.filesOfEntries entries)

/-- The same for each entry of a directory. -/
def Node.filesOfEntries : List (Text × Node) → List (Text × List Location)
  | [] => []
  | (name, node) :: rest => (name, node.files) :: Node.filesOfEntries rest

end

def Location.path (location : Location) : Path := ⟨Text.joinWith ['/'] location⟩

/-- The regular files below the directory that a path names, as paths relative to it. -/
def FileTree.filesBelow (tree : FileTree) (path : Path) : List Path :=
  match tree.node? path with
  | some node => node.files.map Location.path
  | none => []

end Relink
