import Relink.FileTree

/-!
# Edits

What has to be done to one file tree to make it another.
-/

set_option autoImplicit false

namespace Relink

/-- A change at a location. -/
inductive Edit where
  | remove (location : Location)
  | makeDirectory (location : Location)
  | writeFile (location : Location) (content : Content) (executable : Bool)
  | makeLink (location : Location) (target : Path)
deriving DecidableEq, Repr

namespace Edit

/-- Removes what is at a location, if there is anything. -/
def clearing (location : Location) : Option Node → List Edit
  | none => []
  | some _ => [.remove location]

/-- Removes entries of a directory that it is to have no longer. -/
def dropping (location : Location) (old new : List (Text × Node)) : List Edit :=
  (old.filter fun entry => (Entries.get? entry.1 new).isNone).map fun entry =>
    .remove (location ++ [entry.1])

mutual

def toward (location : Location) (before : Option Node) : Node → List Edit
  | .file content executable =>
    match before with
    | some (.file old oldExecutable) =>
      if old = content ∧ oldExecutable = executable then []
      else [.writeFile location content executable]
    | other => clearing location other ++ [.writeFile location content executable]
  | .link target =>
    match before with
    | some (.link old) =>
      if old = target then [] else [.remove location, .makeLink location target]
    | other => clearing location other ++ [.makeLink location target]
  | .directory entries =>
    match before with
    | some (.directory old) => dropping location old entries ++ towardEntries location old entries
    | other =>
      clearing location other ++ .makeDirectory location :: towardEntries location [] entries

/-- The same for the entries of a directory, of which `old` are there. -/
def towardEntries (location : Location) (old : List (Text × Node)) :
    List (Text × Node) → List Edit
  | [] => []
  | (name, node) :: rest =>
    toward (location ++ [name]) (Entries.get? name old) node ++ towardEntries location old rest

end

end Edit

end Relink
