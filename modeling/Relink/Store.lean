import Relink.ModuleFiles

/-!
# Stores

Modules held in memory. A path names a file when a key with the same components is present.
-/

set_option autoImplicit false

namespace Relink

/-- Files by path, and the paths that must not be read or written. -/
structure Store where
  entries : List (Path × Text)
  unreadable : List Path
  unwritable : List Path
deriving DecidableEq, Repr

namespace Store

def empty : Store := ⟨[], [], []⟩

def get? (store : Store) (path : Path) : Option Text :=
  (store.entries.find? fun entry => entry.1.same path).map Prod.snd

def contains (store : Store) (path : Path) : Bool := (store.get? path).isSome

/-- Replaces the text of the first entry for a path, whose spelling stays, or adds an entry. -/
def putEntry (path : Path) (text : Text) : List (Path × Text) → List (Path × Text)
  | [] => [(path, text)]
  | entry :: rest =>
    if entry.1.same path then (entry.1, text) :: rest else entry :: putEntry path text rest

def put (store : Store) (path : Path) (text : Text) : Store :=
  { store with entries := putEntry path text store.entries }

def erase (store : Store) (path : Path) : Store :=
  { store with entries := store.entries.filter fun entry => !entry.1.same path }

/-- The text of a file, unless reading it is denied: that is said even of a missing one. -/
def read (store : Store) (path : Path) : Except FileFault Text :=
  if store.unreadable.any (·.same path) then .error .readDenied
  else
    match store.get? path with
    | some text => .ok text
    | none => .error .noSuchFile

/-- The store with a file replaced, unless writing it is denied. -/
def write (store : Store) (path : Path) (text : Text) : Except FileFault Store :=
  if store.unwritable.any (·.same path) then .error .writeDenied else .ok (store.put path text)

instance : ModuleFiles Store where
  isFile := contains
  read := read
  write := write

end Store

end Relink
