import Relink.FileTree.Walk

/-!
# Changing file trees

Writing and copying files, making and removing directories. A change of several steps that fails
leaves what its steps have done.
-/

set_option autoImplicit false

namespace Relink.FileTree

/-- A change of a tree that may fail half way. -/
abbrev Change := ExceptT SystemFault (StateM FileTree)

/-- A change that happens whole or not at all. -/
def atOnce (change : FileTree → Except SystemFault FileTree) : Change Unit := fun tree =>
  match change tree with
  | .ok changed => (.ok (), changed)
  | .error fault => (.error fault, tree)

/-! ## Files -/

/-- The tree with a file of that content at a path. A file that is there keeps its permission to be
executed, unless one is given. -/
def writeFile (path : Path) (content : Content) (executable : Option Bool) (tree : FileTree) :
    Except SystemFault FileTree :=
  match tree.fileOf path with
  | .error fault => .error fault
  | .ok (.found location (.file _ old)) =>
    .ok (tree.put location (.file content (executable.getD old)))
  | .ok (.found _ _) => .error .isDirectory
  | .ok (.absent directory name) =>
    .ok (tree.put (directory ++ [name]) (.file content (executable.getD false)))

def writeText (tree : FileTree) (path : Path) (text : Text) : Except FileFault FileTree :=
  (tree.writeFile path (.text text) none).mapError .system

/-- The tree with a file copied, with its permission to be executed. -/
def copyFile (source target : Path) (tree : FileTree) : Except SystemFault FileTree :=
  match tree.resolve source with
  | .error fault => .error fault
  | .ok (location, .file _ executable) =>
    match tree.writeFile target (.text []) (some executable) with
    | .error fault => .error fault
    | .ok emptied =>
      -- The source is read only now, so a file copied onto itself ends up empty.
      match emptied.get? location with
      | some (.file content _) => emptied.writeFile target content (some executable)
      | _ => .ok emptied
  | .ok (_, _) => .error .irregular

/-- The tree less the file or the link that a path names. A link is not followed. -/
def unlink (path : Path) (tree : FileTree) : Except SystemFault FileTree := do
  let landing ← tree.landing path
  if !landing.isEntry then throw .isDirectory
  match ← tree.lookUp landing.directory landing.segment with
  | none => throw .missing
  | some (.directory _) => throw .isDirectory
  | some _ =>
    if landing.spelledDirectory then throw .notDirectory
    pure (tree.erase landing.location)

/-! ## Directories -/

/-- The tree with a new directory. The directory above it must be there. -/
def makeDirectory (path : Path) (tree : FileTree) : Except SystemFault FileTree := do
  let landing ← tree.landing path
  if !landing.isEntry then throw .exists
  match ← tree.lookUp landing.directory landing.segment with
  | some _ => throw .exists
  | none => pure (tree.put landing.location Node.emptyDirectory)

/-- The tree less an empty directory. Its name must be the last segment of the path. -/
def dropDirectory (path : Path) (tree : FileTree) : Except SystemFault FileTree := do
  let landing ← tree.landing path
  if landing.segment = Path.currentSegment then throw .invalidArgument
  if landing.segment = Path.parentSegment then throw .notEmpty
  if !landing.isEntry then throw .busy
  match ← tree.lookUp landing.directory landing.segment with
  | none => throw .missing
  | some (.directory []) => pure (tree.erase landing.location)
  | some (.directory (_ :: _)) => throw .notEmpty
  | some _ => throw .notDirectory

def ensureDirectory (path : Path) (tree : FileTree) : Except SystemFault FileTree :=
  match tree.makeDirectory path with
  | .ok made => .ok made
  | .error fault => if tree.isDirectory path then .ok tree else .error fault

/-- Makes the first of a path and its ancestors unless it is there, and before it, where they are
missing, the directories above it. -/
def ensureFirst : List Path → Change Unit
  | [] => pure ()
  | path :: above =>
    -- The empty path stands for where relative paths start.
    if path.spelling = [] then pure ()
    else fun tree =>
      match tree.ensureDirectory path with
      | .ok made => (.ok (), made)
      | .error .missing => (do ensureFirst above; atOnce (ensureDirectory path)) tree
      | .error fault => (.error fault, tree)

/-- Makes a directory and those above it, where they are missing. -/
def makeDirectories (path : Path) : Change Unit := ensureFirst path.ancestors

def finishRemoval (path : Path) : Change Unit := fun tree =>
  match tree.dropDirectory path with
  | .ok removed => (.ok (), removed)
  -- A path that leads through the contents is gone with them.
  | .error .missing => (.ok (), tree)
  | .error fault => (.error fault, tree)

/-- Removes a directory with all that is in it. A link is removed and not followed, unless the path
ends in a slash. -/
def removeDirectory (path : Path) : Change Unit := fun tree =>
  match tree.entryOf path with
  | .error fault => (.error fault, tree)
  | .ok (.absent _ _) => (.error .missing, tree)
  | .ok (.found _ (.file _ _)) => (.error .notDirectory, tree)
  | .ok (.found _ (.link _)) => atOnce (unlink path) tree
  | .ok (.found location (.directory _)) =>
    finishRemoval path (tree.put location Node.emptyDirectory)

def remove (path : Path) : Change Unit := fun tree =>
  match tree.entryOf path with
  | .ok (.found _ (.directory _)) => removeDirectory path tree
  | _ => atOnce (unlink path) tree

/-! ## Planting -/

/-- The tree with a link. Its target must be a path of some length, and nothing must be there under
its name. -/
def makeLink (path target : Path) (tree : FileTree) : Except SystemFault FileTree := do
  if let some fault := target.spellingFault? then throw fault
  let landing ← tree.landing path
  if !landing.isEntry then throw .exists
  match ← tree.lookUp landing.directory landing.segment with
  | some _ => throw .exists
  | none =>
    if landing.spelledDirectory then throw .missing
    pure (tree.put landing.location (.link target))

/-- Puts a file, a link or an empty directory at a path and makes the directories above it. -/
def plant (path : Path) (node : Node) : Change Unit :=
  match node with
  | .directory _ => makeDirectories path
  | .link target => do
    makeDirectories (path.parent?.getD ⟨[]⟩)
    atOnce (makeLink path target)
  | .file content executable => do
    makeDirectories (path.parent?.getD ⟨[]⟩)
    atOnce (writeFile path content (if executable then some true else none))

instance : ModuleFiles FileTree where
  isFile := isFile
  read := readText
  write := writeText

end Relink.FileTree
