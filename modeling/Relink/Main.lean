import Relink.CommandLine.Answer
import Relink.FileTree.Edit

/-!
# The program

Reads into a file tree what a command is about, carries the command out there, and makes the same
changes to the files themselves.
-/

set_option autoImplicit false

namespace Relink

/-! ## Reading files -/

def Location.absolute (location : Location) : String :=
  String.ofList ('/' :: Text.joinWith ['/'] location)

/-- The absolute path that a link leads to; an empty one, if it leads nowhere. -/
def linkTarget (location : Location) : IO Path := do
  try
    pure (.ofString (← IO.FS.realPath location.absolute).toString)
  catch _ =>
    pure (.ofString "")

/-- A regular file. One that names its interpreter counts as executable. -/
def loadFile (location : Location) : IO Node := do
  let bytes := (← IO.FS.readBinFile location.absolute).toList
  pure (.file (.ofBytes bytes) ("#!".toUTF8.toList.isPrefixOf bytes))

def kindOf? (location : Location) : IO (Option IO.FS.FileType) := do
  let place := (← IO.currentDir) / location.absolute
  try
    pure (some (← place.symlinkMetadata).type)
  catch _ =>
    pure none

/-- What is at a location, directories with all that is in them. -/
partial def loadNode (location : Location) : IO (Option Node) := do
  match ← kindOf? location with
  | none => pure none
  | some .dir =>
    let place := (← IO.currentDir) / location.absolute
    let mut entries := []
    for entry in ← place.readDir do
      if let some node ← loadNode (location ++ [entry.fileName.toList]) then
        entries := (entry.fileName.toList, node) :: entries
    pure (some (.directory entries))
  | some .symlink => pure (some (.link (← linkTarget location)))
  | some _ => pure (some (← loadFile location))

/-- The tree with an empty directory at a location unless a directory is there. -/
def withDirectory (tree : FileTree) (location : Location) : FileTree :=
  if (tree.get? location).any Node.isDirectory then tree
  else tree.put location Node.emptyDirectory

/-- The tree with all that is met on the way from a directory along segments, and all that is at the
end of that way. -/
partial def loadAlong (tree : FileTree) (here : Location) : List Text → IO FileTree
  | [] => do
    match ← loadNode here with
    | some node => pure (tree.put here node)
    | none => pure tree
  | segment :: rest => do
    if segment = Path.currentSegment then loadAlong tree here rest
    else if segment = Path.parentSegment then loadAlong tree here.dropLast rest
    else
      let next := here ++ [segment]
      match ← kindOf? next with
      | none => pure tree
      | some .dir => loadAlong (withDirectory tree next) next rest
      | some .symlink =>
        let target ← linkTarget next
        let linked := tree.put next (.link target)
        if target.isAbsolute then loadAlong linked [] (target.steps ++ rest) else pure linked
      | some _ => pure (tree.put next (← loadFile next))

/-- The tree that holds what some paths name. -/
def loadTree (paths : List Path) : IO FileTree := do
  let directory := (Path.ofString (← IO.currentDir).toString).steps
  paths.foldlM (fun tree path => loadAlong tree (FileTree.startOf directory path) path.steps)
    (FileTree.startingAt directory)

/-! ## Changing files -/

def writeContent (location : Location) : Content → IO Unit
  | .text chars => IO.FS.writeFile location.absolute (String.ofList chars)
  | .binary bytes => IO.FS.writeBinFile location.absolute ⟨bytes.toArray⟩

/-- Lets everyone read and execute a file, and its owner change it. -/
def allowExecution (location : Location) : IO Unit :=
  IO.setAccessRights location.absolute
    { user := ⟨true, true, true⟩, group := ⟨true, false, true⟩, other := ⟨true, false, true⟩ }

/-- Makes one change. Links are left to the programs that make them. -/
def Edit.perform : Edit → IO Unit
  | .remove location => do
    let place := (← IO.currentDir) / location.absolute
    if (← kindOf? location) matches some .dir then IO.FS.removeDirAll place
    else IO.FS.removeFile place
  | .makeDirectory location => IO.FS.createDir location.absolute
  | .writeFile location content executable => do
    writeContent location content
    if executable then allowExecution location
  | .makeLink _ _ => pure ()

/-! ## Printing -/

def Event.line (event : Event) : String :=
  event.severity.name ++ " " ++ event.message ++
    String.join (event.details.map fun detail => " " ++ detail.1 ++ "=" ++ detail.2)

def shownEvents (verbose : Bool) (events : List Event) : List Event :=
  if verbose then events else events.filter fun event => event.severity = .error

def Answer.print (answer : Answer) (verbose : Bool) : IO Unit := do
  for event in shownEvents verbose answer.events do
    IO.eprintln event.line
  IO.print (String.ofList answer.output)
  IO.eprint answer.errors

def Command.perform (command : Command) : IO Answer := do
  let before ← loadTree command.paths
  let (answer, after) := command.run before
  for edit in Edit.toward [] (some before.root) after.root do
    edit.perform
  pure answer

end Relink

/-- The program: its exit code is that of its answer. -/
def main (words : List String) : IO UInt32 := do
  match Relink.CommandLine.parse (words.map String.toList) with
  | .error halt =>
    halt.answer.print false
    pure (UInt32.ofNat halt.answer.code)
  | .ok command =>
    let answer ← command.perform
    answer.print command.isVerbose
    pure (UInt32.ofNat answer.code)
