import Relink.Build.Fault
import Relink.Build.Job
import Relink.Script.Execution
import Relink.Text.Blank

/-!
# Compilers

A compiler takes a job and changes the file tree. Besides the program that a build starts, there
are compilers that are given by what they do.
-/

set_option autoImplicit false

namespace Relink.Build

/-- What a compiler does to a tree. A failing compiler leaves what it has done so far. -/
abbrev Compiling := ExceptT CompilerFault (StateM FileTree)

abbrev Compiler := Job → Compiling Unit

def filing (change : FileTree.Change Unit) : Compiling Unit := fun tree =>
  match change tree with
  | (.ok _, changed) => (.ok (), changed)
  | (.error fault, changed) => (.error (.filing fault), changed)

namespace Compiler

/-! ## Compilers given by what they do -/

def failing (text : Text) : Compiler := fun _ tree => (.error (.reported text), tree)

def emitCopy (source target : Path) : Compiling Unit := do
  filing (FileTree.makeDirectories (target.parent?.getD ⟨[]⟩))
  filing (FileTree.atOnce (FileTree.copyFile source target))

/-- Copies the entry points, each to the path of its module. -/
def copyEach (job : Job) : List Path → Compiling Unit
  | [] => pure ()
  | entry :: rest => do
    emitCopy (job.source.join entry) (job.output.join (emittedPath entry job.format.extension))
    copyEach job rest

def copying : Compiler := fun job => copyEach job job.entryPoints

def plantEach (directory : Path) : List (Path × Node) → Compiling Unit
  | [] => pure ()
  | (path, node) :: rest => do
    filing (FileTree.plant (directory.join path) node)
    plantEach directory rest

/-- Emits given files, whatever the job is. -/
def emitting (files : List (Path × Node)) : Compiler := fun job => plantEach job.output files

/-! ## Programs -/

/-- Prepares a program that a build names, or says why it cannot be started. A name without a slash
is looked up among the known programs. -/
def prepared (tree : FileTree) (path : Path) (arguments : List Text) :
    Except SystemFault (Script.Run Unit) :=
  let name := path.spelling
  let shell := Script.Shell.start tree [] []
  let launch := fun found : Text =>
    Script.launch (Script.runner Script.maxDepth) Script.maxInterpreters shell name found arguments
  if (name :: arguments).any (·.contains '\x00') then .error .nulInArgument
  else if name.contains '/' then launch name
  else if name = ['.'] || name = ['.', '.'] then .error .denied
  else if maxNameSize < Octet.size name then .error .nameTooLong
  else
    match shell.search? name with
    | some found => launch found
    | none => .error .missing

def ended (path : Path) (remains : Script.Remains) : Except CompilerFault Unit :=
  if remains.ending.isSuccess then .ok ()
  else .error (.exited path remains.ending (Text.trim (Octet.message remains.errors)))

def program (path : Path) : Compiler := fun job tree =>
  match prepared tree path job.arguments with
  | .error fault => (.error (.notStarted path fault), tree)
  | .ok step =>
    let remains := Script.conclude tree step
    (ended path remains, remains.tree)

end Compiler

end Relink.Build
