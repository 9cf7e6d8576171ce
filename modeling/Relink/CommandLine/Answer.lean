import Relink.CommandLine.Command
import Relink.Report

/-!
# Answers

What a command line comes to: an exit code, what is printed, and a changed file tree.
-/

set_option autoImplicit false

namespace Relink

/-- What a command line comes to, apart from the file tree. -/
structure Answer where
  code : Nat
  output : Text
  errors : String
  events : List Event
deriving DecidableEq, Repr

namespace Answer

def success (output : Text) (events : List Event) : Answer := ⟨0, output, "", events⟩

def failure (reason : String) (events : List Event) : Answer :=
  ⟨1, [], "error: " ++ reason ++ "\n", events⟩

/-- A report as JSON. There is none of paths that are no UTF-8. -/
def report (paths : List Path) (fields : List (String × JsonValue)) (events : List Event) : Answer :=
  if paths.all fun path => (Octet.unicode? path.spelling).isSome then
    success ((versioned fields).render ++ ['\n']) events
  else failure "path contains invalid UTF-8 characters" events

end Answer

namespace Command

/-- Whether events of all severities are shown, and not errors only. -/
def isVerbose : Command → Bool
  | .build config _ => config.verbose
  | .fix _ options _ => options.verbose
  | .inspect _ => false

def conclude {α : Type} (describe : α → List Event → Answer) (building : Build.Building α)
    (tree : FileTree) : Answer × FileTree :=
  match building (.start tree) with
  | (.ok result, progress) => (describe result progress.events, progress.tree)
  | (.error fault, progress) => (.failure fault.message progress.events, progress.tree)

def describeBuild (output : Path) (json : Bool) (report : Build.BuildReport) :
    List Event → Answer :=
  if json then .report report.paths report.fields else .success (report.summary output).toList

def describePass (json : Bool) (report : PassReport) : List Event → Answer :=
  if json then .report report.paths report.fields else .success report.summary.toList

def inspectFile (tree : FileTree) (file : Path) : Answer :=
  match tree.readText file with
  | .error fault => .failure ("read " ++ file.render ++ ": " ++ fault.message) []
  | .ok text =>
    match Statement.split text with
    | .error fault => .failure (ModuleFault.unparsable file fault).message []
    | .ok statements => .report [file] (listingFields file statements) []

def run (command : Command) (tree : FileTree) : Answer × FileTree :=
  match command with
  | .build config json => conclude (describeBuild config.output json) (Build.runProgram config) tree
  | .fix directory options json =>
    conclude (describePass json) (Build.fixModules directory options) tree
  | .inspect file => (inspectFile tree file, tree)

end Command

namespace CommandLine

def usageLines : List String :=
  ["Usage: relink <COMMAND>",
    "",
    "Commands:",
    "  build    Compile a source tree, copy its other files and relink ES modules",
    "  fix      Relink the modules of an output tree",
    "  inspect  Print the top-level statements of a module as JSON",
    "  help     Print this",
    "",
    "relink build [-s|--src DIR] [-o|--out DIR] [-f|--format cjs|esm|iife] [-m|--minify]",
    "             [-d|--clear true|false] [-v|--verbose] [--source-ext EXT]...",
    "             [--compiler FILE] [--json]",
    "relink fix DIR [--ext js|mjs|cjs] [-m|--minify] [-v|--verbose] [--source-ext EXT]...",
    "             [--json]",
    "relink inspect FILE"]

def usage : String := String.join (usageLines.map fun line => line ++ "\n")

def banner : String := "relink 0.1.0\n"

def Halt.answer : Halt → Answer
  | .help => .success usage.toList []
  | .version => .success banner.toList []
  | .misuse => ⟨2, [], usage, []⟩

def run (words : List Text) (tree : FileTree) : Answer × FileTree :=
  match parse words with
  | .ok command => command.run tree
  | .error halt => (halt.answer, tree)

end CommandLine

end Relink
