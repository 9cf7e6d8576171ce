import Relink.FileTree.Change
import Relink.Script.Command
import Relink.Text.Octet

/-!
# Shells

What a running script knows: its file tree, variables, functions and options, and where its
descriptors lead. A step of a script may end it, or leave a loop or a function.
-/

set_option autoImplicit false

namespace Relink.Script

/-- Where a descriptor leads. -/
inductive Channel where
  | nothing
  /-- What is written can be read again. -/
  | memory (chars : Text)
  /-- A place in a file, counted in bytes, or its end, wherever that is. -/
  | file (location : Location) (offset : Nat) (atEnd : Bool)
deriving Inhabited

/-- A variable. One without a value is declared only. -/
structure Variable where
  value : Option Text
  exported : Bool
  readOnly : Bool
deriving Repr

/-- What `set` turns on and off. -/
structure Options where
  /-- A failing command ends the script. -/
  exitOnFailure : Bool
  /-- A parameter without a value ends the script. -/
  demandValues : Bool
  /-- Patterns do not stand for file names. -/
  plainNames : Bool
  /-- Commands are shown before they are run. -/
  showCommands : Bool
  /-- Commands are read and not run. -/
  onlyRead : Bool
  /-- Redirections do not replace files. -/
  keepFiles : Bool
  /-- Variables are exported as they are set. -/
  exportAll : Bool
  /-- Lines are shown as they are read. -/
  showLines : Bool
deriving DecidableEq, Repr

/-- A running script. -/
structure Shell where
  tree : FileTree
  name : Text
  arguments : List Text
  bindings : List (Text × Variable)
  functions : List (Text × Command)
  documents : List (Nat × Word)
  nextDocument : Nat
  options : Options
  status : Nat
  /-- Status of the last substitution of the command at hand. -/
  substituted : Nat
  line : Nat
  /-- The line that the script is read up to. -/
  readLine : Nat
  /-- The builtin that complaints name. -/
  builtin : Option Text
  /-- The name that the running program was called by. -/
  called : Text
  loops : Nat
  /-- Number of functions that are running. -/
  depth : Nat
  /-- Number of shells that this one runs in. -/
  ancestors : Nat
  /-- Variables that the running function has hidden. -/
  hidden : List (Text × Option Variable)
  descriptors : List (Nat × Nat)
  channels : List Channel
  /-- What is run when a signal comes, or when the script ends. -/
  traps : List (Text × Text)
  aliases : List (Text × Text)
  /-- The statuses of the commands that ran in the background, the first one first. One that was
  waited for has none. -/
  jobs : List (Option Nat)
  /-- Number of letters of the argument at hand that `getopts` has passed. -/
  passedLetters : Nat
  /-- Whether something could not be written. -/
  outputFailed : Bool

/-- Why a script does not go on with the next command. -/
inductive Halt where
  | exit
  /-- A fault that ends the script, with its status set already. -/
  | fault
  | leaveLoops (count : Nat)
  | nextRound (count : Nat)
  | leaveFunction
  | killed (signal : Nat)
deriving DecidableEq, Repr

abbrev Run := ExceptT Halt (StateM Shell)

/-! ## Steps -/

/-- Runs a step, and then another one, however the first ended. -/
def Run.finally {α : Type} (step : Run α) (after : Shell → Shell) : Run α := fun shell =>
  match step shell with
  | (found, changed) => (found, after changed)

def Run.attempt {α : Type} (step : Run α) : Run (Except Halt α) := fun shell =>
  match step shell with
  | (found, changed) => (.ok found, changed)

def setStatus (status : Nat) : Run Unit := modify fun shell => { shell with status := status }

def setLine (line : Nat) : Run Unit := modify fun shell => { shell with line := line }

/-! ## Channels -/

def bytesOf : Node → List UInt8
  | .file (.text chars) _ => Octet.encode chars
  | .file (.binary bytes) _ => bytes
  | _ => []

def bytesAt (tree : FileTree) (location : Location) : List UInt8 :=
  ((tree.get? location).map bytesOf).getD []

def overwrite (old : List UInt8) (offset : Nat) (bytes : List UInt8) : List UInt8 :=
  let front := old.take offset
  front ++ List.replicate (offset - front.length) 0 ++ bytes ++ old.drop (offset + bytes.length)

/-- The tree with bytes written to a file at a location, if there is one. -/
def writeAt (tree : FileTree) (location : Location) (offset : Nat) (bytes : List UInt8) :
    FileTree :=
  match tree.get? location with
  | some (.file content executable) =>
    let changed := overwrite (bytesOf (.file content executable)) offset bytes
    tree.put location (.file (.ofBytes changed) executable)
  | _ => tree

namespace Shell

def channel? (shell : Shell) (descriptor : Nat) : Option Nat :=
  (shell.descriptors.find? fun entry => entry.1 == descriptor).map Prod.snd

def setChannel (shell : Shell) (number : Nat) (channel : Channel) : Shell :=
  { shell with channels := shell.channels.set number channel }

/-- The shell with a descriptor that leads to a channel, or nowhere. -/
def connect (shell : Shell) (descriptor : Nat) (channel : Option Nat) : Shell :=
  let others := shell.descriptors.filter fun entry => entry.1 != descriptor
  { shell with
    descriptors := (channel.map fun number => (descriptor, number)).toList ++ others }

/-- The shell with one more channel, and the number of that. -/
def open_ (shell : Shell) (channel : Channel) : Nat × Shell :=
  (shell.channels.length, { shell with channels := shell.channels ++ [channel] })

def connectNew (shell : Shell) (descriptor : Nat) (channel : Channel) : Shell :=
  let opened := shell.open_ channel
  opened.2.connect descriptor (some opened.1)

def writeChannel (shell : Shell) (number : Nat) (chars : Text) : Shell :=
  match shell.channels[number]? with
  | some (.memory old) => shell.setChannel number (.memory (old ++ chars))
  | some (.file location offset atEnd) =>
    let place := if atEnd then (bytesAt shell.tree location).length else offset
    let bytes := Octet.bytesOf chars
    { shell with tree := writeAt shell.tree location place bytes }.setChannel number
      (.file location (place + bytes.length) atEnd)
  | _ => shell

def write (shell : Shell) (descriptor : Nat) (chars : Text) : Shell :=
  match shell.channel? descriptor with
  | some number => if chars.isEmpty then shell else shell.writeChannel number chars
  -- To write nothing goes well even where nothing can be written.
  | none => if chars.isEmpty then shell else { shell with outputFailed := true }

def readable (shell : Shell) (descriptor : Nat) : Text :=
  match (shell.channel? descriptor).bind fun number => shell.channels[number]? with
  | some (.memory chars) => chars
  | some (.file location offset _) => Octet.textOf ((bytesAt shell.tree location).drop offset)
  | _ => []

def readsDirectory (shell : Shell) (descriptor : Nat) : Bool :=
  match (shell.channel? descriptor).bind fun number => shell.channels[number]? with
  | some (.file location _ _) => (shell.tree.get? location).any Node.isDirectory
  | _ => false

def consume (shell : Shell) (descriptor count : Nat) : Shell :=
  match shell.channel? descriptor with
  | some number =>
    match shell.channels[number]? with
    | some (.memory chars) => shell.setChannel number (.memory (chars.drop count))
    | some (.file location offset atEnd) =>
      let passed := Octet.bytesOf ((shell.readable descriptor).take count)
      shell.setChannel number (.file location (offset + passed.length) atEnd)
    | _ => shell
  | none => shell

def written (shell : Shell) (number : Nat) : Text :=
  match shell.channels[number]? with
  | some (.memory chars) => chars
  | _ => []

end Shell

def print (descriptor : Nat) (chars : Text) : Run Unit :=
  modify fun shell => shell.write descriptor chars

/-- A text in single quotes, those in it each in double quotes between them. -/
def Text.inQuotes (text : Text) : Text :=
  '\x27' :: text.flatMap (fun c => if c = '\x27' then "'\"'\"'".toList else [c]) ++ ['\x27']

/-! ## Complaints -/

/-- What complaints begin with: the script, the line and the builtin. -/
def Shell.complaintFront (shell : Shell) : Text :=
  shell.name ++ ": ".toList ++ Text.ofNat shell.line ++ ": ".toList ++
    (shell.builtin.map fun name => name ++ ": ".toList).getD []

def warn (message : Text) : Run Unit :=
  modify fun shell => shell.write 2 (shell.complaintFront ++ message ++ ['\n'])

/-- Complains and gives up, with a status. -/
def failWith {α : Type} (status : Nat) (message : Text) : Run α := do
  warn message
  setStatus status
  throw .fault

def fail {α : Type} (message : Text) : Run α := failWith 2 message

/-! ## Variables -/

namespace Shell

def binding? (shell : Shell) (name : Text) : Option Variable :=
  (shell.bindings.find? fun entry => entry.1 == name).map Prod.snd

def get? (shell : Shell) (name : Text) : Option Text :=
  (shell.binding? name).bind Variable.value

def setVariable (shell : Shell) (name : Text) (found : Option Variable) : Shell :=
  let others := shell.bindings.filter fun entry => entry.1 != name
  { shell with bindings := (found.map fun binding => (name, binding)).toList ++ others }

def separators (shell : Shell) : Text := (shell.get? "IFS".toList).getD [' ', '\t', '\n']

end Shell

/-- Sets a variable; `exported` exports it besides. -/
def assignVariable (name value : Text) (exported : Bool) : Run Unit := do
  let shell ← get
  let old := shell.binding? name
  if old.any Variable.readOnly then fail (name ++ ": is read only".toList)
  let isExported := exported || shell.options.exportAll || old.any Variable.exported
  set (shell.setVariable name (some ⟨some value, isExported, false⟩))
  if name = "OPTIND".toList then modify fun after => { after with passedLetters := 0 }

def Shell.here (shell : Shell) : Text := '/' :: Text.joinWith ['/'] shell.tree.workingDirectory

/-! ## Starting -/

def Options.none : Options := ⟨false, false, false, false, false, false, false, false⟩

/-- The number that scripts are told to be their own process. -/
def processNumber : Nat := 4242

def usualPath : Text := "/usr/local/sbin:/usr/local/bin:/usr/sbin:/usr/bin:/sbin:/bin".toList

def givenVariables (tree : FileTree) : List (Text × Variable) :=
  [("PATH", usualPath), ("HOME", "/root".toList),
    ("PWD", '/' :: Text.joinWith ['/'] tree.workingDirectory)].map
      fun entry : String × Text => (entry.1.toList, (⟨some entry.2, true, false⟩ : Variable))

/-- Variables that every shell sets for itself, where it is not given others. -/
def ownVariables (tree : FileTree) : List (Text × Variable) :=
  [("IFS", " \t\n".toList), ("OPTIND", "1".toList), ("PS4", "+ ".toList), ("PPID", "1".toList),
    ("PATH", usualPath), ("PWD", '/' :: Text.joinWith ['/'] tree.workingDirectory)].map
      fun entry : String × Text => (entry.1.toList, (⟨some entry.2, false, false⟩ : Variable))

def withOthers (bindings others : List (Text × Variable)) : List (Text × Variable) :=
  bindings ++ others.filter fun entry => !bindings.any fun known => known.1 == entry.1

/-- A shell that starts in a tree, with nothing to read and with two channels to write to. -/
def Shell.start (tree : FileTree) (name : Text) (arguments : List Text) : Shell :=
  { tree := tree, name := name, arguments := arguments, bindings := withOthers (givenVariables tree) (ownVariables tree)
    functions := [], documents := [], nextDocument := 0, options := .none, status := 0
    substituted := 0, line := 0, readLine := 0, builtin := none, called := name, loops := 0
    depth := 0, ancestors := 0, hidden := [], descriptors := [(0, 0), (1, 1), (2, 2)]
    channels := [.nothing, .memory [], .memory []], traps := [], aliases := [], jobs := []
    passedLetters := 0, outputFailed := false }

end Relink.Script
