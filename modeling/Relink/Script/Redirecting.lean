import Relink.Script.Builtin
import Relink.Script.Reading

/-!
# Redirections

Commands in shells of their own, and commands with descriptors that lead elsewhere. A command may run
others, so how they are run is a parameter.
-/

set_option autoImplicit false

namespace Relink.Script

/-- Runs what stands in a command. The flag says whether the status is tested, so that a failure does
not end the script. -/
structure Runner where
  command : Bool → Command → Run Unit
  /-- Runs a text as if it stood in the script. -/
  text : Bool → Text → Run Unit
  /-- Runs a text as a script of its own that has just started. -/
  script : Text → Run Unit

/-! ## Subshells -/

def runEndTrap (runner : Runner) : Run Unit := do
  let shell ← get
  match shell.traps.find? fun entry => entry.1 == Builtin.trapName 0 with
  | none => pure ()
  | some (name, action) =>
    set { shell with traps := shell.traps.filter fun entry => entry.1 != name }
    match ← (runner.text false action).attempt with
    -- A trap that ends the script itself decides its status.
    | .error .exit => pure ()
    | .error (.killed signal) => throw (.killed signal)
    | _ => setStatus shell.status

/-- Runs a step to the end of a script, of which only being killed is left to be seen. -/
def untilEnd (runner : Runner) (step : Run Unit) : Run Unit := do
  match ← step.attempt with
  | .error (.killed signal) => throw (.killed signal)
  | _ => runEndTrap runner

/-- A shell with what a script on its own may change of another one: files, channels and the status. -/
def Shell.merge (shell after : Shell) : Shell :=
  { shell with
    tree := { after.tree with workingDirectory := shell.tree.workingDirectory }
    channels := after.channels, documents := after.documents
    nextDocument := after.nextDocument, status := after.status }

def inSubshell (runner : Runner) (step : Run Unit) : Run Unit := fun shell =>
  match untilEnd runner step { shell with traps := [] } with
  | (found, after) => (found, shell.merge after)

def outputOf (runner : Runner) (command : Option Command) : Run Text := do
  let shell ← get
  let (number, opened) := shell.open_ (.memory [])
  set (opened.connect 1 (some number))
  let step := match command with
    | some command => runner.command false command
    | none => setStatus 0
  inSubshell runner step
  let after ← get
  set { after with
    descriptors := shell.descriptors, status := shell.status, substituted := after.status }
  pure (after.written number)

/-! ## Redirections -/

/-- A redirection whose word is expanded. A document is expanded when it is put in place. -/
inductive Redirected where
  | file (descriptor : Nat) (opening : Opening) (path : Text)
  /-- Without a source the descriptor is closed. -/
  | duplicate (descriptor : Nat) (source : Option Nat)
  | document (descriptor : Nat) (number : Nat)

/-- The descriptor that a text names, or that it closes one. -/
def descriptorOf (text : Text) : Run (Option Nat) := do
  match text with
  | ['-'] => pure none
  | _ =>
    match (if text.length = 1 then text.find? Char.isDigit else none) with
    | some d => pure (some (d.toNat - '0'.toNat))
    | none =>
      setLine (← get).readLine
      fail "Syntax error: Bad fd number".toList

def expandRedirection (output : OutputRunner) : Redirection → Run Redirected
  | .file descriptor opening target => do
    pure (.file descriptor opening (← expandWhole output target))
  | .duplicate descriptor source => do
    pure (.duplicate descriptor (← descriptorOf (← expandWhole output source)))
  | .document descriptor number => pure (.document descriptor number)

/-- Why a file cannot be opened, in the words of shells. -/
def openingPhrase (opening : Opening) (fault : SystemFault) : String :=
  match fault with
  | .missing | .notDirectory =>
    if opening = .read then "No such file" else "Directory nonexistent"
  | _ => fault.phrase

def failOpening {α : Type} (opening : Opening) (path : Text) (fault : SystemFault) : Run α :=
  let verb := if opening = .read then "cannot open " else "cannot create "
  fail (verb.toList ++ path ++ ": ".toList ++ (openingPhrase opening fault).toList)

def deviceDescriptor? (path : Text) : Option Nat :=
  match String.ofList path with
  | "/dev/stdin" | "/dev/fd/0" => some 0
  | "/dev/stdout" | "/dev/fd/1" => some 1
  | "/dev/stderr" | "/dev/fd/2" => some 2
  | _ => none

def openFile (descriptor : Nat) (opening : Opening) (path : Text) : Run Unit := do
  let shell ← get
  -- A file that is to be kept is written once more as it is, so that it is there in any case.
  let made (keep : Bool) : Except SystemFault FileTree :=
    let old := ((shell.tree.node? ⟨path⟩).map fun node =>
      match node with
      | .file content _ => content
      | _ => .text []).getD (.text [])
    shell.tree.writeFile ⟨path⟩ (if keep then old else .text []) none
  let changed : Except SystemFault FileTree :=
    match opening with
    | .read => .ok shell.tree
    | .write =>
      if shell.options.keepFiles && shell.tree.isFile ⟨path⟩ then .error .exists else made false
    | .replace => made false
    | .append | .readWrite => made true
  match changed with
  | .error fault => failOpening opening path fault
  | .ok tree =>
    match tree.resolve ⟨path⟩ with
    | .error fault => failOpening opening path fault
    | .ok (location, _) =>
      set ({ shell with tree := tree }.connectNew descriptor
        (.file location 0 (opening == Opening.append)))

def redirect (output : OutputRunner) : Redirected → Run Unit
  | .file descriptor opening path => do
    let shell ← get
    if path = "/dev/null".toList then set (shell.connectNew descriptor .nothing)
    else
      match deviceDescriptor? path with
      | some source => set (shell.connect descriptor (shell.channel? source))
      | none => openFile descriptor opening path
  | .duplicate descriptor none => modify fun shell => shell.connect descriptor none
  | .duplicate descriptor (some source) => do
    let shell ← get
    match shell.channel? source with
    | some number => set (shell.connect descriptor (some number))
    | none =>
      -- Complaints lead nowhere from here on, the next one included.
      if descriptor = 2 then set (shell.connect 2 none)
      fail (Text.ofNat source ++ ": Bad file descriptor".toList)
  | .document descriptor number => do
    let body := ((← get).documents.find? fun entry => entry.1 == number).map Prod.snd
    let chars := Piece.text (← expandParts output maxNesting false false (body.getD []))
    modify fun shell => shell.connectNew descriptor (.memory chars)

/-- Runs a step with redirections, which are taken back behind it. Where they fail the step is not
run. -/
def withRedirected (output : OutputRunner) (redirections : List Redirected) (step : Run Unit) :
    Run Bool := fun shell =>
  match (redirections.forM (redirect output)).attempt shell with
  | (.ok (.ok _), ready) =>
    match step ready with
    | (.ok _, after) => (.ok true, { after with descriptors := shell.descriptors })
    | (.error halt, after) => (.error halt, { after with descriptors := shell.descriptors })
  | (.ok (.error .fault), after) =>
    (.ok false, { after with descriptors := shell.descriptors, status := 2 })
  | (.ok (.error halt), after) => (.error halt, after)
  | (.error halt, after) => (.error halt, after)

end Relink.Script
