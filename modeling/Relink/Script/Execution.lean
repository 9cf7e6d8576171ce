import Relink.Script.Ending
import Relink.Script.Launching

/-!
# Running scripts

How commands are run, simple and compound ones, and whole scripts. A command may run others, in
substitutions, functions and scripts; how they are run is filled in, depth by depth, at the end.
-/

set_option autoImplicit false

namespace Relink.Script

/-! ## Simple commands -/

def launchStatus : SystemFault → Nat
  | .missing | .notDirectory | .nameTooLong | .tooManyLinks => 127
  | _ => 126

def becomeProgram (runner : Runner) (name : Text) (arguments : List Text) : Run Unit := do
  let shell ← get
  let found := if name.contains '/' then some name else shell.search? name
  let prepared := match found with
    | some path => launch runner maxInterpreters shell name path arguments
    | none => .error .missing
  match prepared with
  | .ok step =>
    setStatus 0
    step
  -- A script that names no interpreter is run by a shell.
  | .error .notExecutable =>
    runShell runner "/bin/sh".toList (found.getD name :: arguments)
  | .error fault =>
    let isDenied := !name.contains '/' &&
      (shell.candidates name).any fun path => shell.tree.isFile ⟨path⟩
    let phrase := match fault with
      | .missing | .notDirectory => if isDenied then SystemFault.denied.phrase else "not found"
      | _ => fault.phrase
    warn (name ++ ": ".toList ++ phrase.toList)
    setStatus (launchStatus fault)

def killedPhrase? : Nat → Option String
  | 1 => some "Hangup"
  | 3 => some "Quit"
  | 4 => some "Illegal instruction"
  | 5 => some "Trace/breakpoint trap"
  | 6 => some "Aborted"
  | 7 => some "Bus error"
  | 8 => some "Floating point exception"
  | 9 => some "Killed"
  | 10 => some "User defined signal 1"
  | 11 => some "Segmentation fault"
  | 12 => some "User defined signal 2"
  | 14 => some "Alarm clock"
  | 15 => some "Terminated"
  | 16 => some "Stack fault"
  | 24 => some "CPU time limit exceeded"
  | 25 => some "File size limit exceeded"
  | 26 => some "Virtual timer expired"
  | 27 => some "Profiling timer expired"
  | 29 => some "I/O possible"
  | 30 => some "Power failure"
  | 31 => some "Bad system call"
  | _ => none

def runProgram (runner : Runner) (name : Text) (arguments : List Text) : Run Unit := do
  match ← (becomeProgram runner name arguments).attempt with
  | .ok _ => pure ()
  | .error (.killed signal) =>
    match killedPhrase? signal with
    | some phrase => print 2 (phrase.toList ++ ['\n'])
    | none => pure ()
    setStatus (128 + signal)
  | .error halt => throw halt

def maxFunctions : Nat := 1000

def runFunction (runner : Runner) (tested : Bool) (body : Command) (arguments : List Text) :
    Run Unit := do
  let before ← get
  if maxFunctions ≤ before.depth then
    fail "Maximum function recursion depth (1000) reached".toList
  set { before with
    arguments := arguments, loops := 0, depth := before.depth + 1, hidden := [] }
  let restore (after : Shell) : Shell :=
    let restored := after.hidden.foldl (fun shell entry => shell.setVariable entry.1 entry.2) after
    { restored with
      arguments := before.arguments, loops := before.loops, depth := before.depth
      hidden := before.hidden }
  match ← ((runner.command tested body).finally restore).attempt with
  | .error .leaveFunction => pure ()
  | .error halt => throw halt
  | .ok _ => pure ()

/-! ## Meanings of names -/

/-- What a name means where a command may start. -/
inductive Meaning where
  | keyword
  | alias (text : Text)
  | function
  | builtin (special : Bool)
  | program (path : Text)

/-- What a name means, if it means anything. -/
def meaning? (shell : Shell) (name : Text) : Option Meaning :=
  if Keyword.all.any fun keyword => keyword.spelling.toList == name then some .keyword
  else
    match shell.aliases.find? fun entry => entry.1 == name with
    | some (_, text) => some (.alias text)
    | none =>
      if isSpecialBuiltin (String.ofList name) then some (.builtin true)
      else if shell.functions.any fun entry => entry.1 == name then some .function
      else if Builtin.isRegular (String.ofList name) then some (.builtin false)
      else if name.contains '/' then
        let inPrograms := Program.isProgramFile name
        if inPrograms || Condition.isExecutable shell.tree ⟨name⟩ then some (.program name)
        else none
      else (shell.search? name).map Meaning.program

def Meaning.describe : Meaning → Text
  | .keyword => "is a shell keyword".toList
  | .alias text => "is an alias for ".toList ++ text
  | .function => "is a shell function".toList
  | .builtin true => "is a special shell builtin".toList
  | .builtin false => "is a shell builtin".toList
  | .program path => "is ".toList ++ path

/-- What `command -v` prints of a meaning. -/
def Meaning.short (name : Text) : Meaning → Text
  | .alias text => "alias ".toList ++ name ++ '=' :: Text.inQuotes text
  | .program path => path
  | _ => name

def describe (names : List Text) : Run Unit := do
  let shell ← get
  names.forM fun name =>
    match meaning? shell name with
    | some found => print 1 (name ++ ' ' :: found.describe ++ ['\n'])
    | none => do
      print 1 (name ++ ": not found\n".toList)
      setStatus 127

/-- Says what a name means, briefly or in words. -/
def sayMeaning (arguments : List Text) : Run Unit := do
  let found ← Builtin.letters "pvV" arguments
  match found.arguments with
  | [] => pure ()
  | name :: _ =>
    if found.has 'V' then describe [name]
    else
      match meaning? (← get) name with
      | some meaning => print 1 (meaning.short name ++ ['\n'])
      | none => setStatus 127

/-! ## Builtins that run commands -/

/-- Runs a text read from a file as if it stood in the script. -/
def source (runner : Runner) (tested : Bool) (arguments : List Text) : Run Unit := do
  match (← Builtin.letters "" arguments).arguments with
  | [] => pure ()
  | path :: _ =>
    if !path.contains '/' then fail (path ++ ": not found".toList)
    match scriptText (← get).tree path with
    | .error fault => failOpening .read path fault
    | .ok text =>
      modify fun shell => { shell with builtin := some path }
      match ← (runner.text tested text).attempt with
      | .error .leaveFunction => pure ()
      | .error halt => throw halt
      | .ok _ => pure ()

def runningBuiltin? (runner : Runner) (tested : Bool) (name : Text) :
    Option (List Text → Run Unit) :=
  match String.ofList name with
  | "eval" => some fun arguments => runner.text tested (Text.joinWith [' '] arguments)
  | "." => some (source runner tested)
  | "kill" => some (kill runner)
  | "exec" => some fun arguments =>
    match arguments with
    | [] => pure ()
    | program :: rest => do
      modify fun shell => { shell with traps := [], builtin := some "exec".toList }
      becomeProgram runner program rest
      throw .exit
  | "command" => some sayMeaning
  | "type" => some describe
  | "hash" => some fun arguments => do
    let shell ← get
    (← Builtin.letters "rv" arguments).arguments.forM fun name =>
      if (meaning? shell name).isNone then do
        warn (name ++ ": not found".toList)
        setStatus 1
      else pure ()
  | _ => none

def builtin? (runner : Runner) (tested : Bool) (name : Text) : Option (List Text → Run Unit) :=
  (runningBuiltin? runner tested name).orElse fun _ => Builtin.find? name

/-- Whether a builtin needs the status of the command before it. -/
def keepsStatus (name : Text) : Bool :=
  ["exit", "return", "eval", "."].contains (String.ofList name)

/-- Runs a builtin. -/
def runBuiltin (name : Text) (isSpecial : Bool) (step : Run Unit) : Run Unit := do
  let before := (← get).builtin
  modify fun shell => { shell with builtin := some name, outputFailed := false }
  if !keepsStatus name then setStatus 0
  let restore (shell : Shell) : Shell := { shell with builtin := before, outputFailed := false }
  let checked : Run Unit := do
    step
    if (← get).outputFailed then
      warn (name ++ ": I/O error".toList)
      setStatus 1
  match ← (checked.finally restore).attempt with
  | .ok _ => pure ()
  -- Only in a special builtin does a fault end the script.
  | .error .fault => if isSpecial then throw .fault else pure ()
  | .error halt => throw halt

/-- A command whose words are expanded. -/
structure Prepared where
  name : Text
  arguments : List Text
  /-- Whether functions are passed over, and special builtins are like others. -/
  isPlain : Bool

def runPrepared (runner : Runner) (tested : Bool) (prepared : Prepared) : Run Unit := do
  let name := prepared.name
  let isSpecial := isSpecialBuiltin (String.ofList name)
  let function? := ((← get).functions.find? fun entry => entry.1 == name).map Prod.snd
  match isSpecial, prepared.isPlain, function?, builtin? runner tested name with
  | true, isPlain, _, some step => runBuiltin name (!isPlain) (step prepared.arguments)
  | _, false, some body, _ => runFunction runner tested body prepared.arguments
  | _, _, _, some step => runBuiltin name false (step prepared.arguments)
  | _, _, _, none => runProgram runner name prepared.arguments

/-- Builtins whose arguments may be assignments. -/
def takesAssignments (name : Text) : Bool :=
  ["export", "readonly", "local", "alias"].contains (String.ofList name)

/-- The fields of words; with the first one known, assignments among the others are not split for
builtins that take them. -/
def expandCommand (output : OutputRunner) : List Word → Run (List Text)
  | [] => pure []
  | word :: rest => do
    match ← expandFields output word with
    | [] => expandCommand output rest
    | name :: fields =>
      let others ← rest.mapM fun word => do
        if takesAssignments name && (assignment? word).isSome then
          pure [← expandWhole output word]
        else expandFields output word
      pure (name :: fields ++ others.flatten)

/-- A command without `command` before it, unless that asks what a name means. -/
def stripCommand : List Text → Bool → Option Prepared
  | [], _ => none
  | name :: rest, isPlain =>
    if name = "command".toList then
      match rest with
      | ('-' :: _) :: _ => some ⟨name, rest, isPlain⟩
      | _ => stripCommand rest true
    else some ⟨name, rest, isPlain⟩

/-- Shows a command before it is run, on a channel. -/
def showCommand (channel : Option Nat) (assigned : List (Text × Text)) (fields : List Text) :
    Run Unit := do
  let shell ← get
  if shell.options.showCommands then
    let shown := assigned.map (fun entry => entry.1 ++ '=' :: entry.2) ++ fields
    let line := (shell.get? "PS4".toList).getD [] ++ Text.joinWith [' '] shown ++ ['\n']
    match channel with
    | some number => set (shell.writeChannel number line)
    | none => pure ()

/-- Sets variables from left to right; each value may use those before it. -/
def assignAll (output : OutputRunner) (exported : Bool) :
    List (Text × Word) → Run (List (Text × Text))
  | [] => pure []
  | (name, word) :: rest => do
    let value ← expandWhole output word
    assignVariable name value exported
    pure ((name, value) :: (← assignAll output exported rest))

def Shell.restoreVariables (before : Shell) (names : List Text) (after : Shell) : Shell :=
  names.foldl (fun shell name => shell.setVariable name (before.binding? name)) after

/-- Runs what is left of a simple command once it is redirected. It is shown on a channel. -/
def runRedirected (runner : Runner) (tested : Bool) (channel : Option Nat)
    (assignments : List (Text × Word)) (fields : List Text) : Run Unit := do
  let output := outputOf runner
  match stripCommand fields false with
  -- Assignments alone last, and their status is that of the last substitution in them.
  | none =>
    let assigned ← assignAll output false assignments
    showCommand channel assigned fields
    setStatus (← get).substituted
  | some prepared =>
    let before ← get
    -- Assignments outlast special builtins and are taken back behind all other commands.
    let lasts := isSpecialBuiltin (String.ofList prepared.name) && !prepared.isPlain
    let step : Run Unit := do
      let assigned ← assignAll output (!lasts) assignments
      showCommand channel assigned fields
      runPrepared runner tested prepared
    if lasts then step
    else step.finally (before.restoreVariables (assignments.map Prod.fst))

/-- Whether redirections outlast the command. -/
def keepsRedirections (fields : List Text) : Bool := fields == ["exec".toList]

def runSimple (runner : Runner) (tested : Bool) (line : Nat) (assignments : List (Text × Word))
    (words : List Word) (redirections : List Redirection) : Run Unit := do
  let output := outputOf runner
  setLine line
  modify fun shell => { shell with substituted := 0 }
  let fields ← expandCommand output words
  let redirected ← redirections.mapM (expandRedirection output)
  -- The command is shown where complaints go before its own redirections are made.
  let step := runRedirected runner tested ((← get).channel? 2) assignments fields
  let isSpecial := fields.head?.any fun name => isSpecialBuiltin (String.ofList name)
  if keepsRedirections fields then
    redirected.forM (redirect output)
    step
  else if !(← withRedirected output redirected step) && isSpecial then throw .fault

/-! ## Compound commands -/

/-- Runs the commands of a pipeline, each with the output of the one before as its input. -/
def runPipeline (runner : Runner) (tested : Bool) (input : Option Nat) :
    List Command → Run Unit
  | [] => pure ()
  | command :: rest => do
    let shell ← get
    let (number, opened) := shell.open_ (.memory [])
    let fed := match input with
      | some channel => opened.connect 0 (some channel)
      | none => opened
    set (if rest.isEmpty then fed else fed.connect 1 (some number))
    inSubshell runner (runner.command tested command)
    modify fun after =>
      -- The last command decides the status of a pipeline.
      let status := if rest.isEmpty then after.status else shell.status
      { after with descriptors := shell.descriptors, status := status }
    runPipeline runner tested (some number) rest

/-- What a round of a loop comes to. -/
inductive Round where
  | goOn
  | stop
deriving DecidableEq, Repr

/-- Runs a round of a loop. -/
def runRound (step : Run Unit) : Run Round := do
  modify fun shell => { shell with loops := shell.loops + 1 }
  let restore (shell : Shell) : Shell := { shell with loops := shell.loops - 1 }
  match ← (step.finally restore).attempt with
  | .ok _ => pure .goOn
  -- What concerns more than one loop is passed on, with one loop less.
  | .error (.leaveLoops count) => if count ≤ 1 then pure .stop else throw (.leaveLoops (count - 1))
  | .error (.nextRound count) => if count ≤ 1 then pure .goOn else throw (.nextRound (count - 1))
  | .error halt => throw halt

/-- Runs a body for each of some texts. -/
def runForEach (runner : Runner) (tested : Bool) (name : Text) (body : Command) :
    List Text → Run Unit
  | [] => pure ()
  | item :: rest => do
    let round ← runRound do
      assignVariable name item false
      runner.command tested body
    if round = .goOn then runForEach runner tested name body rest

/-- Runs a body as long as a condition succeeds or fails, but not for ever. -/
def runRepeated (runner : Runner) (tested whileSucceeds : Bool) (condition body : Command) :
    Nat → Nat → Run Unit
  | 0, _ => throw .exit
  | rounds + 1, last => do
    let judged ← runRound (runner.command true condition)
    if judged = .stop then setStatus last
    else if ((← get).status = 0) ≠ whileSucceeds then setStatus last
    else
      let round ← runRound (runner.command tested body)
      if round = .goOn then
        runRepeated runner tested whileSucceeds condition body rounds (← get).status

def maxRounds : Nat := 1000000

def matchesAny (output : OutputRunner) (subject : Text) : List Word → Run Bool
  | [] => pure false
  | word :: rest => do
    if (← expandPattern output word).accepts subject then pure true
    else matchesAny output subject rest

/-- Runs the first branch that a text matches. -/
def runBranches (runner : Runner) (tested : Bool) (subject : Text) :
    List (List Word × Option Command) → Run Unit
  | [] => setStatus 0
  | (patterns, body) :: rest => do
    if ← matchesAny (outputOf runner) subject patterns then
      match body with
      | some command => runner.command tested command
      | none => setStatus 0
    else runBranches runner tested subject rest

/-- Ends the script if a command failed where that matters. -/
def checkStatus (tested : Bool) : Run Unit := do
  let shell ← get
  if shell.options.exitOnFailure && !tested && shell.status ≠ 0 then throw .exit

def runAnyCommand (runner : Runner) (tested : Bool) : Command → Run Unit
  | .simple line assignments words redirections => do
    runSimple runner tested line assignments words redirections
    checkStatus tested
  | .pipeline commands => do
    runPipeline runner tested none commands
    checkStatus tested
  | .negated command => do
    runner.command true command
    setStatus (if (← get).status = 0 then 1 else 0)
  | .sequence first second => do
    runner.command tested first
    runner.command tested second
  | .chained ifSucceeded first second => do
    runner.command true first
    if ((← get).status = 0) = ifSucceeded then runner.command tested second
  | .conditional condition consequent alternative => do
    runner.command true condition
    if (← get).status = 0 then runner.command tested consequent
    else
      match alternative with
      | some command => runner.command tested command
      | none => setStatus 0
  | .repeated whileSucceeds condition body =>
    runRepeated runner tested whileSucceeds condition body maxRounds 0
  | .forEach line name words body => do
    setLine line
    let items ← expandWords (outputOf runner) words
    if items.isEmpty then setStatus 0
    runForEach runner tested name body items
  | .choice line subject branches => do
    setLine line
    let text ← expandWhole (outputOf runner) subject
    runBranches runner tested text branches
  | .subshell line body redirections => do
    setLine line
    let redirected ← redirections.mapM (expandRedirection (outputOf runner))
    inSubshell runner do
      redirected.forM (redirect (outputOf runner))
      runner.command tested body
    checkStatus tested
  | .background body => do
    inSubshell runner do
      modify fun shell => shell.connectNew 0 .nothing
      runner.command false body
    modify fun shell => { shell with jobs := shell.jobs ++ [some shell.status] }
    setStatus 0
  | .redirected line body redirections => do
    setLine line
    let redirected ← redirections.mapM (expandRedirection (outputOf runner))
    if !(← withRedirected (outputOf runner) redirected (runner.command tested body)) then
      checkStatus tested
  | .definition name body => do
    modify fun shell =>
      let others := shell.functions.filter fun entry => entry.1 != name
      { shell with functions := (name, body) :: others, status := 0 }

/-- Runs a command, unless commands are only read. -/
def runCommand (runner : Runner) (tested : Bool) (command : Command) : Run Unit := do
  if !(← get).options.onlyRead then runAnyCommand runner tested command

/-! ## Scripts -/

/-- Shows lines that are read, if they are to be shown. -/
def showLines (before after : Text) : Run Unit := do
  if (← get).options.showLines then print 2 (before.take (before.length - after.length))

/-- Runs the commands that are left of a script, and says whether there were any. -/
def runSource (command : Bool → Command → Run Unit) (tested : Bool) : Nat → Source → Run Bool
  | 0, _ => pure false
  | fuel + 1, source => do
    let shell ← get
    -- Aliases that a command defines hold from the next line on.
    let ready := { source with
      nextDocument := shell.nextDocument, documents := [], aliases := shell.aliases }
    match nextCommand ready with
    | (.none, _) => pure false
    | (.fault complaint, _) =>
      let read := (Program.lines source.rest).take (complaint.line + 1 - source.line)
      showLines source.rest (source.rest.drop read.flatten.length)
      setLine complaint.line
      fail complaint.message.toList
    | (.command found, after) =>
      set { shell with
        nextDocument := after.nextDocument, documents := shell.documents ++ after.documents
        readLine := after.line }
      showLines source.rest after.rest
      let ran ←
        match found with
        | some found => do
          command tested found
          pure true
        | none => pure false
      let more ← runSource command tested fuel after
      pure (ran || more)

/-- Runs a text as if it stood in a script. -/
def runText (command : Bool → Command → Run Unit) (tested : Bool) (text : Text) : Run Unit := do
  let ran ← runSource command tested (text.length + 1) (Source.ofText text 0)
  -- A text without a command succeeds.
  if !ran then setStatus 0

/-- Runs commands, nested at most so deep. -/
def runner : Nat → Runner
  | 0 => ⟨fun _ _ => throw .exit, fun _ _ => throw .exit, fun _ => throw .exit⟩
  | depth + 1 =>
    let command := fun tested found => runCommand (runner depth) tested found
    { command := command, text := runText command, script := runText command false }

/-- How deep commands may be nested, functions that call each other included. -/
def maxDepth : Nat := 100000

/-! ## Programs -/

/-- What is left of a program that has ended. -/
structure Remains where
  tree : FileTree
  errors : Text
  ending : Ending

def conclude (tree : FileTree) (step : Run Unit) : Remains :=
  let start := Shell.start tree [] []
  match step start with
  | (found, after) =>
    { tree := { after.tree with workingDirectory := tree.workingDirectory }
      errors := after.written 2
      ending := match found with
        | .error (.killed signal) => .signal signal
        | _ => .status (after.status % 256) }

end Relink.Script
