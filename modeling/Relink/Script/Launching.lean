import Relink.Script.Redirecting

/-!
# Starting programs

How programs are found and started: those that are known, shells, scripts that name an interpreter,
and programs that start others.
-/

set_option autoImplicit false

namespace Relink.Script

/-! ## Shells -/

def Shell.exported (shell : Shell) : List (Text × Variable) :=
  shell.bindings.filter fun entry => entry.2.exported

def Shell.child (shell : Shell) (name : Text) (arguments : List Text) : Shell :=
  let fresh := Shell.start shell.tree name arguments
  { fresh with
    bindings := withOthers shell.exported (ownVariables shell.tree)
    ancestors := shell.ancestors + 1, descriptors := shell.descriptors, channels := shell.channels
    documents := shell.documents, nextDocument := shell.nextDocument }

/-- The text of the file that a path names. A directory has none. -/
def scriptText (tree : FileTree) (path : Text) : Except SystemFault Text :=
  (tree.resolve ⟨path⟩).map fun found => Octet.textOf (bytesOf found.2)

def startScript (runner : Runner) (name : Text) (arguments : List Text) : Run Unit := do
  let found ← Builtin.settings true arguments
  let call (given : List Text) : Run Unit :=
    modify fun shell => { shell with name := given.headD name, arguments := given.drop 1 }
  match found.runsArgument, found.readsInput, found.arguments with
  | true, _, [] => fail "-c requires an argument".toList
  | true, _, text :: rest =>
    call rest
    runner.script text
  | false, false, path :: rest =>
    match scriptText (← get).tree path with
    | .ok text =>
      call (path :: rest)
      runner.script text
    | .error fault => failOpening .read path fault
  | false, _, rest =>
    modify fun shell => { shell with arguments := rest }
    let text := (← get).readable 0
    modify fun shell => shell.consume 0 text.length
    runner.script text

def maxShells : Nat := 100

def runShell (runner : Runner) (name : Text) (arguments : List Text) : Run Unit := fun shell =>
  if maxShells < shell.ancestors then (.error .exit, shell)
  else
    match untilEnd runner (startScript runner name arguments) (shell.child name []) with
    | (ended, after) => (ended, shell.merge after)

/-- The interpreter that the first line of a script asks for, with its argument. -/
def interpreter? (text : Text) : Option (Text × List Text) :=
  match text with
  | '#' :: '!' :: rest =>
    let isBlank := fun c : Char => c == ' ' || c == '\t'
    let line := ((rest.takeWhile (· != '\n')).dropWhile isBlank).reverse.dropWhile isBlank |>.reverse
    let path := line.takeWhile fun c => !isBlank c
    let argument := (line.drop path.length).dropWhile isBlank
    if path.isEmpty then none
    else some (path, if argument.isEmpty then [] else [argument])
  | _ => none

/-- Runs a program, and complains if it could not write. -/
def runWriting (program : Run Unit) : Run Unit := do
  modify fun shell => { shell with outputFailed := false }
  program
  let shell ← get
  if shell.outputFailed then
    let status := shell.status
    Program.complain (if shell.called = "cat".toList then "standard output: Bad file descriptor"
      else "write error: Bad file descriptor")
    let isStrict := ["ls".toList, "grep".toList, "sort".toList].contains shell.called
    setStatus (max (if isStrict then 2 else 1) status)

/-- The paths that a program may be found under by its name alone. -/
def Shell.candidates (shell : Shell) (name : Text) : List Text :=
  (Text.splitOn ':' ((shell.get? "PATH".toList).getD [])).map fun directory =>
    if directory.isEmpty then name else directory ++ '/' :: name

def Shell.search? (shell : Shell) (name : Text) : Option Text :=
  (shell.candidates name).find? fun path =>
    Program.isProgramFile path ||
      (shell.tree.isFile ⟨path⟩ && Condition.isExecutable shell.tree ⟨path⟩)

def which (arguments : List Text) : Run Unit := do
  let shell ← get
  if arguments.isEmpty then setStatus 1
  arguments.forM fun name =>
    match if name.contains '/' then
        (if Condition.isExecutable shell.tree ⟨name⟩ then some name else none)
      else shell.search? name with
    | some path => print 1 (path ++ ['\n'])
    | none => setStatus 1

/-- What `env` is asked to do before it starts a program. -/
structure Environment where
  /-- Whether it starts with nothing exported. -/
  isEmpty : Bool
  removed : List Text
  assigned : List (Text × Text)
  command : List Text

/-- The words of a text in which quotes hold blanks together. The flags say which quote is open and
whether a word is. -/
def quotedWords : Text → Option Char → Option Text → List Text
  | [], _, word => word.toList
  | '\\' :: c :: rest, quote, word =>
    if quote = some '\x27' then
      quotedWords (c :: rest) quote (some (word.getD [] ++ ['\\']))
    else quotedWords rest quote (some (word.getD [] ++ [c]))
  | c :: rest, quote, word =>
    if quote = some c then quotedWords rest none (some (word.getD []))
    else if quote.isNone && (c = '\x22' || c = '\x27') then
      quotedWords rest (some c) (some (word.getD []))
    else if quote.isNone && (c = ' ' || c = '\t') then
      word.toList ++ quotedWords rest none none
    else quotedWords rest quote (some (word.getD [] ++ [c]))

def splitQuoted (text : Text) : List Text := quotedWords text none none

/-- Reads the arguments of `env`, or refuses them. -/
def Environment.ofArguments : Nat → List Text → Except String Environment
  | 0, _ => .ok ⟨false, [], [], []⟩
  | _, [] => .ok ⟨false, [], [], []⟩
  | fuel + 1, argument :: rest =>
    match argument, rest with
    | ['-', '-'], _ | ['-', 'v'], _ => Environment.ofArguments fuel rest
    | ['-'], _ | ['-', 'i'], _ =>
      (Environment.ofArguments fuel rest).map fun more => { more with isEmpty := true }
    | ['-', 'u'], name :: others =>
      (Environment.ofArguments fuel others).map fun more =>
        { more with removed := name :: more.removed }
    | ['-', 'u'], [] => .error "option requires an argument -- 'u'"
    | '-' :: 'S' :: c :: text, _ =>
      Environment.ofArguments fuel (splitQuoted (c :: text) ++ rest)
    | ['-', 'S'], text :: others =>
      Environment.ofArguments fuel (splitQuoted text ++ others)
    | '-' :: c :: _, _ => .error ("invalid option -- '" ++ String.ofList [c] ++ "'")
    | _, _ =>
      let (name, value) := Builtin.splitAssignment argument
      match value with
      | some chars =>
        (Environment.ofArguments fuel rest).map fun more =>
          { more with assigned := (name, chars) :: more.assigned }
      | none => .ok ⟨false, [], [], argument :: rest⟩

/-- The shell with the variables that `env` gives to a program. -/
def Environment.apply (environment : Environment) (shell : Shell) : Shell :=
  let kept := if environment.isEmpty then
    shell.bindings.filter fun entry => !entry.2.exported else shell.bindings
  let left := kept.filter fun entry => !environment.removed.contains entry.1
  environment.assigned.foldl
    (fun changed entry => changed.setVariable entry.1 (some ⟨some entry.2, true, false⟩))
    { shell with bindings := left }

def maxInterpreters : Nat := 5

/-- Prepares a program that another one starts, as things are then. -/
abbrev Starter := Shell → Text → List Text → Except SystemFault (Run Unit)

def env (start : Starter) (arguments : List Text) : Run Unit := do
  let called := (← get).called
  -- An argument of `-S` comes apart into at most as many words as it has characters.
  match Environment.ofArguments (2 * Program.totalSize arguments + arguments.length + 1)
      arguments with
  | .error message => Program.misuse 125 message
  | .ok environment =>
    let before ← get
    set (environment.apply before)
    match environment.command with
    | [] =>
      (← get).exported.forM fun entry =>
        print 1 (entry.1 ++ '=' :: entry.2.value.getD [] ++ ['\n'])
    | name :: rest =>
      let here ← get
      -- Without a search path the usual one is searched, but it is not handed on.
      let looking := if (here.get? "PATH".toList).isSome then here else
        here.setVariable "PATH".toList (some ⟨some usualPath, false, false⟩)
      match start looking name rest with
      | .ok step => step
      | .error fault =>
        modify fun shell => { shell with called := called }
        Program.complain (Program.inMarks name ++ ": " ++ fault.phrase)
        if name.contains ' ' then
          Program.complain "use -[v]S to pass options in shebang lines"
        setStatus (if fault = .missing then 127 else 126)
    modify fun shell => { shell with bindings := before.bindings }

def chunks {α : Type} (size : Nat) : Nat → List α → List (List α)
  | 0, _ => []
  | _, [] => []
  | fuel + 1, all => all.take (max 1 size) :: chunks size fuel (all.drop (max 1 size))

/-- A text with another in place of each mark; at most so many characters are looked at. -/
def replaceAll (mark new : Text) : Nat → Text → Text
  | 0, text => text
  | _, [] => []
  | fuel + 1, c :: rest =>
    if !mark.isEmpty && mark.isPrefixOf (c :: rest) then
      new ++ replaceAll mark new fuel ((c :: rest).drop mark.length)
    else c :: replaceAll mark new fuel rest

def xargs (start : Starter) (arguments : List Text) : Run Unit := do
  let (options, command) := match arguments with
    | ['-', 'n'] :: count :: rest => ([('n', count)], rest)
    | ['-', 'I'] :: mark :: rest => ([('I', mark)], rest)
    | ['-', 'r'] :: rest => ([('r', [])], rest)
    | rest => (([] : List (Char × Text)), rest)
  let chars := (← get).readable 0
  modify fun shell => shell.consume 0 chars.length
  let words := Program.wordsOf chars
  let (name, given) := match command with
    | first :: rest => (first, rest)
    | [] => ("echo".toList, [])
  let calls := match options with
    | [('n', count)] =>
      (chunks ((Arithmetic.decimal? count).getD 1).toNat words.length words).map (given ++ ·)
    | [('I', mark)] =>
      (Program.bareLines chars).map fun line =>
        given.map fun argument : Text => replaceAll mark line argument.length argument
    | [('r', _)] => if words.isEmpty then [] else [given ++ words]
    | _ => [given ++ words]
  let called := (← get).called
  calls.forM fun call => do
    let before := (← get).status
    match start (← get) name call with
    | .error fault =>
      modify fun shell => { shell with called := called }
      Program.complain (String.ofList name ++ ": " ++ fault.phrase)
      setStatus (if fault = .missing then 127 else 126)
    | .ok step =>
      setStatus 0
      step
      let status := (← get).status
      setStatus (if status = 0 then before else 123)

/-! ## Signals -/

/-- Runs the action of a signal, or does what the signal does by itself. -/
def receive (runner : Runner) (signal : Nat) : Run Unit := do
  let shell ← get
  -- One signal kills whatever is said about it.
  match shell.traps.find? fun entry => entry.1 == Builtin.trapName signal && signal ≠ 9 with
  | some (_, action) =>
    runner.text false action
    setStatus shell.status
  | none => if Builtin.isHarmless signal then pure () else throw (.killed signal)

/-- Sends a signal to processes. -/
def kill (runner : Runner) (arguments : List Text) : Run Unit := do
  if arguments.head? = some ['-', 'l'] then Builtin.listSignals (arguments.drop 1)
  else
    let (signal, processes) ← Builtin.killTarget arguments
    if processes.isEmpty then fail Builtin.killUsage.toList
    processes.forM fun process => do
      if process.head? = some '%' then fail ("No such job: ".toList ++ process)
      let number ← Builtin.number process
      let job := ((← get).jobs[number - processNumber - 1]?).join
      -- What ran in the background has ended, and a signal passes it by.
      let isJob := processNumber < number && job.isSome
      if number = processNumber then receive runner signal
      else if !isJob then
        warn "No such process\n".toList
        setStatus 1

/-! ## Programs -/

/-- Runs a program under the name that it was called by. -/
def callAs (called : Text) (program : Run Unit) : Run Unit := do
  modify fun shell => { shell with called := called }
  runWriting program

/-- Prepares the program that a path names and that is called by a name, or says why it cannot be
started. A script is given to its interpreter. -/
def launch (runner : Runner) :
    Nat → Shell → Text → Text → List Text → Except SystemFault (Run Unit)
  | 0, _, _, _, _ => .error .tooManyLinks
  | fuel + 1, shell, called, path, arguments =>
    let start : Starter := fun shell name given =>
      match (if name.contains '/' then some name else shell.search? name) with
      | some found =>
        match launch runner fuel shell name found given with
        | .error .notExecutable => .ok (runShell runner "/bin/sh".toList (found :: given))
        | prepared => prepared
      | none => .error .missing
    match Program.nameOf? path with
    | some name =>
      if Program.isShell name then .ok (runShell runner called arguments)
      else if name = "env".toList then .ok (callAs called (env start arguments))
      else if name = "xargs".toList then .ok (callAs called (xargs start arguments))
      else if name = "which".toList then .ok (callAs called (which arguments))
      else if name = "kill".toList then .ok (callAs called (kill runner arguments))
      else
        match Program.find? name with
        | some program => .ok (callAs called (program arguments))
        | none => .error .missing
    | none =>
      match shell.tree.resolve ⟨path⟩ with
      | .error fault => .error fault
      | .ok (_, .file content true) =>
        match interpreter? (Octet.textOf (bytesOf (.file content true))) with
        | some (interpreter, given) =>
          launch runner fuel shell interpreter interpreter (given ++ path :: arguments)
        | none => .error .notExecutable
      | .ok (_, _) => .error .denied

end Relink.Script
