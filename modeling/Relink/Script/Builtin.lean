import Relink.Script.Condition
import Relink.Script.Ending
import Relink.Script.Expansion
import Relink.Script.Program

/-!
# Builtins

Commands that the shell runs itself, apart from those that run other commands.
-/

set_option autoImplicit false

namespace Relink.Script.Builtin

/-! ## Numbers -/

def number (argument : Text) : Run Nat := do
  match (Arithmetic.decimal? argument).filter fun value : Int => 0 ≤ value && value < Nat.pow 2 31 with
  | some value => pure value.toNat
  | none => fail ("Illegal number: ".toList ++ argument)

/-! ## Options -/

/-- What options of one letter come to, and the arguments behind them. -/
structure Letters where
  given : List (Char × Text)
  arguments : List Text

def Letters.has (letters : Letters) (letter : Char) : Bool :=
  letters.given.any fun entry => entry.1 == letter

/-- The letters that a list of options allows; those with a colon behind them take an argument. -/
def takesArgument? (allowed : Text) (letter : Char) : Option Bool :=
  match allowed with
  | [] => none
  | c :: rest =>
    if c = letter && c ≠ ':' then some (rest.head? == some ':') else takesArgument? rest letter

/-- Reads one argument of options, letter by letter, with the arguments behind it. -/
def readLetters (allowed : Text) : Text → List Text → Run Letters
  | [], rest => pure ⟨[], rest⟩
  | letter :: more, rest =>
    match takesArgument? allowed letter with
    | none => fail ("Illegal option -".toList ++ [letter])
    | some false => do
      let found ← readLetters allowed more rest
      pure { found with given := (letter, []) :: found.given }
    | some true =>
      match more, rest with
      | [], [] => fail ("No arg for -".toList ++ [letter] ++ " option".toList)
      | [], value :: others => pure ⟨[(letter, value)], others⟩
      | value, others => pure ⟨[(letter, value)], others⟩

/-- Reads options up to the first argument that is none, no more arguments than so many. -/
def lettersWithin (allowed : Text) : Nat → List Text → Run Letters
  | 0, arguments => pure ⟨[], arguments⟩
  | _, [] => pure ⟨[], []⟩
  | fuel + 1, argument :: rest =>
    match argument with
    | ['-', '-'] => pure ⟨[], rest⟩
    | '-' :: letter :: more => do
      let found ← readLetters allowed (letter :: more) rest
      let behind ← lettersWithin allowed fuel found.arguments
      pure ⟨found.given ++ behind.given, behind.arguments⟩
    | _ => pure ⟨[], argument :: rest⟩

def letters (allowed : String) (arguments : List Text) : Run Letters :=
  lettersWithin allowed.toList (arguments.length + 1) arguments

/-! ## Leaving -/

def exit (arguments : List Text) : Run Unit := do
  match arguments with
  | status :: _ => setStatus (← number status)
  | [] => pure ()
  throw .exit

def return_ (arguments : List Text) : Run Unit := do
  match arguments with
  | status :: _ => setStatus (← number status)
  | [] => pure ()
  throw .leaveFunction

/-- Leaves loops, or goes on with their next round. -/
def leave (halt : Nat → Halt) (arguments : List Text) : Run Unit := do
  let count ←
    match arguments with
    | given :: _ => number given
    | [] => pure 1
  if count = 0 then fail ("Illegal number: ".toList ++ arguments.headD [])
  let loops := (← get).loops
  setStatus 0
  if 0 < loops then throw (halt (min count loops))

/-! ## Variables -/

def splitAssignment (argument : Text) : Text × Option Text :=
  let name := argument.takeWhile (· != '=')
  (name, if argument.length = name.length then none else some (argument.drop (name.length + 1)))

def isVariableName (name : Text) : Bool :=
  name.head?.any (fun c => c.isAlpha || c == '_') && name.all fun c => c.isAlphanum || c == '_'

def mark (change : Variable → Variable) (arguments : List Text) : Run Unit := do
  (← letters "p" arguments).arguments.forM fun argument => do
    let (name, value) := splitAssignment argument
    if !isVariableName name then fail (name ++ ": bad variable name".toList)
    match value with
    | some chars => assignVariable name chars false
    | none => pure ()
    let shell ← get
    let old := (shell.binding? name).getD ⟨none, false, false⟩
    set (shell.setVariable name (some (change old)))

def unset (arguments : List Text) : Run Unit := do
  let found ← letters "vf" arguments
  found.arguments.forM fun name => do
    let shell ← get
    if found.has 'f' then
      set { shell with functions := shell.functions.filter fun entry => entry.1 != name }
    else
      if !isVariableName name then fail (name ++ ": bad variable name".toList)
      if (shell.binding? name).any Variable.readOnly then
        fail (name ++ ": is read only".toList)
      set (shell.setVariable name none)

def local_ (arguments : List Text) : Run Unit := do
  if (← get).depth = 0 then fail "not in a function".toList
  arguments.forM fun argument => do
    let (name, value) := splitAssignment argument
    if !isVariableName name then fail (name ++ ": bad variable name".toList)
    modify fun shell =>
      if shell.hidden.any fun entry => entry.1 == name then shell
      else { shell with hidden := (name, shell.binding? name) :: shell.hidden }
    match value with
    | some chars => assignVariable name chars false
    | none => pure ()

def shift (arguments : List Text) : Run Unit := do
  let count ←
    match arguments with
    | given :: _ => number given
    | [] => pure 1
  let shell ← get
  if shell.arguments.length < count then fail "can't shift that many".toList
  set { shell with arguments := shell.arguments.drop count }

/-! ## Options -/

def turned? (options : Options) (on : Bool) : Char → Option Options
  | 'e' => some { options with exitOnFailure := on }
  | 'u' => some { options with demandValues := on }
  | 'f' => some { options with plainNames := on }
  | 'x' => some { options with showCommands := on }
  | 'n' => some { options with onlyRead := on }
  | 'C' => some { options with keepFiles := on }
  | 'a' => some { options with exportAll := on }
  | 'v' => some { options with showLines := on }
  | 'm' | 'i' | 'b' | 'I' | 's' | 'V' | 'E' | 'p' => some options
  | _ => none

/-- The letter of an option that is named in full. One without effect has the letter of another one
without. -/
def letterOf? (name : Text) : Option Char :=
  match String.ofList name with
  | "errexit" => some 'e'
  | "nounset" => some 'u'
  | "noglob" => some 'f'
  | "xtrace" => some 'x'
  | "noexec" => some 'n'
  | "noclobber" => some 'C'
  | "allexport" => some 'a'
  | "verbose" => some 'v'
  | "monitor" | "interactive" | "notify" | "ignoreeof" | "stdin" | "vi" | "emacs" | "privileged"
  | "nolog" | "debug" => some 'm'
  | _ => none

def turn (on : Bool) (letter : Char) : Run Unit := do
  let shell ← get
  match turned? shell.options on letter with
  | some options => set { shell with options := options }
  | none => fail ("Illegal option -".toList ++ [letter])

def turnNamed (on : Bool) (name : Text) : Run Unit :=
  match letterOf? name with
  | some letter => turn on letter
  | none => fail ("Illegal option -o ".toList ++ name)

/-- What the arguments of a shell, or of `set`, come to. -/
structure Settings where
  arguments : List Text
  /-- Whether arguments are replaced even by none. -/
  replaces : Bool
  /-- Whether a command is to be run that is given as an argument. -/
  runsArgument : Bool
  /-- Whether commands are to be read from the input. -/
  readsInput : Bool

/-- Turns the options of one argument on or off. When a shell starts some letters mean more. -/
def turnAll (starting on : Bool) : Text → Settings → Run Settings
  | [], settings => pure settings
  | 'o' :: more, settings => do
    match settings.arguments with
    | [] => turnAll starting on more settings
    | name :: rest =>
      turnNamed on name
      turnAll starting on more { settings with arguments := rest }
  | letter :: more, settings => do
    if starting && letter = 'c' then
      turnAll starting on more { settings with runsArgument := true }
    else if starting && letter = 'l' then turnAll starting on more settings
    else
      turn on letter
      turnAll starting on more
        { settings with readsInput := settings.readsInput || letter == 's' }

/-- Turns options on and off, of no more arguments than so many. -/
def turnWithin (starting : Bool) : Nat → Settings → Run Settings
  | 0, settings => pure settings
  | fuel + 1, settings =>
    match settings.arguments with
    | ['-', '-'] :: rest =>
      pure { settings with arguments := rest, replaces := true }
    | ['-'] :: rest => do
      if !starting then
        turn false 'x'
        turn false 'v'
      pure { settings with arguments := rest }
    | ('-' :: given) :: rest => do
      turnWithin starting fuel (← turnAll starting true given { settings with arguments := rest })
    | ('+' :: given) :: rest => do
      turnWithin starting fuel (← turnAll starting false given { settings with arguments := rest })
    | _ => pure settings

def settings (starting : Bool) (arguments : List Text) : Run Settings :=
  turnWithin starting (arguments.length + 1) ⟨arguments, false, false, false⟩

def set_ (arguments : List Text) : Run Unit := do
  let found ← settings false arguments
  if found.replaces || !found.arguments.isEmpty then
    modify fun shell => { shell with arguments := found.arguments }

/-! ## Options of scripts -/

/-- Where `getopts` has got to. -/
structure Progress where
  index : Nat
  passed : Nat
  letter : Char
  value : Option Text
  complaint : Option Text
  isDone : Bool

/-- The next option of arguments. `index` counts arguments from one; `passed` characters of the one
before it are read already, none if it is read whole. -/
def nextOption (allowed : Text) (arguments : List Text) (index passed : Nat) : Progress :=
  let inside := if 1 < index && 0 < passed then
    ((arguments[index - 2]?).getD []).drop passed else []
  let isQuiet := allowed.head? == some ':'
  let next := (arguments[index - 1]?).getD []
  let (text, index, isOver) :=
    if !inside.isEmpty then (inside, index, false)
    else
      match next with
      | ['-', '-'] => ([], index + 1, true)
      | '-' :: c :: rest => (c :: rest, index + 1, false)
      | _ => ([], index, true)
  match isOver, text with
  | false, c :: rest =>
    let size := ((arguments[index - 2]?).getD []).length - rest.length
    match takesArgument? allowed c with
    | none =>
      if isQuiet then ⟨index, size, '?', some [c], none, false⟩
      else ⟨index, size, '?', none, some ("Illegal option -".toList ++ [c]), false⟩
    | some false => ⟨index, size, c, some [], none, false⟩
    | some true =>
      match rest, arguments[index - 1]? with
      | [], some value => ⟨index + 1, 0, c, some value, none, false⟩
      | [], none =>
        if isQuiet then ⟨index, size, ':', some [c], none, false⟩
        else ⟨index, size, '?', none, some ("No arg for -".toList ++ [c] ++ " option".toList), false⟩
      | value, _ => ⟨index, 0, c, some value, none, false⟩
  | _, _ => ⟨index, 0, '?', none, none, true⟩

/-- Reads the next option of the arguments, or of those given, into a variable. -/
def getopts (arguments : List Text) : Run Unit := do
  match arguments with
  | allowed :: name :: others =>
    let shell ← get
    let given := if others.isEmpty then shell.arguments else others
    let index := (Arithmetic.decimal? ((shell.get? "OPTIND".toList).getD [])).getD 1
    let found := nextOption allowed given (max 1 index.toNat) shell.passedLetters
    match found.value with
    | some value => assignVariable "OPTARG".toList value false
    | none =>
      if !found.isDone then
        modify fun after => after.setVariable "OPTARG".toList none
    match found.complaint with
    | some complaint => print 2 (complaint ++ ['\n'])
    | none => pure ()
    assignVariable "OPTIND".toList (Text.ofNat found.index) false
    assignVariable name [found.letter] false
    modify fun after => { after with passedLetters := found.passed }
    setStatus (if found.isDone then 1 else 0)
  | _ => fail "Usage: getopts optstring var [arg...]".toList

/-! ## Directories -/

def cd (arguments : List Text) : Run Unit := do
  let given := (← letters "LP" arguments).arguments
  let shell ← get
  let target := match given with
    | [] => (shell.get? "HOME".toList).getD []
    | ['-'] :: _ => (shell.get? "OLDPWD".toList).getD []
    | path :: _ => if path.isEmpty then ['.'] else path
  match shell.tree.resolve ⟨target⟩ with
  | .ok (location, .directory _) =>
    let before := shell.here
    set { shell with tree := { shell.tree with workingDirectory := location } }
    assignVariable "OLDPWD".toList before true
    assignVariable "PWD".toList (← get).here true
    if given = [['-']] then print 1 (target ++ ['\n'])
  | _ => fail ("can't cd to ".toList ++ target)

/-! ## Input -/

/-- A line of input as `read` takes it, with the characters that a backslash protects quoted. A
backslash at the end of the line joins the next one unless the input is taken raw. -/
def inputLine (raw : Bool) : Nat → Text → List Glyph × Bool × Nat
  | 0, _ => ([], false, 0)
  | _, [] => ([], false, 0)
  | fuel + 1, c :: rest =>
    if c = '\n' then ([], true, 1)
    else if c = '\\' && !raw then
      match rest with
      | [] => ([], false, 1)
      | '\n' :: others =>
        let more := inputLine raw fuel others
        (more.1, more.2.1, more.2.2 + 2)
      | d :: others =>
        let more := inputLine raw fuel others
        (⟨d, true⟩ :: more.1, more.2.1, more.2.2 + 2)
    else
      let more := inputLine raw fuel rest
      (⟨c, false⟩ :: more.1, more.2.1, more.2.2 + 1)

def separates (separators : Text) (glyph : Glyph) : Bool :=
  !glyph.quoted && separators.contains glyph.char

def dropBlanks (separators : Text) (glyphs : List Glyph) : List Glyph :=
  glyphs.dropWhile fun glyph => separates separators glyph && Fields.isSpace glyph.char

def trimBlanks (separators : Text) (glyphs : List Glyph) : List Glyph :=
  (dropBlanks separators (dropBlanks separators glyphs).reverse).reverse

/-- What the last of several names gets: everything, less a lone separator at the end. -/
def lastField (separators : Text) (glyphs : List Glyph) : Text :=
  let bare := trimBlanks separators glyphs
  match bare.reverse with
  | last :: front =>
    if separates separators last && !(front.any (separates separators)) then
      Glyph.text (trimBlanks separators front.reverse)
    else Glyph.text bare
  | [] => []

/-- The fields of a line, as many as there are names. -/
def inputFields (separators : Text) : Nat → List Glyph → List Text
  | 0, _ => []
  | 1, glyphs => [lastField separators glyphs]
  | count + 2, glyphs =>
    let bare := dropBlanks separators glyphs
    let field := bare.takeWhile fun glyph => !separates separators glyph
    let behind := dropBlanks separators (bare.drop field.length)
    let rest := match behind with
      | next :: others => if separates separators next then others else behind
      | [] => []
    Glyph.text field :: inputFields separators (count + 1) rest

def read (arguments : List Text) : Run Unit := do
  let options ← letters "p:r" arguments
  let names := options.arguments
  let raw := options.has 'r'
  if names.isEmpty then fail "arg count".toList
  match names.find? fun name => !isVariableName name with
  | some name => fail (name ++ ": bad variable name".toList)
  | none => pure ()
  let shell ← get
  let chars := shell.readable 0
  let (glyphs, ended, used) := inputLine raw (chars.length + 1) chars
  set (shell.consume 0 used)
  let fields := inputFields shell.separators names.length
    (glyphs.filter fun glyph => glyph.char != '\x00')
  (names.zip fields).forM fun entry => assignVariable entry.1 entry.2 false
  setStatus (if ended then 0 else 1)

/-! ## Printing and testing -/

/-- Prints a format. Complaints come first, because what is printed is held back to the end. -/
def printf (arguments : List Text) : Run Unit := do
  match (← letters "" arguments).arguments with
  | [] => fail "usage: printf format [arg ...]".toList
  | template :: rest =>
    let printed := Format.print template rest
    (printed.complaints ++ printed.fault.toList).forM warn
    print 1 printed.text
    if printed.fault.isSome then
      setStatus 2
      throw .fault
    setStatus (if printed.complaints.isEmpty then 0 else 1)

def test (arguments : List Text) : Run Unit := do
  match Condition.holds (← get).tree arguments with
  | .ok true => setStatus 0
  | .ok false => setStatus 1
  | .error message => fail message

def bracket (arguments : List Text) : Run Unit := do
  if arguments.getLast? = some [']'] then test arguments.dropLast
  else fail "missing ]".toList

/-! ## Signals -/

def signal? (text : Text) : Option Nat :=
  if !text.isEmpty && text.all Char.isDigit then
    (String.ofList text).toNat?.filter (· < 65)
  else
    let upper := String.ofList (text.map Char.toUpper)
    if upper = "EXIT" then some 0
    else (signalNames.findIdx? (· == upper)).map (· + 1)

/-- The signal and the processes that arguments of `kill` mean. -/
def killTarget (arguments : List Text) : Run (Nat × List Text) := do
  match arguments with
  | [['-', 's']] => fail "No arg for -s option".toList
  | ['-', 's'] :: name :: rest =>
    match signal? name with
    | some number => pure (number, rest)
    | none => fail ("invalid signal number or name: ".toList ++ name)
  | ['-', '-'] :: rest => pure (15, rest)
  | ('-' :: c :: name) :: rest =>
    match signal? (c :: name) with
    | some number => pure (number, rest)
    | none => fail ("Illegal option -".toList ++ [c])
  | rest => pure (15, rest)

def killUsage : String :=
  "Usage: kill [-s sigspec | -signum | -sigspec] [pid | job]... or\nkill -l [exitstatus]"

/-- Prints the names of signals, or the one that a status means. -/
def listSignals (arguments : List Text) : Run Unit := do
  match arguments with
  | [] =>
    let names := signalNames.map fun name => if name = "STKFLT" then "16" else name
    let later := ["32", "33", "RTMIN"] ++ (List.range 15).map (fun n => "RTMIN+" ++ toString (n + 1)) ++
      (List.range 14).map (fun n => "RTMAX-" ++ toString (14 - n)) ++ ["RTMAX"]
    print 1 (((["0"] ++ names ++ later).map fun name => name ++ "\n").foldl (· ++ ·) "").toList
  | status :: _ =>
    let given ← number status
    match signalName? (if 128 < given then given - 128 else given) with
    | some name => print 1 (name ++ "\n").toList
    | none => fail ("invalid signal number or exit status: ".toList ++ status)

def isHarmless (signal : Nat) : Bool := [0, 17, 18, 19, 20, 21, 22, 23, 28].contains signal

/-- The name under which what a signal does is kept. -/
def trapName (signal : Nat) : Text := Text.ofNat signal

def trap (arguments : List Text) : Run Unit := do
  match (← letters "" arguments).arguments with
  | [] =>
    let traps := (← get).traps
    (List.range 65).forM fun number => do
      match traps.find? fun entry => entry.1 == trapName number with
      | some entry =>
        let name := if number = 0 then "EXIT" else (signalName? number).getD ""
        print 1 ("trap -- ".toList ++ Text.inQuotes entry.2 ++ ' ' :: name.toList ++ ['\n'])
      | none => pure ()
  | action :: names =>
    let alone := names.isEmpty
    (if alone then [action] else names).forM fun name => do
      match signal? name with
      | none =>
        print 2 ("trap: ".toList ++ name ++ ": bad trap\n".toList)
        setStatus 1
      | some number =>
        modify fun shell =>
          let others := shell.traps.filter fun entry => entry.1 != trapName number
          let drops := alone || action = ['-']
          { shell with traps := if drops then others else (trapName number, action) :: others }

/-! ## Aliases -/

/-- Names texts that stand for commands, or prints such texts. -/
def alias_ (arguments : List Text) : Run Unit := do
  let showAlias (entry : Text × Text) : Run Unit :=
    print 1 (entry.1 ++ '=' :: Text.inQuotes entry.2 ++ ['\n'])
  if arguments.isEmpty then (← get).aliases.forM showAlias
  arguments.forM fun argument => do
    let (name, value) := splitAssignment argument
    let others := (← get).aliases.filter fun entry => entry.1 != name
    match value with
    | some chars => modify fun shell => { shell with aliases := others ++ [(name, chars)] }
    | none =>
      match (← get).aliases.find? fun entry => entry.1 == name with
      | some entry => showAlias entry
      | none =>
        print 2 ("alias: ".toList ++ name ++ " not found\n".toList)
        setStatus 1

def unalias (arguments : List Text) : Run Unit := do
  let found ← letters "a" arguments
  if found.has 'a' then modify fun shell => { shell with aliases := [] }
  else
    found.arguments.forM fun name => do
      let shell ← get
      if shell.aliases.any fun entry => entry.1 == name then
        set { shell with aliases := shell.aliases.filter fun entry => entry.1 != name }
      else
        print 2 ("unalias: ".toList ++ name ++ " not found\n".toList)
        setStatus 1

/-! ## Jobs -/

/-- Takes the status of commands in the background, all of which have ended. -/
def wait (arguments : List Text) : Run Unit := do
  let given := (← letters "" arguments).arguments
  if given.isEmpty then
    modify fun shell => { shell with jobs := shell.jobs.map fun _ => none }
  given.forM fun argument => do
    if argument.head? = some '%' then fail ("No such job: ".toList ++ argument)
    let process ← number argument
    let shell ← get
    let place := process - processNumber - 1
    match (if processNumber < process then (shell.jobs[place]?).join else none) with
    | some status =>
      set { shell with jobs := shell.jobs.set place none }
      setStatus status
    | none => setStatus 127

/-- Prints the mask of files, which cannot be changed. -/
def umask (arguments : List Text) : Run Unit := do
  let found ← letters "S" arguments
  if found.arguments.isEmpty then
    print 1 (if found.has 'S' then "u=rwx,g=rx,o=rx\n" else "0022\n").toList

/-! ## Table -/

def isRegular (name : String) : Bool :=
  ["[", "alias", "bg", "cd", "chdir", "command", "echo", "false", "fg", "getopts", "hash", "jobs",
    "kill", "printf", "pwd", "read", "test", "true", "type", "ulimit", "umask", "unalias",
    "wait"].contains name

/-- Builtins that run no other commands. -/
def find? (name : Text) : Option (List Text → Run Unit) :=
  match String.ofList name with
  | ":" | "true" | "ulimit" | "jobs" | "times" => some fun _ => pure ()
  | "fg" | "bg" => some fun _ => fail "No current job".toList
  | "wait" => some wait
  | "umask" => some umask
  | "alias" => some alias_
  | "unalias" => some unalias
  | "getopts" => some getopts
  | "false" => some fun _ => setStatus 1
  | "break" => some (leave .leaveLoops)
  | "continue" => some (leave .nextRound)
  | "exit" => some exit
  | "return" => some return_
  | "export" => some (mark fun old => { old with exported := true })
  | "readonly" => some (mark fun old => { old with readOnly := true })
  | "unset" => some unset
  | "local" => some local_
  | "shift" => some shift
  | "set" => some set_
  | "cd" | "chdir" => some cd
  | "pwd" => some fun arguments => do
    let _ ← letters "LP" arguments
    print 1 ((← get).here ++ ['\n'])
  | "read" => some read
  | "echo" => some fun arguments => print 1 (Format.echo arguments)
  | "printf" => some printf
  | "test" => some test
  | "[" => some bracket
  | "trap" => some trap
  | _ => none

end Relink.Script.Builtin
