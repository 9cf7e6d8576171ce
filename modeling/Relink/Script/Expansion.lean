import Relink.Script.Arithmetic
import Relink.Script.Field
import Relink.Script.Pattern

/-!
# Expansion

What the words of a command stand for. How a command is run for its output is a parameter here.
-/

set_option autoImplicit false

namespace Relink.Script

abbrev OutputRunner := Option Command → Run Text

/-! ## Parameters -/

/-- The options that are on, as letters. -/
def Options.letters (options : Options) : Text :=
  (if options.exitOnFailure then ['e'] else []) ++ (if options.plainNames then ['f'] else []) ++
    (if options.onlyRead then ['n'] else []) ++ (if options.showCommands then ['x'] else []) ++
    (if options.showLines then ['v'] else []) ++ (if options.keepFiles then ['C'] else []) ++
    (if options.exportAll then ['a'] else []) ++
    (if options.demandValues then ['u'] else [])

namespace Shell

/-- The value of a parameter that is not the list of arguments. -/
def value? (shell : Shell) (name : Text) : Option Text :=
  match name with
  | ['#'] => some (Text.ofNat shell.arguments.length)
  | ['?'] => some (Text.ofNat shell.status)
  | ['$'] => some (Text.ofNat processNumber)
  | ['-'] => some shell.options.letters
  | ['!'] =>
    if shell.jobs.isEmpty then none else some (Text.ofNat (processNumber + shell.jobs.length))
  | _ =>
    if name.all Char.isDigit then
      let position := (String.ofList name).toNat?.getD 0
      if position = 0 then some shell.name else shell.arguments[position - 1]?
    else shell.get? name

def joinedArguments (shell : Shell) : Text :=
  let separator := match shell.get? "IFS".toList with
    | none => [' ']
    | some separators => separators.take 1
  Text.joinWith separator shell.arguments

end Shell

def isList (name : Text) : Bool := name == ['@'] || name == ['*']

/-- Whether the values of a parameter stay apart, each in a field of its own. -/
def staysApart (name : Text) (splitting quoted : Bool) : Bool :=
  isList name && splitting && !(quoted && name == ['*'])

def argumentPieces (shell : Shell) (name : Text) (splitting quoted : Bool) : List Piece :=
  if !staysApart name splitting quoted then
    Piece.ofText shell.joinedArguments quoted (splitting && !quoted)
  else
    (shell.arguments.map fun argument =>
      (if quoted then [Piece.present] else []) ++ Piece.ofText argument quoted (!quoted)).intersperse
        [.cut] |>.flatten

/-- The pieces of a parameter's value, if it has one. -/
def valuePieces? (shell : Shell) (name : Text) (splitting quoted : Bool) : Option (List Piece) :=
  if isList name then
    if shell.arguments.isEmpty then none
    else some (argumentPieces shell name splitting quoted)
  else
    (shell.value? name).map fun value => Piece.ofText value quoted (splitting && !quoted)

/-- The value of a parameter as one text, if it has one. The arguments always have one. -/
def wholeValue? (shell : Shell) (name : Text) : Option Text :=
  if isList name then some shell.joinedArguments else shell.value? name

/-- Whether the value of a parameter counts as missing. More than one value that stay apart are not
empty. -/
def isMissing (shell : Shell) (name : Text) (splitting quoted orEmpty : Bool) : Bool :=
  match wholeValue? shell name with
  | none => true
  | some chars =>
    orEmpty && chars.isEmpty && !(staysApart name splitting quoted && 1 < shell.arguments.length)

/-- Ends the script because a parameter has no value. -/
def failUnset {α : Type} (name : Text) (message : Text) : Run α :=
  fail (name ++ [':', ' '] ++ message)

def unsetMessage (orEmpty : Bool) : String :=
  if orEmpty then "parameter not set or null" else "parameter not set"

/-! ## Words -/

/-- Expands parts of a word: whether they are split into fields, and whether they stand in quotes or
in the word of a parameter that is expanded. -/
abbrev PartsExpander := Bool → Bool → List Part → Run (List Piece)

def plainParameter (splitting quoted : Bool) (name : Text) : Run (List Piece) := do
  let shell ← get
  match valuePieces? shell name splitting quoted with
  | some pieces => pure pieces
  | none =>
    if shell.options.demandValues && !isList name then failUnset name "parameter not set".toList
    else pure []

/-- The pieces of a parameter's value less what a pattern takes away from it, or from the arguments in
a row. -/
def trimmedParameter (splitting quoted : Bool) (name : Text) (trim : Text → Text)
    (trimAll : List Text → List Text) : Run (List Piece) := do
  let shell ← get
  if staysApart name splitting quoted then
    let trimmed := { shell with arguments := trimAll shell.arguments }
    pure ((valuePieces? trimmed name splitting quoted).getD [])
  else
    match wholeValue? shell name with
    | some value => pure (Piece.ofText (trim value) quoted (splitting && !quoted))
    | none => plainParameter splitting quoted name

def expandTilde (word : Word) : Run Word := do
  match word with
  | .literal ('~' :: rest) false :: others =>
    if rest.head? = some '/' || (rest.isEmpty && others.isEmpty) then
      match (← get).get? "HOME".toList with
      | some home => pure (.literal home true :: .literal rest false :: others)
      | none => pure word
    else pure word
  | _ => pure word

/-- Ends the script if a parameter has no value though one is demanded. -/
def demandValue (name : Text) (value : Option Text) : Run Unit := do
  if (← get).options.demandValues && value.isNone && !isList name then
    failUnset name "parameter not set".toList

def parameter (expand : PartsExpander) (splitting : Bool) (name : Text) (use : Use)
    (written : List Part) (quoted : Bool) : Run (List Piece) := do
  let word ← if quoted then pure written else expandTilde written
  let shell ← get
  let value := wholeValue? shell name
  match use with
  | .plain => plainParameter splitting quoted name
  | .senseless => fail "Bad substitution".toList
  | .size =>
    demandValue name value
    let size := (Octet.bytesOf (value.getD [])).length
    pure (Piece.ofText (Text.ofNat size) quoted (splitting && !quoted))
  | .standIn orEmpty =>
    if isMissing shell name splitting quoted orEmpty then expand splitting true word
    else plainParameter splitting quoted name
  | .replace orEmpty =>
    if isMissing shell name false quoted orEmpty then pure []
    else expand splitting true word
  | .assign orEmpty =>
    if isMissing shell name splitting quoted orEmpty then
      let given := Piece.text (← expand false true word)
      if !name.head?.any (fun c => c.isAlpha || c == '_') then
        fail (name ++ ": bad variable name".toList)
      assignVariable name given false
    plainParameter splitting quoted name
  | .demand orEmpty =>
    if isMissing shell name splitting quoted orEmpty then
      if word.isEmpty then failUnset name (unsetMessage orEmpty).toList
      else failUnset name (Piece.text (← expand false true word))
    else plainParameter splitting quoted name
  | .trimFront longest =>
    demandValue name value
    let pattern := patternOf (Piece.glyphs (← expand false false word))
    trimmedParameter splitting quoted name (pattern.trimFront longest)
      (pattern.trimFirst longest)
  | .trimBack longest =>
    demandValue name value
    let pattern := patternOf (Piece.glyphs (← expand false false word))
    trimmedParameter splitting quoted name (pattern.trimBack longest)
      (pattern.trimEnd longest)

def dropFinalNewlines (text : Text) : Text := (text.reverse.dropWhile (· == '\n')).reverse

def partPieces (expand : PartsExpander) (output : OutputRunner) (splitting inWord : Bool) :
    Part → Run (List Piece)
  | .literal chars true => pure (.present :: Piece.ofText chars true false)
  | .literal chars false => pure (Piece.ofText chars false (splitting && inWord))
  | .parameter name use word quoted => parameter expand splitting name use word quoted
  | .output command quoted => do
    let printed := dropFinalNewlines ((← output command).filter (· != '\x00'))
    pure (Piece.ofText printed quoted (splitting && !quoted))
  | .arithmetic expression quoted => do
    let source := Piece.text (← expand false false expression)
    let found ← Arithmetic.value source
    pure (Piece.ofText (Arithmetic.render found) quoted (splitting && !quoted))

/-- The pieces of parts, nested at most so deep. -/
def expandParts (output : OutputRunner) : Nat → PartsExpander
  | 0 => fun _ _ _ => pure []
  | depth + 1 => fun splitting inWord parts => do
    let pieces ← parts.mapM (partPieces (expandParts output depth) output splitting inWord)
    pure pieces.flatten

def maxNesting : Nat := 200

def expandFields (output : OutputRunner) (word : Word) : Run (List Text) := do
  let pieces ← expandParts output maxNesting true false (← expandTilde word)
  let shell ← get
  pure ((splitFields shell.separators pieces).flatMap
    (Field.paths shell.tree shell.options.plainNames))

def expandWords (output : OutputRunner) (words : List Word) : Run (List Text) := do
  pure (← words.mapM (expandFields output)).flatten

/-- The text that a word comes to where it is not split. -/
def expandWhole (output : OutputRunner) (word : Word) : Run Text := do
  pure (Piece.text (← expandParts output maxNesting false false (← expandTilde word)))

def expandPattern (output : OutputRunner) (word : Word) : Run Pattern := do
  pure (patternOf (Piece.glyphs (← expandParts output maxNesting false false (← expandTilde word))))

end Relink.Script
