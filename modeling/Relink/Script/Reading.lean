import Relink.Script.Word

/-!
# Grammar of scripts

From tokens to commands. A list of commands may stand in any command, so how lists are read is a
parameter that is filled in, depth by depth, at the end.
-/

set_option autoImplicit false

namespace Relink.Script

/-- How lists are read where they stand. -/
inductive ListPlace where
  /-- Up to the end of a line. -/
  | line
  /-- In a compound command: something must stand there. -/
  | body
  /-- In a substitution or a branch: nothing need stand there. -/
  | optional
deriving DecidableEq, Repr

abbrev ListReader := ListPlace → Read (Option Command)

namespace ListReader

def inside (lists : ListReader) : Read (Option Command) := lists .optional

/-- The next token. Where keywords are looked for, so are aliases. -/
def next (lists : ListReader) (pastNewlines keywords : Bool) : Read Token :=
  readToken lists.inside ⟨pastNewlines, keywords, keywords⟩

/-- The next token of a simple command, of which the first word may be an alias. -/
def nextOf (lists : ListReader) (isFirst : Bool) : Read Token :=
  readToken lists.inside ⟨false, false, isFirst⟩

def require (lists : ListReader) (token : Token) : Read Unit := do
  if (← lists.next false false) ≠ token then expected token

/-- A list in a compound command. It is empty only at the end of the script, about which whatever is
required next complains. -/
def body (lists : ListReader) : Read Command := do
  pure ((← lists .body).getD (.simple 0 [] [] []))

end ListReader

/-! ## Simple commands -/

def redirection (lists : ListReader) : Read Redirection := do
  let head := (← get).redirection
  let isDocument := match head with
    | .document _ _ => true
    | _ => false
  modify fun source => { source with readsEnding := isDocument }
  if (← lists.next false false) ≠ .word then unexpected
  modify fun source => { source with readsEnding := false }
  let source ← get
  match head with
  | .file descriptor opening => pure (.file descriptor opening source.word)
  | .duplicate descriptor => pure (.duplicate descriptor source.word)
  | .document descriptor dropsTabs =>
    let awaited : Awaited :=
      ⟨source.nextDocument, literalText source.word, dropsTabs, !source.wordQuoted⟩
    set { source with
      awaited := source.awaited ++ [awaited], nextDocument := source.nextDocument + 1 }
    pure (.document descriptor awaited.number)

def assignment? : Word → Option (Text × Word)
  | .literal chars false :: rest =>
    let name := chars.takeWhile inName
    match isName name, chars.drop name.length with
    | true, '=' :: value =>
      some (name, if value.isEmpty then rest else .literal value false :: rest)
    | _, _ => none
  | _ => none

/-- The parts of a simple command. -/
structure SimpleParts where
  assignments : List (Text × Word)
  words : List Word
  redirections : List Redirection

/-- Builtins that no function may be named after. -/
def isSpecialBuiltin (name : String) : Bool :=
  match name with
  | "." | ":" | "break" | "continue" | "eval" | "exec" | "exit" | "export" | "local" | "readonly"
  | "return" | "set" | "shift" | "times" | "trap" | "unset" => true
  | _ => false

/-- Whether the parts so far are one word, so that a parenthesis makes it a function. -/
def SimpleParts.name? (parts : SimpleParts) : Option Word :=
  match parts.assignments, parts.words, parts.redirections with
  | [], [name], [] => some name
  | _, _, _ => none

/-- The rest of a function, from after its first parenthesis. -/
def function (lists : ListReader) (command : Bool → Bool → Read Command) (name : Word) :
    Read Command := do
  lists.require .parenClose
  let text := literalText name
  if !isName text || isSpecialBuiltin (String.ofList text) then complain "Bad function name"
  pure (.definition text (← command true true))

/-- A simple command with the given parts, or the function that it turns out to be. -/
def simpleCommand (lists : ListReader) (command : Bool → Bool → Read Command) (line : Nat) :
    Nat → SimpleParts → Read Command
  | 0, _ => exhausted
  | fuel + 1, parts => do
    match ← lists.nextOf parts.words.isEmpty with
    | .word =>
      let found := (← get).word
      match parts.words, assignment? found with
      | [], some assignment =>
        simpleCommand lists command line fuel
          { parts with assignments := parts.assignments ++ [assignment] }
      | _, _ =>
        simpleCommand lists command line fuel { parts with words := parts.words ++ [found] }
    | .redirection =>
      let found ← redirection lists
      simpleCommand lists command line fuel
        { parts with redirections := parts.redirections ++ [found] }
    | .parenOpen =>
      match parts.name? with
      | some name => function lists command name
      | none =>
        putBack
        pure (.simple line parts.assignments parts.words parts.redirections)
    | _ =>
      putBack
      pure (.simple line parts.assignments parts.words parts.redirections)

/-! ## Compound commands -/

/-- The alternatives of a conditional, through its last word. -/
def alternatives (lists : ListReader) : Nat → Read (Option Command)
  | 0 => exhausted
  | fuel + 1 => do
    match ← lists.next false false with
    | .keyword .elifWord =>
      let condition ← lists.body
      lists.require (.keyword .thenWord)
      let consequent ← lists.body
      pure (some (.conditional condition consequent (← alternatives lists fuel)))
    | .keyword .elseWord =>
      let alternative ← lists.body
      lists.require (.keyword .fi)
      pure (some alternative)
    | .keyword .fi => pure none
    | _ => expected (.keyword .fi)

/-- A conditional, from after its first word. -/
def conditional (lists : ListReader) : Read Command := do
  let condition ← lists.body
  lists.require (.keyword .thenWord)
  let consequent ← lists.body
  pure (.conditional condition consequent (← alternatives lists ((← left) + 2)))

/-- A loop on a condition, from after its first word. -/
def repetition (lists : ListReader) (whileSucceeds : Bool) : Read Command := do
  let condition ← lists.body
  lists.require (.keyword .doWord)
  let body ← lists.body
  lists.require (.keyword .done)
  pure (.repeated whileSucceeds condition body)

/-- The words that are next. The token behind them is read, too. -/
def leadingWords (lists : ListReader) : Nat → Read (List Word)
  | 0 => exhausted
  | fuel + 1 => do
    match ← lists.next false false with
    | .word =>
      let found := (← get).word
      pure (found :: (← leadingWords lists fuel))
    | _ => pure []

/-- The words of a loop over words, from after its name. Without any, the arguments are meant. -/
def loopWords (lists : ListReader) : Read (List Word) := do
  match ← lists.next true true with
  | .keyword .inWord =>
    let words ← leadingWords lists ((← left) + 1)
    let token := (← get).token
    if token ≠ .newline && token ≠ .semicolon then unexpected
    pure words
  | token =>
    if token ≠ .semicolon then putBack
    pure [[.parameter ['@'] .plain [] true]]

/-- A loop over words, from after its first word. -/
def forLoop (lists : ListReader) (line : Nat) : Read Command := do
  let token ← lists.next false false
  let source ← get
  let name := literalText source.word
  if token ≠ .word || source.wordQuoted || !isName name || source.word.length ≠ 1 then
    complain "Bad for loop variable"
  let words ← loopWords lists
  if (← lists.next true true) ≠ .keyword .doWord then expected (.keyword .doWord)
  let body ← lists.body
  lists.require (.keyword .done)
  pure (.forEach line name words body)

/-- The patterns of a branch from the one at hand, through the parenthesis behind them. -/
def branchPatterns (lists : ListReader) : Nat → Read (List Word)
  | 0 => exhausted
  | fuel + 1 => do
    let pattern := (← get).word
    match ← lists.next false false with
    | .bar =>
      let _ ← lists.next false false
      pure (pattern :: (← branchPatterns lists fuel))
    | .parenClose => pure [pattern]
    | _ => expected .parenClose

/-- The branches of a choice, through the word that closes it. -/
def branches (lists : ListReader) : Nat → Read (List (List Word × Option Command))
  | 0 => exhausted
  | fuel + 1 => do
    let token ← lists.next true true
    if token = .keyword .esac then pure []
    else
      if token = .parenOpen then
        let _ ← lists.next false false
      let patterns ← branchPatterns lists ((← left) + 1)
      let body ← lists .optional
      match ← lists.next true true with
      | .keyword .esac => pure [(patterns, body)]
      | .endOfBranch => pure ((patterns, body) :: (← branches lists fuel))
      | _ => expected .endOfBranch

/-- A choice, from after its first word. -/
def choice (lists : ListReader) (line : Nat) : Read Command := do
  lists.require .word
  let subject := (← get).word
  if (← lists.next true true) ≠ .keyword .inWord then expected (.keyword .inWord)
  pure (.choice line subject (← branches lists ((← left) + 1)))

def trailingRedirections (lists : ListReader) : Nat → Read (List Redirection)
  | 0 => exhausted
  | fuel + 1 => do
    match ← lists.next false true with
    | .redirection =>
      let found ← redirection lists
      pure (found :: (← trailingRedirections lists fuel))
    | _ =>
      putBack
      pure []

def withRedirections (lists : ListReader) (line : Nat) (command : Command) : Read Command := do
  match ← trailingRedirections lists ((← left) + 2), command with
  | [], _ => pure command
  | redirections, .subshell line body _ => pure (.subshell line body redirections)
  | redirections, _ => pure (.redirected line command redirections)

/-! ## Commands -/

def commandWith (lists : ListReader) (nested : Bool → Bool → Read Command)
    (pastNewlines keywords : Bool) : Read Command := do
  let line := (← get).line
  let token ← lists.next pastNewlines keywords
  match token with
  | .keyword .ifWord => withRedirections lists line (← conditional lists)
  | .keyword .whileWord => withRedirections lists line (← repetition lists true)
  | .keyword .untilWord => withRedirections lists line (← repetition lists false)
  | .keyword .forWord => withRedirections lists line (← forLoop lists line)
  | .keyword .caseWord => withRedirections lists line (← choice lists line)
  | .parenOpen =>
    let body ← lists.body
    lists.require .parenClose
    withRedirections lists line (.subshell line body [])
  | .keyword .braceOpen =>
    let body ← lists.body
    lists.require (.keyword .braceClose)
    withRedirections lists line body
  | .word | .redirection =>
    putBack
    simpleCommand lists nested (← get).line ((← left) + 2) ⟨[], [], []⟩
  | _ => unexpected

/-- One command, which a function may be whose body is a command. -/
def command (lists : ListReader) : Nat → Bool → Bool → Read Command
  | 0 => fun _ _ => exhausted
  | depth + 1 => commandWith lists (command lists depth)

def pipelineRest (lists : ListReader) : Nat → Read (List Command)
  | 0 => exhausted
  | fuel + 1 => do
    match ← lists.next false false with
    | .bar =>
      let found ← command lists ((← left) + 1) true true
      pure (found :: (← pipelineRest lists fuel))
    | _ =>
      putBack
      pure []

/-- A pipeline; a bang before it turns its status around. -/
def pipeline (lists : ListReader) (pastNewlines keywords : Bool) : Read Command := do
  let turned := (← lists.next pastNewlines keywords) == .keyword .bang
  if !turned then putBack
  let first ← command lists ((← left) + 2) false turned
  let others ← pipelineRest lists ((← left) + 2)
  let whole := if others.isEmpty then first else .pipeline (first :: others)
  pure (if turned then .negated whole else whole)

def chain (lists : ListReader) : Nat → Command → Read Command
  | 0, _ => exhausted
  | fuel + 1, first => do
    match ← lists.next false false with
    | .andIf =>
      let second ← pipeline lists true true
      chain lists fuel (.chained true first second)
    | .orIf =>
      let second ← pipeline lists true true
      chain lists fuel (.chained false first second)
    | _ =>
      putBack
      pure first

def append (before : Option Command) (command : Command) : Command :=
  match before with
  | some first => .sequence first command
  | none => command

/-- A list of commands, with those that are read already. -/
def listFrom (lists : ListReader) (place : ListPlace) :
    Nat → Option Command → Read (Option Command)
  | 0, _ => exhausted
  | fuel + 1, before => do
    let token ← lists.next (place != .line) true
    if place = .line && token = .newline then pure before
    else if token = .endOfFile then
      putBack
      pure before
    else
      putBack
      if place ≠ .line && token.closes && (before.isSome || place = .optional) then pure before
      else
        let found ← chain lists ((← left) + 2) (← pipeline lists false false)
        let ending ← lists.next false false
        let all := append before (if ending = .background then .background found else found)
        match ending with
        | .endOfFile =>
          putBack
          pure (some all)
        | .newline =>
          putBack
          listFrom lists place fuel (some all)
        | .background | .semicolon => listFrom lists place fuel (some all)
        | _ =>
          if place = .line then unexpected
          putBack
          pure (some all)

/-- Reads lists, nested at most so deep. -/
def lists : Nat → ListReader
  | 0 => fun _ => exhausted
  | depth + 1 => fun place => do
    listFrom (lists depth) place ((← left) + 2) none

/-! ## Scripts -/

/-- What is read of a script next: a command, or that there is none left. -/
inductive NextCommand where
  | command (command : Option Command)
  | none
  | fault (complaint : Complaint)

/-- The commands of the next line. A line may go on where a command does. -/
def nextCommand (source : Source) : NextCommand × Source :=
  let fresh := { source with putBack := false }
  match (lists (source.rest.length + 2) .line).run fresh with
  | .error complaint => (.fault complaint, source)
  | .ok (found, after) =>
    if found.isNone && after.putBack && after.token == .endOfFile then (.none, after)
    else (.command found, after)

end Relink.Script
