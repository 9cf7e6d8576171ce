import Relink.Script.Command

/-!
# Reading a script

A script is read from the front, token by token, with one token put back where the grammar looks
ahead. Documents that follow a line are waited for until that line ends.
-/

set_option autoImplicit false

namespace Relink.Script

/-! ## Tokens -/

/-- Words with a meaning of their own where a command may start. -/
inductive Keyword where
  | bang | caseWord | doWord | done | elifWord | elseWord | esac | fi | forWord | ifWord | inWord
  | thenWord | untilWord | whileWord | braceOpen | braceClose
deriving DecidableEq, Repr

def Keyword.spelling : Keyword → String
  | .bang => "!"
  | .caseWord => "case"
  | .doWord => "do"
  | .done => "done"
  | .elifWord => "elif"
  | .elseWord => "else"
  | .esac => "esac"
  | .fi => "fi"
  | .forWord => "for"
  | .ifWord => "if"
  | .inWord => "in"
  | .thenWord => "then"
  | .untilWord => "until"
  | .whileWord => "while"
  | .braceOpen => "\x7b"
  | .braceClose => "\x7d"

def Keyword.all : List Keyword :=
  [.bang, .caseWord, .doWord, .done, .elifWord, .elseWord, .esac, .fi, .forWord, .ifWord, .inWord,
    .thenWord, .untilWord, .whileWord, .braceOpen, .braceClose]

def Keyword.closes (keyword : Keyword) : Bool :=
  match keyword with
  | .doWord | .done | .elifWord | .elseWord | .esac | .fi | .thenWord | .braceClose => true
  | _ => false

/-- A token. What a word or a redirection is, is kept beside it. -/
inductive Token where
  | endOfFile | newline | semicolon | background | andIf | orIf | bar | parenOpen | parenClose
  | endOfBranch | redirection | word
  | keyword (keyword : Keyword)
deriving DecidableEq, Repr

def Token.closes : Token → Bool
  | .endOfFile | .parenClose | .endOfBranch => true
  | .keyword k => k.closes
  | _ => false

def quoted (spelling : String) : String := "\"" ++ spelling ++ "\""

def Token.describe : Token → String
  | .endOfFile => "end of file"
  | .newline => "newline"
  | .semicolon => quoted ";"
  | .background => quoted "&"
  | .andIf => quoted "&&"
  | .orIf => quoted "||"
  | .bar => quoted "|"
  | .parenOpen => quoted "("
  | .parenClose => quoted ")"
  | .endOfBranch => quoted ";;"
  | .redirection => "redirection"
  | .word => "word"
  | .keyword k => quoted k.spelling

/-! ## State -/

/-- A complaint about a line. -/
structure Complaint where
  line : Nat
  message : String
deriving Repr

/-- A document that is to follow the line. -/
structure Awaited where
  number : Nat
  ending : Text
  /-- Whether tabs at the front of lines are dropped. -/
  dropsTabs : Bool
  /-- Whether parameters and substitutions count in it. -/
  expands : Bool

/-- The front of a redirection, before the word that it leads to. -/
inductive RedirectionHead where
  | file (descriptor : Nat) (opening : Opening)
  | duplicate (descriptor : Nat)
  | document (descriptor : Nat) (dropsTabs : Bool)
deriving DecidableEq, Repr

/-- An alias whose text is being read: it is used up when so many characters are left. -/
structure OpenAlias where
  name : Text
  left : Nat
  /-- Whether the word behind it may be an alias, too. -/
  goesOn : Bool

/-- What is read so far and what is left. -/
structure Source where
  rest : Text
  line : Nat
  putBack : Bool
  token : Token
  word : Word
  /-- Whether any of the word is quoted. -/
  wordQuoted : Bool
  redirection : RedirectionHead
  awaited : List Awaited
  documents : List (Nat × Word)
  nextDocument : Nat
  /-- Whether the next word ends a document, so that nothing in it is expanded. -/
  readsEnding : Bool
  aliases : List (Text × Text)
  openAliases : List OpenAlias

/-- A script from its text, with the number that its first document gets. -/
def Source.ofText (text : Text) (nextDocument : Nat) : Source :=
  { rest := text, line := 1, putBack := false, token := .endOfFile, word := [], wordQuoted := false
    redirection := .duplicate 0, awaited := [], documents := [], nextDocument := nextDocument
    readsEnding := false, aliases := [], openAliases := [] }

abbrev Read := StateT Source (Except Complaint)

def complain {α : Type} (message : String) : Read α := fun source =>
  .error ⟨source.line, "Syntax error: " ++ message⟩

def unexpected {α : Type} : Read α := do
  complain ((← get).token.describe ++ " unexpected")

/-- Complains about the last token where another one has to stand. -/
def expected {α : Type} (token : Token) : Read α := do
  complain ((← get).token.describe ++ " unexpected (expecting " ++ token.describe ++ ")")

/-- There is no more fuel; it is measured out so that this does not happen. -/
def exhausted {α : Type} : Read α := complain "out of fuel"

/-! ## Characters -/

/-- A text less the continued line ends at its front, and their number. -/
def joinLines : Text → Nat × Text
  | '\\' :: '\n' :: rest =>
    let more := joinLines rest
    (more.1 + 1, more.2)
  | rest => (0, rest)

def rawChar : Read (Option Char) := fun source =>
  match source.rest with
  | [] => .ok (none, source)
  | c :: rest =>
    .ok (some c, { source with rest := rest, line := source.line + if c = '\n' then 1 else 0 })

/-- The next character, once continued lines are joined. -/
def char : Read (Option Char) := do
  modify fun source =>
    let joined := joinLines source.rest
    { source with rest := joined.2, line := source.line + joined.1 }
  rawChar

/-- The next character, which is left there. -/
def peek : Read (Option Char) := do
  modify fun source =>
    let joined := joinLines source.rest
    { source with rest := joined.2, line := source.line + joined.1 }
  pure (← get).rest.head?

def skipChar (c : Char) : Read Bool := do
  if (← peek) = some c then
    let _ ← rawChar
    pure true
  else
    pure false

def takeChars (test : Char → Bool) : Nat → Read Text
  | 0 => pure []
  | fuel + 1 => do
    match ← peek with
    | some c =>
      if test c then
        let _ ← rawChar
        pure (c :: (← takeChars test fuel))
      else pure []
    | none => pure []

def left : Read Nat := do pure (← get).rest.length

/-- Reads another text as if it stood alone. Its documents join those of the script. -/
def within {α : Type} (text : Text) (line : Nat) (read : Read α) : Read α := fun source =>
  let fresh := { Source.ofText text source.nextDocument with
    line := line, aliases := source.aliases }
  match read fresh with
  | .error complaint => .error complaint
  | .ok (found, after) =>
    .ok (found, { source with
      documents := source.documents ++ after.documents, nextDocument := after.nextDocument })

/-! ## Names -/

/-- Characters that may start the name of a parameter. -/
def startsName (c : Char) : Bool := c.isAlpha || c == '_'

/-- Characters that may follow in the name of a parameter. -/
def inName (c : Char) : Bool := c.isAlphanum || c == '_'

/-- Parameters whose name is one special character. -/
def isSpecial (c : Char) : Bool :=
  c == '@' || c == '#' || c == '?' || c == '*' || c == '$' || c == '!' || c == '-'

def isName (text : Text) : Bool := text.head?.any startsName && text.all inName

def joinLiterals : Word → Word
  | .literal first quoted :: rest =>
    match joinLiterals rest with
    | .literal second alsoQuoted :: others =>
      if quoted = alsoQuoted then .literal (first ++ second) quoted :: others
      else .literal first quoted :: .literal second alsoQuoted :: others
    | others => .literal first quoted :: others
  | part :: rest => part :: joinLiterals rest
  | [] => []

def literalText : Word → Text
  | .literal chars _ :: rest => chars ++ literalText rest
  | _ => []

end Relink.Script
