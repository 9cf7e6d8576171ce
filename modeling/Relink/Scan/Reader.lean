import Relink.SyntaxFault
import Relink.Token.Lexer

/-!
# Reader

The state of a scan and the few actions that touch it: reading a token, carrying on a template after
a substitution, passing over JSX text, and noting what the next token follows. Everything else of a
scan is built from these.
-/

set_option autoImplicit false

namespace Relink

/-- What a scan has not read yet and what it must know of the past. `operand` says that the next `/`
starts a regular expression and the next `<` an element; `previous` is the kind of the last unit at
the current level of nesting. -/
structure Reader where
  rest : Text
  position : Nat
  operand : Bool
  previous : Kind
deriving DecidableEq, Repr

/-- Why a scan stops early. -/
inductive Halt where
  | faulty (fault : SyntaxFault)
  | outOfFuel
deriving DecidableEq, Repr

/-- An action on a reader. -/
abbrev Scan := StateT Reader (Except Halt)

namespace Reader

/-- Reading starts where a statement may start. -/
def start (text : Text) : Reader := ⟨text, 0, true, .punctuator .semicolon⟩

def finish (reader : Reader) : Nat := reader.position + reader.rest.size

def advance (reader : Reader) (chars rest : Text) : Reader :=
  { reader with rest := rest, position := reader.position + chars.size }

def causeOf (fault : Token.Fault) (code : Text) : SyntaxFault.Cause :=
  match fault with
  | .noToken => if "/*".toList.isPrefixOf code then .unterminatedComment else .invalidToken
  | .unexpectedEnd =>
    if "\x60".toList.isPrefixOf code then .unterminatedTemplate else .unexpectedEnd
  | .lineBreakInRegex => .lineBreakInRegex
  | .lineBreakInString => .lineBreakInString
  | .privateNameExpected => .missing .privateName

/-- The fault of a token that could not be read: from behind the trivia to the end of the module. -/
def unreadable (reader : Reader) (fault : Token.Fault) : SyntaxFault :=
  let behind := Trivia.beforeFault reader.rest
  ⟨causeOf fault behind.2, ⟨reader.position + behind.1.size, reader.finish⟩, none⟩

/-- The token of a lexeme. Its span leaves out the delimiters. -/
def tokenOf (reader : Reader) (found : Token.Lexed) : Token :=
  let start := reader.position + found.gap.size + found.lexeme.opening.size
  ⟨found.lexeme.kind, ⟨start, start + found.lexeme.chars.size⟩, found.lexeme.chars, found.newline⟩

def past (reader : Reader) (found : Token.Lexed) : Reader :=
  reader.advance (found.gap ++ found.lexeme.opening ++ found.lexeme.chars ++ found.lexeme.closing)
    found.lexeme.rest

/-- The token that a reader stands before, and the reader past it. -/
def token (mode : Token.Mode) (reader : Reader) : Except SyntaxFault (Token × Reader) :=
  match Token.lex mode reader.rest with
  | .ok found => .ok (reader.tokenOf found, reader.past found)
  | .error fault => .error (reader.unreadable fault)

end Reader

namespace Scan

def fail {α : Type} (fault : SyntaxFault) : Scan α := fun _ => .error (.faulty fault)

/-- A bound on the steps is used up. No scan that starts with enough of them gets here. -/
def outOfFuel {α : Type} : Scan α := fun _ => .error .outOfFuel

def token (mode : Token.Mode) : Scan Token := fun reader =>
  match reader.token mode with
  | .ok result => .ok result
  | .error fault => .error (.faulty fault)

/-- Reads the next part of a template after a substitution and says what ended it. `opening` is
where the template starts, which is what is reported if it never ends. -/
def templatePart (opening : Nat) : Scan Literal := fun reader =>
  match Token.templatePart reader.rest with
  | .ok (chars, ending, closing, rest) => .ok (ending, reader.advance (chars ++ closing) rest)
  | .error _ => .error (.faulty ⟨.unterminatedTemplate, ⟨opening, reader.finish⟩, none⟩)

/-- Characters that stand for themselves between tags. -/
def isElementText (c : Char) : Bool := c != '{' && c != '<'

/-- Passes over the text between tags. An element that starts at `opening` must not end the
module. -/
def elementText (opening : Nat) : Scan Unit := fun reader =>
  let after := reader.rest.dropWhile isElementText
  if after.isEmpty then
    .error (.faulty ⟨.unexpectedEnd, ⟨opening, reader.finish⟩, none⟩)
  else
    .ok ((), reader.advance (reader.rest.takeWhile isElementText) after)

def position : Scan Nat := fun reader => .ok (reader.position, reader)

def operandDue : Scan Bool := fun reader => .ok (reader.operand, reader)

/-- The last unit at this level of nesting. -/
def previous : Scan Kind := fun reader => .ok (reader.previous, reader)

def expectOperand (due : Bool) : Scan Unit := fun reader => .ok ((), { reader with operand := due })

def follow (operand : Bool) (previous : Kind) : Scan Unit := fun reader =>
  .ok ((), { reader with operand := operand, previous := previous })

def require (kind : Kind) (token : Token) : Scan Unit :=
  if token.kind = kind then pure () else fail (.required kind token)

end Scan

end Relink
