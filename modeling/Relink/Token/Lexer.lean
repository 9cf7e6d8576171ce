import Relink.Token.Lexeme
import Relink.Token.Trivia

/-!
# Lexer

Reads one token from the front of a text. What is read depends on the mode and on the text alone,
never on what came before; positions are left to the reader of tokens.
-/

set_option autoImplicit false

namespace Relink.Token

/-- What a `/` may start and which characters names may hold. -/
inductive Mode where
  /-- A slash divides. -/
  | operator
  /-- A slash starts a regular expression. -/
  | operand
  /-- Inside a JSX tag, where names may hold hyphens. -/
  | tag
deriving DecidableEq, Repr

/-- The characters of one token: an opening delimiter that its span leaves out, those of the span,
and a closing delimiter. Only templates have delimiters. -/
structure Lexeme where
  kind : Kind
  opening : Text
  chars : Text
  closing : Text
  rest : Text
deriving DecidableEq, Repr

def Lexeme.plain (kind : Kind) (chars rest : Text) : Lexeme := ⟨kind, [], chars, [], rest⟩

/-- The token at the front of a text that starts with no trivia. -/
def Lexeme.read (mode : Mode) (text : Text) : Except Fault Lexeme :=
  match text with
  | [] => .ok (.plain .eof [] [])
  | c :: rest =>
    if isWordStart c || isForeign c then
      let found := word (mode == .tag) text
      .ok (.plain found.1 found.2.1 found.2.2)
    else if c.isDigit || (c == '.' && (rest.head?.any Char.isDigit)) then
      (number text).map fun found => .plain found.1 found.2.1 found.2.2
    else if c == '\x22' || c == '\x27' then
      (stringBody c rest).map fun found => .plain (.literal .string) (c :: found.1) found.2
    else if c == '\x60' then
      (templatePart rest).map fun found =>
        ⟨.literal found.2.1, ['\x60'], found.1, found.2.2.1, found.2.2.2⟩
    else if c == '#' then
      (privateName rest).map fun found => .plain .privateName (c :: found.1) found.2
    -- A comment that ends would have been skipped with the trivia.
    else if c == '/' && rest.head? == some '*' then
      .error .noToken
    else if c == '/' && mode == .operand then
      (regex rest).map fun found => .plain (.literal .regex) (c :: found.1) found.2
    else
      match punctuator? text with
      | some p => .ok (.plain (.punctuator p) p.spelling (text.drop p.spelling.length))
      | none => .error .noToken

/-- A token with the trivia before it. -/
structure Lexed where
  gap : Text
  newline : Bool
  lexeme : Lexeme
deriving DecidableEq, Repr

def lex (mode : Mode) (text : Text) : Except Fault Lexed :=
  let gap := Trivia.skip text
  (Lexeme.read mode gap.rest).map fun found => ⟨gap.chars, gap.newline, found⟩

end Relink.Token
