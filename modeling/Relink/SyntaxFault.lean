import Relink.Token

/-!
# Syntax faults

Why a module cannot be split into statements, where, and how that is reported. Two faults are alike
when their causes are; the place and the token at hand only serve the message.
-/

set_option autoImplicit false

namespace Relink

/-- Constructs that a scan may find missing. -/
inductive Construct where
  | privateName | importClause | exportedName | fromClause | specifierString | handler
  | elementName
deriving DecidableEq, Repr

def Construct.describe : Construct → String
  | .privateName => "private member"
  | .importClause => "import clause"
  | .exportedName => "exported name"
  | .fromClause => "\x60from\x60 clause"
  | .specifierString => "module specifier string"
  | .handler => "catch or finally"
  | .elementName => "JSX element name"

namespace SyntaxFault

/-- What is wrong. -/
inductive Cause where
  | missing (construct : Construct)
  | invalidToken
  | closingTagMismatch
  | lineBreakInRegex
  | lineBreakInString
  | tokenRequired (kind : Kind)
  | unexpectedEnd
  | unexpectedToken
  | unterminatedComment
  | unterminatedTemplate
deriving DecidableEq, Repr

def Cause.code : Cause → String
  | .missing _ => "SC0001"
  | .invalidToken => "SC0002"
  | .closingTagMismatch => "SC0003"
  | .lineBreakInRegex => "SC0004"
  | .lineBreakInString => "SC0005"
  | .tokenRequired _ => "SC0006"
  | .unexpectedEnd => "SC0007"
  | .unexpectedToken => "SC0008"
  | .unterminatedComment => "SC0009"
  | .unterminatedTemplate => "SC0010"

/-- The name of a cause, with what it is about in parentheses. -/
def Cause.label : Cause → String
  | .missing construct => "ExpectedSyntax(\x22" ++ construct.describe ++ "\x22)"
  | .invalidToken => "InvalidToken"
  | .closingTagMismatch => "JsxClosingTagMismatch"
  | .lineBreakInRegex => "LineTerminatorInRegex"
  | .lineBreakInString => "LineTerminatorInString"
  | .tokenRequired kind => "RequiredTokenNotFound(" ++ kind.name ++ ")"
  | .unexpectedEnd => "UnexpectedEnd"
  | .unexpectedToken => "UnexpectedToken"
  | .unterminatedComment => "UnterminatedComment"
  | .unterminatedTemplate => "UnterminatedTemplate"

/-- What is wrong in words; only the two unexpected causes name the token at hand. -/
def Cause.message (actual : Option Kind) : Cause → String
  | .missing construct => "expected " ++ construct.describe
  | .invalidToken => "invalid token"
  | .closingTagMismatch => "JSX closing tag does not match opening tag"
  | .lineBreakInRegex => "line terminator not allowed in regular expression"
  | .lineBreakInString => "line terminator not allowed in string literal"
  | .tokenRequired kind => "expected token " ++ kind.name
  | .unexpectedEnd =>
    match actual with
    | some kind => "unexpected end before " ++ kind.name
    | none => "unexpected end of input"
  | .unexpectedToken =>
    match actual with
    | some kind => "unexpected token " ++ kind.name
    | none => "unexpected token"
  | .unterminatedComment => "unterminated block comment"
  | .unterminatedTemplate => "unterminated template literal"

end SyntaxFault

/-- A cause, the bytes it concerns and the token that was at hand, if any. At the end of an open
group `actual` is the bracket that would have closed it. -/
structure SyntaxFault where
  cause : SyntaxFault.Cause
  span : Span
  actual : Option Kind
deriving DecidableEq, Repr

namespace SyntaxFault

def alike (left right : SyntaxFault) : Bool := left.cause == right.cause

def code (fault : SyntaxFault) : String := fault.cause.code

def message (fault : SyntaxFault) : String := fault.cause.message fault.actual

def render (fault : SyntaxFault) : String :=
  fault.code ++ " " ++ fault.message ++ " at bytes " ++ toString fault.span.start ++ ".." ++
    toString fault.span.stop

/-- The fault on one line, its place repeated in brackets. -/
def renderAround (fault : SyntaxFault) : String :=
  fault.render ++ " around loc [" ++ toString fault.span.start ++ ":" ++
    toString fault.span.stop ++ "]"

/-- The same fault, `distance` bytes later. -/
def shift (fault : SyntaxFault) (distance : Nat) : SyntaxFault :=
  { fault with span := fault.span.shift distance }

def atToken (cause : Cause) (token : Token) : SyntaxFault := ⟨cause, token.span, some token.kind⟩

/-- A token that cannot stand where it does; at the end the text is what is missing. -/
def unexpected (token : Token) : SyntaxFault :=
  atToken (if token.kind = .eof then .unexpectedEnd else .unexpectedToken) token

/-- A token in the place of one of kind `kind`. -/
def required (kind : Kind) (token : Token) : SyntaxFault :=
  atToken (if token.kind = .eof then .unexpectedEnd else .tokenRequired kind) token

end SyntaxFault

end Relink
