import Relink.Scan.Unit

/-!
# Simple statements

Where expressions, simple statements and declarations end: at a `;`, at a line break where a
semicolon would be inserted, or with a body. Finding the end may take one unit too many, which is
handed on as pending.
-/

set_option autoImplicit false

namespace Relink.Scan

/-- The end of a statement and the unit that was read past it, if any. -/
structure Ending where
  stop : Nat
  pending : Option Token
deriving DecidableEq, Repr

/-- The pending unit, or else the next one. -/
def pendingOr (unit : Scan Token) : Option Token → Scan Token
  | some token => pure token
  | none => unit

/-- Whether a statement whose last unit is of kind `last` ends before a unit on a new line. -/
def endsBefore (last : Kind) (token : Token) : Bool :=
  token.onNewLine && last.endsStatement && (last.isRestricted || !token.kind.continuesExpression)

/-- Among the units of a simple statement, a brace group is an operand unless it follows an
arrow. -/
def noteBrace (last : Kind) (token : Token) : Scan Unit :=
  if token.isPunctuator .braceOpen then expectOperand (last == .punctuator .equalsChevronRight)
  else pure ()

/-- Carries on a simple statement that so far ends at `stop` with a unit of kind `last`. -/
def simple (unit : Scan Token) : Nat → Nat → Kind → Option Token → Scan Ending
  | 0, _, _, _ => outOfFuel
  | fuel + 1, stop, last, pending => do
    let token ← pendingOr unit pending
    if token.isPunctuator .semicolon then pure ⟨token.span.stop, none⟩
    else if token.kind = .eof then pure ⟨stop, some token⟩
    else if token.kind.closes?.isSome then fail (.unexpected token)
    else do
      -- Noted also where the brace turns out to start the next statement.
      noteBrace last token
      if endsBefore last token then pure ⟨stop, some token⟩
      else simple unit fuel token.span.stop token.kind none

def simpleAfter (unit : Scan Token) (fuel : Nat) (token : Token) : Scan Ending :=
  simple unit fuel token.span.stop token.kind none

/-- Passes over a function or class declaration, which ends with its first brace group. -/
def declaration (unit : Scan Token) : Nat → Scan Ending
  | 0 => outOfFuel
  | fuel + 1 => do
    let token ← unit
    if token.isPunctuator .braceOpen then do
      expectOperand true
      pure ⟨token.span.stop, none⟩
    else if token.kind = .eof ∨ token.kind.closes?.isSome ∨ token.isPunctuator .semicolon then
      fail (.unexpected token)
    else
      declaration unit fuel

/-- The optional `;` of a statement that is complete at `stop`. Anything else must stand on a new
line or be the end of the module. -/
def terminator (stop : Nat) (next : Token) : Scan Ending :=
  if next.isPunctuator .semicolon then pure ⟨next.span.stop, none⟩
  else if next.kind = .eof ∨ next.onNewLine then pure ⟨stop, some next⟩
  else fail (.atToken (.tokenRequired (.punctuator .semicolon)) next)

end Relink.Scan
