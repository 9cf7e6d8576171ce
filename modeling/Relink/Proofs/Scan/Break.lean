import Relink.Proofs.Scan.Border
import Relink.Scan.Statements

/-!
# Statements that a line break ends

Which statements end where they do because of a line break: those whose last part is a simple statement
that is carried on to a unit on a new line. Each scan of a statement has its question here, which is asked
of the reader that the scan starts from.
-/

set_option autoImplicit false

namespace Relink.Scan

/-! ## One statement -/

/-- What an action finds, without going on. -/
def ahead {α : Type} (action : Scan α) : Scan α := fun reader =>
  (action reader).map fun parts => (parts.1, reader)

/-- Whether a line break ends a simple statement: it has no semicolon, and there is a unit behind it. -/
def simpleBreaks (simple : Scan Ending) : Scan Bool := do
  let ending ← simple
  pure (ending.pending.any fun next => next.kind != .eof)

/-- From after `if`: the alternative decides, or the consequent where there is none. -/
def conditionalBreaks (unit : Scan Token) (nested : Scan Ending) (breaks : Scan Bool) : Scan Bool := do
  let _ ← header unit
  let consequent ← ahead breaks
  let parts ← resume unit nested
  if parts.2.isKeyword .elseWord then breaks else pure consequent

/-- From after `for`. -/
def forLoopBreaks (unit : Scan Token) (breaks : Scan Bool) : Scan Bool := do
  let first ← unit
  if first.isKeyword .awaitWord then do
    let second ← unit
    expectOperand true
    require (.punctuator .parenthesisOpen) second
    breaks
  else do
    require (.punctuator .parenthesisOpen) first
    breaks

/-- From after `while` or `with`. -/
def headedBreaks (unit : Scan Token) (breaks : Scan Bool) : Scan Bool := do
  let _ ← header unit
  breaks

/-- Of a statement that begins with the identifier `first`. -/
def namedBreaks (unit : Scan Token) (fuel : Nat) (breaks : Scan Bool) (first : Token) : Scan Bool := do
  let next ← unit
  if first.isWord "async" then
    if next.isKeyword .functionWord && !next.onNewLine then pure false
    else simpleBreaks (simple unit fuel first.span.stop first.kind (some next))
  else if next.isPunctuator .colon then breaks
  else simpleBreaks (simple unit fuel first.span.stop first.kind (some next))

/-- Of a statement that begins with `first` and requests no module. Declarations, blocks, `switch` and `try`
end with a brace, and a `do` loop ends with its header. -/
def bodyBreaks (unit : Scan Token) (fuel : Nat) (nested : Scan Ending) (breaks : Scan Bool)
    (first : Token) : Scan Bool :=
  match first.kind with
  | .identifier => namedBreaks unit fuel breaks first
  | .keyword .ifWord => conditionalBreaks unit nested breaks
  | .keyword .forWord => forLoopBreaks unit breaks
  | .keyword .whileWord | .keyword .withWord => headedBreaks unit breaks
  | .punctuator .semicolon | .punctuator .braceOpen => pure false
  | .keyword .functionWord | .keyword .classWord | .keyword .switchWord => pure false
  | .keyword .doWord | .keyword .tryWord => pure false
  | _ => simpleBreaks (simpleAfter unit fuel first)

/-- Of the value of an `export default`. -/
def defaultValueBreaks (unit : Scan Token) (fuel : Nat) (nested : Scan Ending) (breaks : Scan Bool)
    (value : Token) : Scan Bool :=
  if value.isKeyword .functionWord || value.isKeyword .classWord || value.isWord "async" then
    bodyBreaks unit fuel nested breaks value
  else if value.kind = .eof then pure false
  else simpleBreaks (simpleAfter unit fuel value)

/-- From after `export`. Requests and lists end where their semicolon may be omitted, which is decided
otherwise. -/
def exportBreaks (unit : Scan Token) (fuel : Nat) (nested : Scan Ending) (breaks : Scan Bool) :
    Scan Bool := do
  let next ← unit
  if next.isPunctuator .asterisk then pure false
  else if next.isPunctuator .braceOpen then pure false
  else if next.isKeyword .defaultWord then do
    let value ← unit
    defaultValueBreaks unit fuel nested breaks value
  else if next.kind = .eof then pure false
  else bodyBreaks unit fuel nested breaks next

/-- Of the statement that begins with `first`, with `nested` and `breaks` for the statements in it. -/
def statementOverBreaks (unit : Scan Token) (fuel : Nat) (nested : Scan Ending) (breaks : Scan Bool)
    (first : Token) : Scan Bool :=
  if first.isKeyword .importWord then do
    let next ← unit
    if next.isPunctuator .parenthesisOpen || next.isPunctuator .dot then
      simpleBreaks (simpleAfter unit fuel next)
    else
      pure false
  else if first.isKeyword .exportWord then exportBreaks unit fuel nested breaks
  else bodyBreaks unit fuel nested breaks first

/-- Of a statement within a control statement or behind a label. -/
def nestedBreaks (unit : Scan Token) (breaks : Token → Scan Bool) : Scan Bool := do
  let first ← unit
  if first.kind = .eof then pure false else breaks first

/-- Whether a line break ends the statement that begins with `first`. -/
def statementBreaks (unit : Scan Token) : Nat → Token → Scan Bool
  | 0, _ => outOfFuel
  | fuel + 1, first =>
    statementOverBreaks unit (fuel + 1) (nestedIn unit (statement unit fuel))
      (nestedBreaks unit (statementBreaks unit fuel)) first

/-! ## All statements -/

/-- Of each statement from the pending or else the next unit to the end of the module whether a line break
ends it. -/
def statementsBreaks (unit : Scan Token) (bound : Nat) : Nat → Option Token → Scan (List Bool)
  | 0, _ => outOfFuel
  | fuel + 1, pending => do
    let first ← pendingOr unit pending
    if first.kind = .eof then pure []
    else do
      let breaks ← ahead (statementBreaks unit bound first)
      let scanned ← statement unit bound first
      let rest ← statementsBreaks unit bound fuel scanned.pending
      pure (breaks :: rest)

end Relink.Scan

namespace Relink

/-- Of each top-level statement of a module whether a line break ends it. -/
def Statement.breaks (text : Text) : List Bool :=
  let code := Preamble.mask text
  let bound := code.length + 2
  match Scan.statementsBreaks (Scan.unit bound) bound bound none (Reader.start code) with
  | .ok (found, _) => found
  | .error _ => []

end Relink
