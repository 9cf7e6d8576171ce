import Relink.Scan.Compound
import Relink.Scan.Request

/-!
# Splitting a module

The top-level statements of a module in order. The scan understands as much grammar as it needs to
find where statements end: everything in brackets, templates and elements is passed over whole.
-/

set_option autoImplicit false

namespace Relink

namespace Scan

/-! ## One statement -/

/-- A statement that begins with the identifier `first`: an asynchronous function, a labelled
statement or an expression. -/
def named (unit : Scan Token) (fuel : Nat) (nested : Scan Ending) (first : Token) :
    Scan Ending := do
  let next ← unit
  if first.isWord "async" then
    if next.isKeyword .functionWord && !next.onNewLine then declaration unit fuel
    else simple unit fuel first.span.stop first.kind (some next)
  else if next.isPunctuator .colon then nested
  else simple unit fuel first.span.stop first.kind (some next)

/-- The end of a statement that begins with `first` and requests no module. -/
def body (unit : Scan Token) (fuel : Nat) (nested : Scan Ending) (first : Token) : Scan Ending :=
  match first.kind with
  | .punctuator .semicolon => pure ⟨first.span.stop, none⟩
  | .punctuator .braceOpen => do
    -- A block is no operand, unlike the brace groups of an expression.
    expectOperand true
    pure ⟨first.span.stop, none⟩
  | .punctuator .braceClose | .punctuator .bracketClose | .punctuator .parenthesisClose =>
    fail (.unexpected first)
  | .keyword .functionWord | .keyword .classWord => declaration unit fuel
  | .keyword .ifWord => conditional unit nested
  | .keyword .forWord => forLoop unit nested
  | .keyword .whileWord | .keyword .withWord => headed unit nested
  | .keyword .switchWord => switch unit
  | .keyword .doWord => doLoop unit nested
  | .keyword .tryWord => guarded unit
  | .identifier => named unit fuel nested first
  | _ => simpleAfter unit fuel first

/-- The end of the value of an `export default`, which begins with `value`. -/
def defaultValue (unit : Scan Token) (fuel : Nat) (nested : Scan Ending) (value : Token) :
    Scan Ending :=
  if value.isKeyword .functionWord || value.isKeyword .classWord || value.isWord "async" then
    body unit fuel nested value
  else if value.kind = .eof then fail (.atToken .unexpectedEnd value)
  -- Whatever else comes first belongs to the value, a `;` or a closing bracket too.
  else simpleAfter unit fuel value

def exportStatement (unit : Scan Token) (fuel : Nat) (nested : Scan Ending) (start : Nat) :
    Scan Scanned := do
  let next ← unit
  if next.isPunctuator .asterisk then exportAll unit start
  else if next.isPunctuator .braceOpen then exportList unit start next.span.stop
  else if next.isKeyword .defaultWord then do
    let value ← unit
    let ending ← defaultValue unit fuel nested value
    pure (.of none start ending)
  else if next.kind = .eof then fail (.atToken .unexpectedEnd next)
  else do
    let ending ← body unit fuel nested next
    pure (.of none start ending)

/-- The statement that begins with `first`, with `nested` for the statements in it. -/
def statementOver (unit : Scan Token) (fuel : Nat) (nested : Scan Ending) (first : Token) :
    Scan Scanned :=
  if first.isKeyword .importWord then do
    let next ← unit
    -- `import(…)` and `import.meta` start expressions.
    if next.isPunctuator .parenthesisOpen || next.isPunctuator .dot then do
      let ending ← simpleAfter unit fuel next
      pure (.of none first.span.start ending)
    else
      importStatement unit fuel first.span.start next
  else if first.isKeyword .exportWord then
    exportStatement unit fuel nested first.span.start
  else do
    let ending ← body unit fuel nested first
    pure (.of none first.span.start ending)

/-- A statement within a control statement or behind a label, read by `statement`. -/
def nestedIn (unit : Scan Token) (statement : Token → Scan Scanned) : Scan Ending := do
  let first ← unit
  if first.kind = .eof then fail (.atToken .unexpectedEnd first)
  else do
    let scanned ← statement first
    pure ⟨scanned.statement.span.stop, scanned.pending⟩

/-- The statement that begins with `first`. The bound holds for the depth of nesting and for the
units of one statement. -/
def statement (unit : Scan Token) : Nat → Token → Scan Scanned
  | 0, _ => outOfFuel
  | fuel + 1, first =>
    statementOver unit (fuel + 1) (nestedIn unit (statement unit fuel)) first

/-! ## All statements -/

/-- The statements from the pending or else the next unit to the end of the module. -/
def statements (unit : Scan Token) (bound : Nat) : Nat → Option Token → Scan (List Statement)
  | 0, _ => outOfFuel
  | fuel + 1, pending => do
    let first ← pendingOr unit pending
    if first.kind = .eof then pure []
    else do
      let scanned ← statement unit bound first
      let rest ← statements unit bound fuel scanned.pending
      pure (scanned.statement :: rest)

/-- The statements of a module of at most `bound` characters. -/
def moduleStatements (bound : Nat) : Scan (List Statement) :=
  statements (unit (bound + 2)) (bound + 2) (bound + 2) none

end Scan

/-! ## Preamble -/

namespace Preamble

/-- A leading `#!` line as spaces, one for each byte. -/
def maskHashbang (text : Text) : Text :=
  if "#!".toList.isPrefixOf text then
    List.replicate (Text.size (text.takeWhile (· != '\n'))) ' ' ++ text.dropWhile (· != '\n')
  else
    text

/-- A leading byte order mark and a `#!` line as spaces, one for each byte, which keeps every
offset. -/
def mask : Text → Text
  | '\uFEFF' :: rest => [' ', ' ', ' '] ++ maskHashbang rest
  | text => maskHashbang text

end Preamble

/-- The top-level statements of a module in order. -/
def Statement.split (text : Text) : Except SyntaxFault (List Statement) :=
  let code := Preamble.mask text
  match Scan.moduleStatements code.length (Reader.start code) with
  | .ok (statements, _) => .ok statements
  | .error (.faulty fault) => .error fault
  -- Never reached: the number of characters bounds the steps of a scan.
  | .error .outOfFuel => .error ⟨.unexpectedEnd, ⟨code.size, code.size⟩, none⟩

end Relink
