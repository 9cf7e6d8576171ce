import Relink.Scan.Simple

/-!
# Compound statements

Control statements end with their bodies. A body is read by an action `nested` that is a parameter
here.
-/

set_option autoImplicit false

namespace Relink.Scan

/-- Passes over the parenthesised header of a control statement. Gives its end. -/
def header (unit : Scan Token) : Scan Nat := do
  let token ← unit
  require (.punctuator .parenthesisOpen) token
  pure token.span.stop

/-- Passes over a brace group. Gives its end. -/
def block (unit : Scan Token) : Scan Nat := do
  let token ← unit
  require (.punctuator .braceOpen) token
  pure token.span.stop

/-- From after `if`. -/
def conditional (unit : Scan Token) (nested : Scan Ending) : Scan Ending := do
  let _ ← header unit
  let consequent ← nested
  let next ← pendingOr unit consequent.pending
  if next.isKeyword .elseWord then nested else pure ⟨consequent.stop, some next⟩

/-- From after `for`. -/
def forLoop (unit : Scan Token) (nested : Scan Ending) : Scan Ending := do
  let first ← unit
  if first.isKeyword .awaitWord then do
    let second ← unit
    -- Behind `await` the parenthesis is taken for an operand, but it is the header.
    expectOperand true
    require (.punctuator .parenthesisOpen) second
    nested
  else do
    require (.punctuator .parenthesisOpen) first
    nested

/-- From after `while` or `with`. -/
def headed (unit : Scan Token) (nested : Scan Ending) : Scan Ending := do
  let _ ← header unit
  nested

/-- From after `switch`. -/
def switch (unit : Scan Token) : Scan Ending := do
  let _ ← header unit
  let stop ← block unit
  pure ⟨stop, none⟩

/-- From after `do`. -/
def doLoop (unit : Scan Token) (nested : Scan Ending) : Scan Ending := do
  let body ← nested
  let word ← pendingOr unit body.pending
  require (.keyword .whileWord) word
  let stop ← header unit
  let next ← unit
  -- The `;` is optional here also without a line break.
  if next.isPunctuator .semicolon then pure ⟨next.span.stop, none⟩
  else pure ⟨stop, some next⟩

/-- The last part of a `try` statement, from `next` on; `caught` is the end of its `catch`. -/
def finallyPart (unit : Scan Token) (caught : Option Nat) (next : Token) : Scan Ending :=
  if next.isKeyword .finallyWord then do
    let stop ← block unit
    pure ⟨stop, none⟩
  else
    match caught with
    | some stop => pure ⟨stop, some next⟩
    | none => fail (.atToken (.missing .handler) next)

/-- The block of a `catch`, whose parameter is optional. Gives its end. -/
def catchPart (unit : Scan Token) : Scan Nat := do
  let token ← unit
  if token.isPunctuator .parenthesisOpen then block unit
  else do
    require (.punctuator .braceOpen) token
    pure token.span.stop

/-- From after `try`. -/
def guarded (unit : Scan Token) : Scan Ending := do
  let _ ← block unit
  let next ← unit
  if next.isKeyword .catchWord then do
    let stop ← catchPart unit
    let after ← unit
    finallyPart unit (some stop) after
  else
    finallyPart unit none next

end Relink.Scan
