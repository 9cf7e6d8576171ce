import Relink.Scan.Group

/-!
# Units

A unit is a token, or a bracketed group, template literal or element folded into one. After each
unit the reader notes whether an operand is due, from the unit and the one before it alone: what
stands in a group leaves no trace.
-/

set_option autoImplicit false

namespace Relink.Scan

/-- Contextual keywords are identifiers, and after a member access every keyword is one. -/
def plainKind (before kind : Kind) : Kind :=
  match kind with
  | .keyword word => if word.isContextual || before.accessesMember then .identifier else kind
  | _ => kind

/-- Whether an operand is due after a unit of kind `kind` that follows one of kind `before`. -/
def operandAfter (before : Kind) : Kind → Bool
  | .punctuator .parenthesisOpen => before.takesHeader
  | .punctuator .braceOpen => !before.takesOperand
  | .punctuator .bracketOpen | .punctuator .questionDotBracketOpen
  | .punctuator .questionDotParenthesisOpen | .punctuator .hyphenHyphen | .punctuator .plusPlus =>
    false
  | .punctuator _ => true
  | .identifier | .privateName | .jsx => false
  | .keyword .superWord | .keyword .thisWord => false
  | .keyword _ => true
  | .literal _ => false
  | .eof => true

/-- The kind that the next unit follows; a group is followed as its closing bracket. -/
def trace (kind : Kind) : Kind :=
  match kind.opens? with
  | some bracket => .punctuator bracket.close
  | none => kind

/-- Passes over the group that a token opens, if it opens one. -/
def foldGroup (unit : Scan Token) (fuel : Nat) (token : Token) : Scan Token :=
  match token.kind.opens? with
  | some bracket => do
    follow true token.kind
    let stop ← group unit bracket fuel
    pure (token.upTo stop)
  | none => pure token

/-- Passes over the template or the element that a token starts, if it starts one. -/
def foldOperand (unit : Scan Token) (fuel : Nat) (operand : Bool) (token : Token) : Scan Token :=
  match token.kind with
  | .literal .template => template (substitution unit fuel) fuel token .template
  | .literal .templateHead => template (substitution unit fuel) fuel token .templateHead
  | .punctuator .chevronLeft =>
    -- No operand other than an element starts so.
    if operand then element (substitution unit fuel) fuel token else pure token
  | _ => pure token

/-- Reads one unit, where `inner` reads the units nested in it. -/
def unitOver (inner : Scan Token) (fuel : Nat) : Scan Token := do
  let before ← previous
  let operand ← operandDue
  let first ← Scan.token (if operand then .operand else .operator)
  let whole ← foldOperand inner fuel operand first
  let kind := plainKind before whole.kind
  let unit ← foldGroup inner fuel { whole with kind := kind }
  -- What was noted on the way through the group is forgotten here.
  follow (operandAfter before kind) (trace kind)
  pure unit

/-- Reads one unit. The bound holds for the depth of nesting and for the units in each group, so it
suffices when fewer characters are left. -/
def unit : Nat → Scan Token
  | 0 => outOfFuel
  | fuel + 1 => unitOver (unit fuel) fuel

end Relink.Scan
