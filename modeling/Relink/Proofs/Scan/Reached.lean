import Relink.Proofs.Scan.Bracket
import Relink.Proofs.Scan.Preamble

/-!
# Where units are read

A scan reads a unit at a spot if it stands there sooner or later, directly in a group of the bracket that is
named or in none. That is told by a scan that does something else at the spot: whatever fault it gives up with
there, it is the one of the whole scan.
-/

set_option autoImplicit false

namespace Relink

open Scan

/-! ## Spots -/

/-- A place, and the bracket of the innermost group around it. The substitutions of templates and elements are
groups too. -/
structure Spot where
  inside : Option Bracket
  place : Reader
deriving DecidableEq

namespace Scan

/-- Reads one unit, where `inner` reads the units in the groups of a bracket. -/
def unitWithin (inner : Bracket → Scan Token) (fuel : Nat) : Scan Token := do
  let before ← previous
  let operand ← operandDue
  let first ← Scan.token (if operand then .operand else .operator)
  let whole ← foldOperand (inner .brace) fuel operand first
  let kind := plainKind before whole.kind
  let unit ← foldGroup (inner (kind.opens?.getD .brace)) fuel { whole with kind := kind }
  follow (operandAfter before kind) (trace kind)
  pure unit

/-- Reads one unit directly in a group of the bracket `inside`, but does `there` at a spot. -/
def unitUnless (spot : Spot) (there : Scan Token) : Nat → Option Bracket → Scan Token
  | 0, _ => outOfFuel
  | fuel + 1, inside => fun reader =>
    if inside = spot.inside ∧ reader = spot.place then there reader
    else unitWithin (fun bracket => unitUnless spot there fuel (some bracket)) fuel reader

theorem unitUnless_there (spot : Spot) (there : Scan Token) (fuel : Nat) :
    unitUnless spot there (fuel + 1) spot.inside spot.place = there spot.place :=
  if_pos ⟨rfl, rfl⟩

theorem unitUnless_elsewhere {spot : Spot} {inside : Option Bracket} {reader : Reader}
    (elsewhere : inside ≠ spot.inside ∨ reader ≠ spot.place) (there : Scan Token) (fuel : Nat) :
    unitUnless spot there (fuel + 1) inside reader =
      unitWithin (fun bracket => unitUnless spot there fuel (some bracket)) fuel reader :=
  if_neg fun here => elsewhere.elim (absurd here.1) (absurd here.2)

end Scan

/-- The scan of a module reads a unit at a spot: wherever else it may lead, it does not get past a fault
there. -/
def ReadsAt (text : Text) (spot : Spot) : Prop :=
  let code := Preamble.mask text
  ∀ fault, statements (unitUnless spot (fail fault) (code.length + 2) none) (code.length + 2)
    (code.length + 2) none (Reader.start code) = .error (.faulty fault)

/-- A unit knows of the units in it only how they make up its groups. -/
theorem unitWithin_congr {inner : Bracket → Scan Token} {other : Scan Token}
    (groups : ∀ bracket, group (inner bracket) bracket = group other bracket) (fuel : Nat) :
    unitWithin inner fuel = unitOver other fuel := by
  have substitutions : substitution (inner .brace) fuel = substitution other fuel := by
    simp only [substitution, groups]
  have operands (operand : Bool) (first : Token) :
      foldOperand (inner .brace) fuel operand first = foldOperand other fuel operand first := by
    simp only [foldOperand, substitutions]
  have folds (token : Token) :
      foldGroup (inner (token.kind.opens?.getD .brace)) fuel token = foldGroup other fuel token := by
    unfold foldGroup
    cases opens : token.kind.opens? with
    | none => rfl
    | some bracket =>
        rw [Option.getD_some]
        simp only [groups]
  simp only [unitWithin, unitOver, operands]
  refine bind_congr fun before => bind_congr fun operand => bind_congr fun first =>
    bind_congr fun whole => ?_
  exact congrArg (· >>= _) (folds { whole with kind := plainKind before whole.kind })

end Relink
