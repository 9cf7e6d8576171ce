import Relink.Proofs.Scan.Bracket
import Relink.Proofs.Scan.Repeat

/-!
# Units that are watched for

A scan that gives up as soon as it has read one unit at one place tells whether it reads that unit there, however
deep in groups, templates and elements it stands. Such a scan is followed beside a seam and repeated later as any
other is.
-/

set_option autoImplicit false

namespace Relink

open Scan

/-- A unit and the reader before it. -/
structure Sighting where
  place : Reader
  token : Token
deriving DecidableEq

def Sighting.later (distance : Nat) (seen : Sighting) : Sighting :=
  ⟨seen.place.later distance, seen.token.shift distance⟩

theorem Token.shift_inj {token other : Token} {distance : Nat} :
    token.shift distance = other.shift distance ↔ token = other := by
  obtain ⟨_, ⟨_, _⟩, _, _⟩ := token
  obtain ⟨_, ⟨_, _⟩, _, _⟩ := other
  simp only [Token.shift, Span.shift, Token.mk.injEq, Span.mk.injEq, Nat.add_right_cancel_iff]

theorem Reader.later_inj {reader other : Reader} {distance : Nat} :
    reader.later distance = other.later distance ↔ reader = other := by
  obtain ⟨_, _, _, _⟩ := reader
  obtain ⟨_, _, _, _⟩ := other
  simp only [Reader.later, Reader.mk.injEq, Nat.add_right_cancel_iff]

namespace Scan

/-- Gives up on a unit that is watched for. -/
def heed (watched : Option Sighting) (place : Reader) (token : Token) : Scan Token :=
  if watched = some ⟨place, token⟩ then fail (.unexpected token) else pure token

/-- Reads one unit, but gives up once the one that is watched for is read, be it this one or one in it. -/
def unitUntil (watched : Option Sighting) : Nat → Scan Token
  | 0 => outOfFuel
  | fuel + 1 => fun reader => (unitOver (unitUntil watched fuel) fuel >>= heed watched reader) reader

theorem unitUntil_none (fuel : Nat) : unitUntil none fuel = unit fuel := by
  induction fuel with
  | zero => rfl
  | succ fuel ih =>
      funext reader
      have passes : heed none reader = pure := by
        funext token
        exact if_neg nofun
      simp only [unitUntil, ih, passes, bind_pure]
      rfl

section Run

variable {watched : Option Sighting} {fuel : Nat} {reader after : Reader} {token : Token}

theorem unitUntil_of_ok (read : unitOver (unitUntil watched fuel) fuel reader = .ok (token, after))
    (free : watched ≠ some ⟨reader, token⟩) : unitUntil watched (fuel + 1) reader = .ok (token, after) := by
  refine (bind_of_ok read _).trans ?_
  rw [heed, if_neg free]
  rfl

theorem unitUntil_eq_ok (run : unitUntil watched fuel reader = .ok (token, after)) :
    ∃ less, fuel = less + 1 ∧ unitOver (unitUntil watched less) less reader = .ok (token, after) ∧
      watched ≠ some ⟨reader, token⟩ := by
  cases fuel with
  | zero => cases run
  | succ less =>
      obtain ⟨found, middle, read, heeded⟩ := bind_eq_ok run
      rw [heed] at heeded
      split at heeded
      · cases heeded
      · rename_i free
        obtain ⟨rfl, rfl⟩ := pure_eq_ok heeded
        exact ⟨less, rfl, read, free⟩

end Run

end Scan

/-! ## Beside a seam -/

/-- Nothing else is watched for behind a seam. -/
def Seam.Keeps (seam : Seam) (watched other : Option Sighting) : Prop :=
  ∀ ⦃reader twin : Reader⦄ ⦃token : Token⦄, seam.Twins reader twin →
    other = some ⟨twin, token.shift seam.shift⟩ → watched = some ⟨reader, token⟩

theorem Seam.keeps_none (seam : Seam) (watched : Option Sighting) : seam.Keeps watched none := by
  intro reader twin token _ same
  cases same

theorem Seam.Twins.unique {seam : Seam} {reader other twin : Reader} (one : seam.Twins reader twin)
    (another : seam.Twins other twin) : reader = other := by
  obtain ⟨before, left, right, -⟩ := one.rest
  obtain ⟨otherBefore, otherLeft, otherRight, -⟩ := another.rest
  obtain rfl := List.append_cancel_right (right.symm.trans otherRight)
  have position : reader.position = other.position :=
    Nat.add_right_cancel (one.position.symm.trans another.position)
  have operand := one.operand.symm.trans another.operand
  have previous := one.previous.symm.trans another.previous
  have rest := left.trans otherLeft.symm
  cases reader
  cases other
  exact Reader.mk.injEq .. ▸ ⟨rest, position, operand, previous⟩

/-- A sighting before a seam is seen again behind it. -/
theorem Seam.keeps_some {seam : Seam} {place twin : Reader} (twins : seam.Twins place twin) (token : Token) :
    seam.Keeps (some ⟨place, token⟩) (some ⟨twin, token.shift seam.shift⟩) := by
  intro reader otherTwin other readerTwins same
  obtain ⟨rfl, tokens⟩ := Sighting.mk.injEq .. ▸ Option.some.inj same
  rw [twins.unique readerTwins, Token.shift_inj.mp tokens]

theorem Seam.Follows.unitUntil {seam : Seam} {watched other : Option Sighting} (keeps : seam.Keeps watched other)
    {fuel otherFuel : Nat} (enough : fuel ≤ otherFuel) :
    seam.Follows (unitUntil watched fuel) (unitUntil other otherFuel) (·.shift seam.shift) := by
  induction fuel generalizing otherFuel with
  | zero => exact .outOfFuel _ _
  | succ fuel ih =>
      obtain ⟨otherFuel, rfl⟩ := Nat.exists_eq_add_one_of_ne_zero (by omega : otherFuel ≠ 0)
      have less : fuel ≤ otherFuel := by omega
      intro reader token after run
      obtain ⟨_, ⟨⟩, read, free⟩ := unitUntil_eq_ok run
      -- Below this unit other units are watched as well; at this one only the check behind it is new.
      obtain ⟨leads, beside⟩ := Seam.Follows.unitOver (ih less) less reader token after read
      refine ⟨leads, fun twin twins beyond => ?_⟩
      obtain ⟨twinAfter, again, twinsAfter⟩ := beside twin twins beyond
      exact ⟨twinAfter, unitUntil_of_ok again fun same => free (keeps twins same), twinsAfter⟩

namespace Scan

/-- Whatever is watched for, a unit that is read is the one that a scan reads. -/
theorem unit_of_unitUntil {watched : Option Sighting} {fuel : Nat} {reader after : Reader} {token : Token}
    (run : unitUntil watched fuel reader = .ok (token, after)) : unit fuel reader = .ok (token, after) := by
  have follows : (Seam.later 0).Follows (unitUntil watched fuel) (unitUntil none fuel) (·.shift 0) :=
    .unitUntil (Seam.keeps_none _ _) (Nat.le_refl fuel)
  rw [← unitUntil_none]
  exact follows.again run

/-! ## Later -/

theorem heed_repeats (distance : Nat) (watched : Option Sighting) (place : Reader) (token : Token) (reader : Reader) :
    Repeats distance reader (heed watched place token)
      (heed (watched.map (Sighting.later distance)) (place.later distance) (token.shift distance)) (·.shift distance)
      fun _ _ => True := by
  have same : watched.map (Sighting.later distance) = some ⟨place.later distance, token.shift distance⟩ ↔
      watched = some ⟨place, token⟩ := by
    refine ⟨fun moved => ?_, fun here => by rw [here]; rfl⟩
    obtain ⟨seen, rfl, is⟩ := Option.map_eq_some_iff.mp moved
    rw [Sighting.later, Sighting.mk.injEq, Reader.later_inj, Token.shift_inj] at is
    obtain ⟨rfl, rfl⟩ := is
    rfl
  simp only [heed, same]
  exact .ite (fun _ => .fail rfl) fun _ => .pure rfl trivial

theorem unitUntil_repeats {distance : Nat} (watched : Option Sighting) {fuel otherFuel : Nat}
    (enough : fuel ≤ otherFuel) {reader : Reader} (fits : reader.left < fuel) :
    Rereads distance reader (unitUntil watched fuel) (unitUntil (watched.map (Sighting.later distance)) otherFuel) := by
  induction fuel generalizing otherFuel reader with
  | zero => omega
  | succ fuel ih =>
      obtain ⟨otherFuel, rfl⟩ := Nat.exists_eq_add_one_of_ne_zero (by omega : otherFuel ≠ 0)
      have less : fuel ≤ otherFuel := by omega
      have repeated := (unitOver_repeats (fun reader fits => ih less fits) less fits).bind
        fun token between _ => heed_repeats distance watched reader token between
      exact Repeats.known (show Repeats distance reader (unitUntil watched (fuel + 1))
        (unitUntil (watched.map (.later distance)) (otherFuel + 1)) _ _ from repeated)
        fun token after run _ => unit_spends (unit_of_unitUntil run)

end Scan

end Relink
