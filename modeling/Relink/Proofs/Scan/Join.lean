import Relink.Proofs.Scan.Semicolon
import Relink.Proofs.Scan.Units

/-!
# Joins

Two texts that are alike up to a semicolon go on otherwise behind it, and one of them may end there. Scans
of the two that read the same units meet behind the semicolon.
-/

set_option autoImplicit false

namespace Relink

open Scan

variable {depth otherDepth : Nat} {reader twin middle border : Reader} {token : Token}
  {tokens : List Token}

/-- What is read up to a semicolon has the semicolon before it. -/
theorem Units.semicolon_suffix (units : Units reader tokens border) (nonempty : tokens ≠ [])
    (semicolon : border.previous = .punctuator .semicolon) : ';' :: border.rest <:+ reader.rest := by
  induction units with
  | nil => exact absurd rfl nonempty
  | @cons depth reader noted after border token tokens notes read units ih =>
      have passed := (notes.leads.trans (unit_leads read)).suffix
      cases tokens with
      | cons second tokens => exact (ih (List.cons_ne_nil second tokens) semicolon).trans passed
      | nil =>
          cases units with
          | nil later =>
              rw [later.previous, (Token.before read).previous] at semicolon
              obtain ⟨rest, -⟩ := unit_semicolon (Nat.le_refl depth) read (eq_of_trace semicolon rfl)
              rw [later.rest, ← notes.rest, rest]
              exact List.suffix_append ..

/-! ## Places -/

/-- A place in another text that is behind a semicolon as `border` is. -/
structure Join (border : Reader) where
  place : Reader
  shift : Nat
  position : place.position = border.position + shift
  operand : place.operand = border.operand
  previous : place.previous = border.previous

namespace Join

/-- The seam before the semicolon. -/
def seam (join : Join border) : Seam :=
  ⟨';' :: border.rest, ';' :: join.place.rest, join.shift, nofun⟩

/-- The seam before a gap that the semicolon follows. -/
def gapSeam (join : Join border) (gap : Text) : Seam :=
  ⟨gap ++ ';' :: border.rest, gap ++ ';' :: join.place.rest, join.shift, fun empty => by simp at empty⟩

/-- The unit that ends at the border is the semicolon, and it is read beside the border too. -/
theorem semicolon_read (join : Join border) (deeper : depth ≤ otherDepth) {last past : Reader} {operand : Bool}
    (read : unit depth last = .ok (token, past)) (isPast : border = { past with operand := operand })
    (semicolon : border.previous = .punctuator .semicolon) :
    last.rest = last.gap ++ ';' :: border.rest ∧
      unit otherDepth ⟨last.gap ++ ';' :: join.place.rest, last.position + join.shift, last.operand, last.previous⟩ =
        .ok (token.shift join.shift, { join.place with operand := past.operand }) := by
  subst isPast
  have isKind : token.kind = .punctuator .semicolon := by
    have previous : past.previous = .punctuator .semicolon := semicolon
    rw [(Token.before read).previous] at previous
    exact eq_of_trace previous rfl
  obtain ⟨rest, again⟩ := unit_semicolon deeper read isKind
  refine ⟨rest, (again join.place.rest join.shift).trans ?_⟩
  simp only [join.position, join.previous]

/-- Readers that meet at a join: twins before the semicolon, or both behind it. -/
inductive Meets (join : Join border) : Reader → Reader → Prop where
  | before {reader twin : Reader} : join.seam.Twins reader twin → join.Meets reader twin
  | here : join.Meets border join.place

namespace Meets

variable {join : Join border}

theorem eq_place (meets : join.Meets border twin) : twin = join.place := by
  cases meets with
  | here => rfl
  | before twins =>
      obtain ⟨passed, left, -⟩ := twins.rest
      have length := congrArg List.length left
      simp only [Join.seam, List.length_append, List.length_cons] at length
      omega

theorem twins (meets : join.Meets reader twin) (leads : reader.Leads middle)
    (units : Units middle tokens border) (nonempty : tokens ≠ [])
    (semicolon : border.previous = .punctuator .semicolon) :
    join.seam.Twins reader twin ∧ join.seam.left <:+ middle.rest := by
  have beyond := units.semicolon_suffix nonempty semicolon
  refine ⟨?_, beyond⟩
  cases meets with
  | before twins => exact twins
  | here =>
      have length := (beyond.trans leads.suffix).length_le
      simp only [List.length_cons] at length
      omega

/-- Where a gap and the semicolon are what is left up to the join, the readers are twins before the gap. -/
theorem gapTwins (meets : join.Meets reader twin) {passed : Text} {last : Reader} (passes : reader.Passes passed last)
    (rest : last.rest = last.gap ++ ';' :: border.rest) : (join.gapSeam last.gap).Twins reader twin := by
  cases meets with
  | here =>
      have length := congrArg List.length (passes.rest.trans (congrArg _ rest))
      simp only [List.length_append, List.length_cons] at length
      omega
  | before twins =>
      obtain ⟨front, left, right, -⟩ := twins.rest
      have isFront : front = passed ++ last.gap := by
        rw [passes.rest, rest, ← List.append_assoc] at left
        exact (List.append_cancel_right left).symm
      have alike := (Text.alike_semicolon border.rest join.place.rest).append last.gap
      refine ⟨⟨passed, by rw [passes.rest, rest]; rfl, ?_, .inr (.inl alike)⟩, twins.position, twins.operand,
        twins.previous⟩
      rw [right, isFront, List.append_assoc]
      rfl

theorem unit (meets : join.Meets reader twin) (deeper : depth ≤ otherDepth)
    (read : Scan.unit depth reader = .ok (token, middle)) (units : Units middle tokens border)
    (semicolon : border.previous = .punctuator .semicolon) :
    ∃ twinMiddle, Scan.unit otherDepth twin = .ok (token.shift join.shift, twinMiddle) ∧
      join.Meets middle twinMiddle := by
  by_cases last : tokens = []
  · subst last
    cases units with
    | nil notes =>
        obtain rfl : border = middle :=
          notes.eq_of_semicolon (by rw [← notes.previous]; exact semicolon)
        obtain ⟨rest, again⟩ := join.semicolon_read deeper read rfl semicolon
        have twins := meets.gapTwins (.refl reader) rest
        rw [twins.eq_of_passes (.refl reader) rest.symm]
        refine ⟨join.place, again.trans ?_, .here⟩
        rw [← join.operand]
  · obtain ⟨twins, beyond⟩ := meets.twins (unit_leads read) units last semicolon
    have units : join.seam.Follows (Scan.unit depth) (Scan.unit otherDepth) (·.shift join.seam.shift) :=
      .unit deeper
    obtain ⟨twinMiddle, otherRead, twinsMiddle⟩ := (units reader token middle read).2 twin twins beyond
    exact ⟨twinMiddle, otherRead, .before twinsMiddle⟩

/-- A scan that ends before the unit behind its border ends there beside a join as well. -/
theorem closes {α : Type} [Located α] {marked : Prop} {action : Scan (α × Token)}
    {other : Nat → Scan (α × Token)} {value : α} {next : Token} {after : Reader}
    (meets : join.Meets reader twin) (deeper : depth ≤ otherDepth)
    (closing : Closes depth otherDepth marked reader action other)
    (run : action reader = .ok ((value, next), after)) (units : Units after tokens border)
    (semicolon : border.previous = .punctuator .semicolon) :
    ∃ twinAfter, other join.shift twin =
        .ok ((Located.shift value join.shift, next.shift join.shift), twinAfter) ∧
      join.Meets after twinAfter := by
  obtain ⟨passed, last, past, is, beside⟩ := closing value next after run
  by_cases goesPast : tokens = []
  · subst goesPast
    cases units with
    | nil notes =>
        -- The unit behind the border is the semicolon itself.
        obtain rfl : border = after :=
          notes.eq_of_semicolon (by rw [← notes.previous]; exact semicolon)
        obtain ⟨rest, again⟩ := join.semicolon_read deeper is.read is.after semicolon
        have scanned := beside _ twin rest.symm (meets.gapTwins is.passes rest) _ _ again (.shift next join.shift)
        refine ⟨join.place, scanned.trans ?_, .here⟩
        rw [← join.operand]
        rfl
  · obtain ⟨twins, beyond⟩ := meets.twins is.leads units goesPast semicolon
    obtain ⟨twinAfter, otherRun, twinsAfter⟩ := Closes.follows deeper closing run twins beyond
    exact ⟨twinAfter, otherRun, .before twinsAfter⟩

end Meets

end Join

end Relink
