import Relink.Proofs.Scan.Ending.Simple
import Relink.Proofs.Scan.Severed

/-!
# Written semicolons behind simple statements

A simple statement that a line break ends looks at one unit behind it. With a semicolon before that unit it
looks at the semicolon alone, and ends behind it.
-/

set_option autoImplicit false

namespace Relink

open Scan

/-! ## The question of a simple statement -/

namespace Scan

variable {α : Type}

theorem simpleBreaks_next (stop : Nat) : simpleBreaks (pure ⟨stop, none⟩) = pure false := rfl

theorem simpleBreaks_pending (stop : Nat) (token : Token) :
    simpleBreaks (pure ⟨stop, some token⟩) = pure (token.kind != .eof) := rfl

theorem simpleBreaks_bind (action : Scan α) (next : α → Scan Ending) :
    simpleBreaks (action >>= next) = action >>= fun value => simpleBreaks (next value) := by
  simp only [simpleBreaks, bind_assoc]

theorem simpleBreaks_ite (condition : Prop) [Decidable condition] (yes no : Scan Ending) :
    simpleBreaks (if condition then yes else no) =
      if condition then simpleBreaks yes else simpleBreaks no := by
  split <;> rfl

end Scan

variable {depth otherDepth : Nat}

/-- The scan of a simple statement behind `last` is marked, on both sides within bounds on its steps. -/
def SimpleMarks (depth otherDepth fuel otherFuel : Nat) : Prop :=
  ∀ (reader : Reader) (last : Token), last.Before reader →
    Marks depth otherDepth id reader (resume (unit depth) (simpleAfter (unit depth) fuel last))
      (simpleBreaks (simpleAfter (unit depth) fuel last))
      (resume (unit otherDepth) (simpleAfter (unit otherDepth) otherFuel last))

section Step

variable {fuel otherFuel : Nat} {reader middle : Reader} {last token : Token}

theorem simple_marks_step (later : SimpleMarks depth otherDepth fuel otherFuel)
    (read : unit depth reader = .ok (token, middle)) (stands : last.Before reader) :
    MarksBehind depth otherDepth id reader token middle
      (resume (unit depth) (simple (unit depth) (fuel + 1) last.span.stop last.kind (some token)))
      (simpleBreaks (simple (unit depth) (fuel + 1) last.span.stop last.kind (some token)))
      fun other => resume (unit otherDepth)
        (simple (unit otherDepth) (otherFuel + 1) last.span.stop last.kind (some other)) := by
  simp only [simple, pendingOr, pure_bind, resume_ite, resume_bind, resume_next, resume_pending,
    resume_fail, simpleBreaks_ite, simpleBreaks_bind, simpleBreaks_next, simpleBreaks_pending]
  by_cases semicolon : token.isPunctuator .semicolon = true
  · apply MarksBehind.beyond
    simp only [semicolon, if_true]
    exact .quiet _ _
  by_cases ended : token.kind = .eof
  · apply MarksBehind.beyond
    simp only [semicolon, ended, if_true, Bool.false_eq_true, if_false, bne_self_eq_false]
    exact .quiet _ _
  by_cases closing : token.kind.closes?.isSome = true
  · refine .beyond (.of_failing (fun result run => ?_) _ _)
    simp only [semicolon, ended, closing, if_true, if_false] at run
    cases run
  have noted := noteBrace_run last.kind token middle
  by_cases ends : endsBefore last.kind token = true
  · refine .here stands ends ended rfl ?_ ?_ fun other isSemicolon stop => ?_
    · simp only [semicolon, ended, closing, ends, if_true, if_false]
      refine (bind_of_ok noted _).trans ?_
      rw [bne_iff_ne.mpr ended]
      rfl
    · simp only [semicolon, ended, closing, ends, if_true, if_false, id, ← stands.stop]
      exact bind_of_ok noted _
    · have isOne : other.isPunctuator .semicolon = true :=
        (other.isPunctuator_iff .semicolon).mpr isSemicolon
      simp only [isOne, if_true, stop, id]
  · apply MarksBehind.beyond
    simp only [semicolon, ended, closing, ends, Bool.false_eq_true, if_false]
    refine .seq (fun distance => noteBrace last.kind (token.shift distance))
      (fun _ => id) rfl (fun seam => .noteBrace last.kind token) fun _ behind run => ?_
    rw [noted] at run
    cases run
    exact later _ token ((Token.before read).noted (noteBrace_notes (Token.before read) last.kind))

theorem simple_marks (deeper : depth ≤ otherDepth) (enough : fuel ≤ otherFuel) :
    SimpleMarks depth otherDepth fuel otherFuel := by
  induction fuel generalizing otherFuel with
  | zero => exact fun reader last _ => .of_failing (fun result run => by cases run) _ _
  | succ fuel ih =>
      obtain ⟨otherFuel, rfl⟩ := Nat.exists_eq_add_one_of_ne_zero (by omega : otherFuel ≠ 0)
      intro reader last stands
      have peeked (count : Nat) (inner : Scan Token) : simpleAfter inner (count + 1) last =
          inner >>= fun token => simple inner (count + 1) last.span.stop last.kind (some token) := by
        simp only [simpleAfter, simple, pendingOr, pure_bind]
      simp only [peeked, resume_bind, simpleBreaks_bind]
      exact .of_behind deeper fun token middle read =>
        simple_marks_step (ih (by omega)) read stands

/-- A simple statement of which a unit more is read. -/
theorem simple_marksBehind (deeper : depth ≤ otherDepth) (enough : fuel ≤ otherFuel)
    (read : unit depth reader = .ok (token, middle)) (stands : last.Before reader) :
    MarksBehind depth otherDepth id reader token middle
      (resume (unit depth) (simple (unit depth) fuel last.span.stop last.kind (some token)))
      (simpleBreaks (simple (unit depth) fuel last.span.stop last.kind (some token)))
      fun other => resume (unit otherDepth)
        (simple (unit otherDepth) otherFuel last.span.stop last.kind (some other)) := by
  cases fuel with
  | zero => exact .beyond (.of_failing (fun result run => by cases run) _ _)
  | succ fuel =>
      obtain ⟨otherFuel, rfl⟩ := Nat.exists_eq_add_one_of_ne_zero (by omega : otherFuel ≠ 0)
      have later : SimpleMarks depth otherDepth fuel otherFuel := simple_marks deeper (by omega)
      exact simple_marks_step later read stands

end Step

end Relink
