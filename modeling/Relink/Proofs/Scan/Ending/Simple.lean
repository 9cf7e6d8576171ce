import Relink.Proofs.Scan.Ending

/-!
# Endings of simple statements

Simple statements, declarations and the optional semicolons of other statements.
-/

set_option autoImplicit false

namespace Relink

open Scan

variable {depth otherDepth : Nat} {before : List Token}

/-! ## Simple statements -/

theorem noteBrace_notes {reader : Reader} {token : Token} (stands : token.Before reader)
    (last : Kind) :
    reader.Notes { reader with operand := bracedOperand last token reader.operand } := by
  unfold bracedOperand
  split
  · rename_i brace
    have isBrace := (token.isPunctuator_iff .braceOpen).mp brace
    exact stands.notes_group (by rw [isBrace]; rfl) _
  · exact .refl reader

/-- The scan of a simple statement ends, on both sides within bounds on its steps. -/
def SimpleEnds (depth otherDepth fuel otherFuel : Nat) : Prop :=
  ∀ (before : List Token) (reader : Reader) (stop : Nat) (last : Kind), stop = reader.position →
    Midway before reader →
      Ends depth otherDepth before reader
        (resume (unit depth) (simple (unit depth) fuel stop last none))
        fun distance => resume (unit otherDepth)
          (simple (unit otherDepth) otherFuel (stop + distance) last none)

section Step

variable {fuel otherFuel : Nat} {reader middle : Reader} {token : Token} {stop : Nat} {last : Kind}

theorem simple_ends_step (later : SimpleEnds depth otherDepth fuel otherFuel)
    (read : unit depth reader = .ok (token, middle)) (stopsHere : stop = reader.position)
    (midway : Midway before reader) (last : Kind) :
    EndsBehind depth otherDepth before reader token middle
      (resume (unit depth) (simple (unit depth) (fuel + 1) stop last (some token)))
      fun distance => resume (unit otherDepth)
        (simple (unit otherDepth) (otherFuel + 1) (stop + distance) last
          (some (token.shift distance))) := by
  simp only [simple, pendingOr, pure_bind, resume_ite, resume_bind, resume_next, resume_pending,
    resume_fail]
  simp only [Token.isPunctuator_shift, Token.kind_shift, endsBefore_shift]
  have stands := Token.before read
  -- One case for each branch of the loop.
  by_cases semicolon : token.isPunctuator .semicolon = true
  · apply EndsBehind.beyond
    simp only [semicolon, if_true]
    have isKind := (token.isPunctuator_iff .semicolon).mp semicolon
    exact .next stands.stop (stands.previous_ne_eof (by simp [isKind]))
  by_cases ended : token.kind = .eof
  · apply EndsBehind.here stopsHere midway (.refl middle)
    simp only [semicolon, ended, if_true]
    rfl
  by_cases closing : token.kind.closes?.isSome = true
  · refine .failing fun result run => ?_
    simp only [semicolon, ended, closing, if_true, if_false] at run
    cases run
  by_cases ends : endsBefore last token = true
  · apply EndsBehind.here stopsHere midway (noteBrace_notes stands last)
    simp only [semicolon, ended, closing, ends, if_true, if_false]
    exact bind_of_ok (noteBrace_run last token middle) _
  · apply EndsBehind.beyond
    simp only [semicolon, ended, closing, ends, Bool.false_eq_true, if_false]
    apply Ends.seq (fun _ => id) (fun seam => .noteBrace last token)
    intro _ noted run
    rw [noteBrace_run] at run
    cases run
    have other : token.kind ≠ .punctuator .semicolon := fun kind =>
      semicolon ((token.isPunctuator_iff .semicolon).mpr kind)
    have standsNoted := stands.noted (noteBrace_notes stands last)
    refine ⟨standsNoted.previous_ne_semicolon other, [], .nil (noteBrace_notes stands last), ?_⟩
    exact later _ _ _ _ standsNoted.stop (standsNoted.midway other ended)

theorem simple_ends (deeper : depth ≤ otherDepth) (enough : fuel ≤ otherFuel) :
    SimpleEnds depth otherDepth fuel otherFuel := by
  induction fuel generalizing otherFuel with
  | zero => exact fun before reader stop last _ _ => .of_failing (fun result run => by cases run) _
  | succ fuel ih =>
      obtain ⟨otherFuel, rfl⟩ := Nat.exists_eq_add_one_of_ne_zero (by omega : otherFuel ≠ 0)
      intro before reader stop last here midway
      have peeked (count : Nat) (inner : Scan Token) (from_ : Nat) :
          resume inner (simple inner (count + 1) from_ last none) = inner >>= fun token =>
            resume inner (simple inner (count + 1) from_ last (some token)) := by
        simp only [simple, pendingOr, pure_bind, resume_bind]
      simp only [peeked]
      exact .of_behind deeper fun token middle read =>
        simple_ends_step (ih (by omega)) read here midway last

/-- A simple statement of which a unit more is read. -/
theorem simple_endsBehind (deeper : depth ≤ otherDepth) (enough : fuel ≤ otherFuel)
    (read : unit depth reader = .ok (token, middle)) (stopsHere : stop = reader.position)
    (midway : Midway before reader) (last : Kind) :
    EndsBehind depth otherDepth before reader token middle
      (resume (unit depth) (simple (unit depth) fuel stop last (some token)))
      fun distance => resume (unit otherDepth)
        (simple (unit otherDepth) otherFuel (stop + distance) last
          (some (token.shift distance))) := by
  cases fuel with
  | zero => exact .failing fun result run => by cases run
  | succ fuel =>
      obtain ⟨otherFuel, rfl⟩ := Nat.exists_eq_add_one_of_ne_zero (by omega : otherFuel ≠ 0)
      have later : SimpleEnds depth otherDepth fuel otherFuel := simple_ends deeper (by omega)
      exact simple_ends_step later read stopsHere midway last

end Step

theorem simpleAfter_ends (deeper : depth ≤ otherDepth) {fuel otherFuel : Nat}
    (enough : fuel ≤ otherFuel) {reader : Reader} {token : Token}
    (stop : token.span.stop = reader.position) (midway : Midway before reader) :
    Ends depth otherDepth before reader (resume (unit depth) (simpleAfter (unit depth) fuel token))
      fun distance => resume (unit otherDepth)
        (simpleAfter (unit otherDepth) otherFuel (token.shift distance)) :=
  simple_ends deeper enough before reader token.span.stop token.kind stop midway

/-! ## Declarations -/

theorem declaration_ends (deeper : depth ≤ otherDepth) {fuel otherFuel : Nat}
    (enough : fuel ≤ otherFuel) (before : List Token) (reader : Reader) :
    Ends depth otherDepth before reader (resume (unit depth) (declaration (unit depth) fuel))
      fun _ => resume (unit otherDepth) (declaration (unit otherDepth) otherFuel) := by
  induction fuel generalizing otherFuel before reader with
  | zero => exact .of_failing (fun result run => by cases run) _
  | succ fuel ih =>
      obtain ⟨otherFuel, rfl⟩ := Nat.exists_eq_add_one_of_ne_zero (by omega : otherFuel ≠ 0)
      simp only [declaration, resume_bind, resume_ite, resume_next, resume_fail]
      apply Ends.unit deeper
      intro token middle read
      have stands := Token.before read
      refine .ite (fun brace => ?_) fun _ => .ite (fun _ => ?_) fun _ => ?_
      · have isBrace := (token.isPunctuator_iff .braceOpen).mp brace
        apply Ends.seq (fun _ => id) (fun seam => .expectOperand true)
        intro _ noted run
        cases run
        have notes := stands.notes_group (by rw [isBrace]; rfl) true
        have standsNoted := stands.noted notes
        refine ⟨standsNoted.previous_ne_semicolon (by simp [isBrace]), [], .nil notes, ?_⟩
        exact .next standsNoted.stop (standsNoted.previous_ne_eof (by simp [isBrace]))
      · exact .of_failing (fun result run => by cases run) _
      · exact ih (by omega) _ middle

/-! ## Optional semicolons -/

theorem terminator_ends {reader middle : Reader} {next : Token} {stop : Nat}
    (read : unit depth reader = .ok (next, middle)) (stopsHere : stop = reader.position)
    (midway : Midway before reader) :
    EndsBehind depth otherDepth before reader next middle
      (resume (unit depth) (terminator stop next))
      fun distance => resume (unit otherDepth) (terminator (stop + distance) (next.shift distance)) := by
  simp only [terminator, resume_ite, resume_next, resume_pending, resume_fail]
  simp only [Token.isPunctuator_shift, Token.kind_shift, Token.onNewLine_shift]
  have stands := Token.before read
  by_cases semicolon : next.isPunctuator .semicolon = true
  · apply EndsBehind.beyond
    simp only [semicolon, if_true]
    have isKind := (next.isPunctuator_iff .semicolon).mp semicolon
    exact .next stands.stop (stands.previous_ne_eof (by simp [isKind]))
  by_cases ends : next.kind = .eof ∨ next.onNewLine = true
  · apply EndsBehind.here stopsHere midway (.refl middle)
    simp only [semicolon, ends, if_true, Bool.false_eq_true, if_false]
    rfl
  · refine .failing fun result run => ?_
    simp only [semicolon, ends, if_false, Bool.false_eq_true] at run
    cases run

end Relink
