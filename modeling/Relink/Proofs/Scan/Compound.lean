import Relink.Proofs.Scan.Simple
import Relink.Scan.Compound

/-!
# Borders of compound statements

A control statement ends before the border of its body, or behind the brackets that end it.
-/

set_option autoImplicit false

namespace Relink

open Scan

variable {depth otherDepth : Nat}

/-! ## Headers and blocks -/

/-- A unit that a statement needs, and where it ends. -/
def bracketed (unit : Scan Token) (p : Punctuator) : Scan Nat := do
  let token ← unit
  require (.punctuator p) token
  pure token.span.stop

theorem bracketed_follows {seam : Seam} (deeper : depth ≤ otherDepth) (p : Punctuator) :
    seam.Follows (bracketed (unit depth) p) (bracketed (unit otherDepth) p) (· + seam.shift) :=
  .seq (.unit deeper) fun token => .seq (.require _ token seam.shift) fun _ => .pure rfl

theorem require_eq_ok {kind : Kind} {token : Token} {reader after : Reader}
    (run : require kind token reader = .ok ((), after)) : token.kind = kind ∧ after = reader := by
  unfold require at run
  split at run
  · rename_i isKind
    cases run
    exact ⟨isKind, rfl⟩
  · cases run

/-- A group that was passed ends where the reader stands, with a closing mark. -/
structure EndsClosed (reader : Reader) (stop : Nat) (after : Reader) : Prop where
  stop : stop = after.position
  closed : ∀ passed, reader.Passes passed after → Text.Sealed passed

theorem UnitAt.endsClosed {reader after : Reader} {token : Token} {body : Text}
    (lies : UnitAt reader token body after) (closes : token.kind.closesText) :
    EndsClosed reader token.span.stop after := by
  refine ⟨lies.stop, fun passed passes => ?_⟩
  rw [passes.unique lies.passes]
  exact (lies.closed closes).append _

theorem EndsClosed.behind {reader middle after : Reader} {stop : Nat} (leads : reader.Leads middle)
    (ends : EndsClosed middle stop after) (passesAfter : middle.Leads after) :
    EndsClosed reader stop after := by
  obtain ⟨first, front⟩ := leads
  obtain ⟨second, back⟩ := passesAfter
  refine ⟨ends.stop, fun passed passes => ?_⟩
  rw [passes.unique (front.trans back)]
  exact (ends.closed second back).append first

theorem bracketed_ends {p : Punctuator} (opens : p.opens?.isSome = true) {reader after : Reader}
    {stop : Nat} (run : bracketed (unit depth) p reader = .ok (stop, after)) :
    EndsClosed reader stop after := by
  obtain ⟨token, middle, read, rest⟩ := bind_eq_ok run
  obtain ⟨⟨⟩, same, required, done⟩ := bind_eq_ok rest
  obtain ⟨isKind, rfl⟩ := require_eq_ok required
  cases done
  obtain ⟨body, lies⟩ := unit_at read
  exact lies.endsClosed (.inr (.inr (by rw [isKind]; exact opens)))

theorem catchPart_follows {seam : Seam} (deeper : depth ≤ otherDepth) :
    seam.Follows (catchPart (unit depth)) (catchPart (unit otherDepth)) (· + seam.shift) := by
  refine .seq (.unit deeper) fun token => .ite (fun _ => bracketed_follows deeper _) fun _ => ?_
  exact .seq (.require _ token seam.shift) fun _ => .pure rfl

theorem catchPart_ends {reader after : Reader} {stop : Nat}
    (run : catchPart (unit depth) reader = .ok (stop, after)) : EndsClosed reader stop after := by
  obtain ⟨token, middle, read, run⟩ := bind_eq_ok run
  obtain ⟨body, lies⟩ := unit_at read
  split at run
  · have ends := bracketed_ends rfl (show bracketed (unit depth) .braceOpen middle = _ from run)
    have follows : Seam.atEnd.Follows (bracketed (unit depth) .braceOpen) _ _ :=
      bracketed_follows (Nat.le_refl depth) _
    exact .behind ⟨_, lies.passes⟩ ends (follows.leads run)
  · obtain ⟨⟨⟩, same, required, done⟩ := bind_eq_ok run
    obtain ⟨isKind, rfl⟩ := require_eq_ok required
    cases done
    exact lies.endsClosed (.inr (.inr (by rw [isKind]; rfl)))

theorem Closes.ends {reader : Reader} {marked : Prop} {action : Scan Nat} {other : Scan Nat}
    (follows : ∀ seam : Seam, seam.Follows action other (· + seam.shift))
    (ends : ∀ {after stop}, action reader = .ok (stop, after) → EndsClosed reader stop after) :
    Closes depth otherDepth marked reader
      (action >>= fun stop => resume (unit depth) (pure ⟨stop, none⟩))
      fun _ => other >>= fun stop => resume (unit otherDepth) (pure ⟨stop, none⟩) := by
  simp only [resume_next]
  apply Closes.seq (fun distance stop => stop + distance) follows
  intro stop middle passed run passes
  have closed := ends run
  exact .next closed.stop (.inl (closed.closed passed passes))

/-! ## Statements with a body -/

namespace Scan

/-- The alternative is carried on as the statement, or the consequent is. -/
theorem resume_conditional (unit : Scan Token) (nested : Scan Ending) :
    resume unit (conditional unit nested) =
      header unit >>= fun _ => resume unit nested >>= fun parts =>
        if parts.2.isKeyword .elseWord then resume unit nested else pure parts := by
  simp only [conditional, resume_bind, resume_ite, resume_pending]
  simp only [resume, bind_assoc, pure_bind]

theorem resume_doLoop (unit : Scan Token) (nested : Scan Ending) :
    resume unit (doLoop unit nested) =
      resume unit nested >>= fun parts => require (.keyword .whileWord) parts.2 >>= fun _ =>
        header unit >>= fun stop => unit >>= fun next =>
          if next.isPunctuator .semicolon then unit >>= fun after => pure (next.span.stop, after)
          else pure (stop, next) := by
  simp only [doLoop, resume_bind, resume_ite, resume_pending, resume_next]
  simp only [resume, bind_assoc, pure_bind]

end Scan

section Nested

variable (deeper : depth ≤ otherDepth) {nested otherNested : Scan Ending}
  (bodies : ∀ reader, Closes depth otherDepth False reader (resume (unit depth) nested)
    fun _ => resume (unit otherDepth) otherNested)

include deeper bodies

theorem headed_closes (reader : Reader) :
    Closes depth otherDepth False reader (resume (unit depth) (headed (unit depth) nested))
      fun _ => resume (unit otherDepth) (headed (unit otherDepth) otherNested) := by
  simp only [headed, resume_bind]
  refine .seq (fun distance stop => stop + distance) (fun seam => bracketed_follows deeper _)
    fun stop middle passed run passes => ?_
  exact (bodies middle).mono False.elim

theorem forLoop_closes (reader : Reader) :
    Closes depth otherDepth False reader (resume (unit depth) (forLoop (unit depth) nested))
      fun _ => resume (unit otherDepth) (forLoop (unit otherDepth) otherNested) := by
  simp only [forLoop, resume_bind, resume_ite]
  refine .seq (fun distance token => token.shift distance) (fun seam => .unit deeper)
    fun first middle passed run passes => .ite (fun _ => ?_) fun _ => ?_
  · refine .seq (fun distance token => token.shift distance) (fun seam => .unit deeper)
      fun second behind _ _ _ => ?_
    apply Closes.seq (fun _ => id) (fun seam => .expectOperand true)
    intro _ noted _ _ _
    apply Closes.seq (fun _ => id) (fun seam => .require _ second seam.shift)
    intro _ required _ _ _
    exact (bodies required).mono False.elim
  · apply Closes.seq (fun _ => id) (fun seam => .require _ first seam.shift)
    intro _ required _ _ _
    exact (bodies required).mono False.elim

theorem conditional_closes (reader : Reader) :
    Closes depth otherDepth False reader (resume (unit depth) (conditional (unit depth) nested))
      fun _ => resume (unit otherDepth) (conditional (unit otherDepth) otherNested) := by
  simp only [resume_conditional]
  refine .seq (fun distance stop => stop + distance) (fun seam => bracketed_follows deeper _)
    fun stop middle passed run passes => ?_
  apply ((bodies middle).mono False.elim).andThen deeper
  intro stop next after run
  by_cases isElse : next.isKeyword .elseWord = true
  · left
    simp only [Token.isKeyword_shift, isElse, if_true]
    exact bodies after
  · right
    refine ⟨stop, by simp only [isElse, Bool.false_eq_true, if_false], rfl, ?_⟩
    intro distance other resembles
    simp only [resembles.isKeyword, isElse, Bool.false_eq_true, if_false]

theorem doLoop_closes (reader : Reader) :
    Closes depth otherDepth False reader (resume (unit depth) (doLoop (unit depth) nested))
      fun _ => resume (unit otherDepth) (doLoop (unit otherDepth) otherNested) := by
  simp only [resume_doLoop]
  refine (bodies reader).andThen deeper fun stop word after run => .inl ?_
  apply Closes.seq (fun _ => id) (fun seam => .require _ word seam.shift)
  intro _ required _ _ _
  refine .seq (fun distance stop => stop + distance) (fun seam => bracketed_follows deeper _)
    fun stop middle passed headerRun passes => ?_
  have ends : EndsClosed required stop middle := bracketed_ends rfl headerRun
  apply Closes.of_from
  intro next behind read
  by_cases semicolon : next.isPunctuator .semicolon = true
  · apply ClosesFrom.beyond deeper read
    intro body lies
    have isSemicolon := (next.isPunctuator_iff .semicolon).mp semicolon
    simp only [Token.isPunctuator_shift, semicolon, if_true]
    exact .next lies.stop (lies.closed (.inl isSemicolon))
  · refine .here behind.operand read ends.stop (.inr (.inr (.inl (ends.closed passed passes)))) ?_ ?_
    · simp only [semicolon, Bool.false_eq_true, if_false]
      rfl
    · intro distance other otherMiddle resembles same
      simp only [resembles.isPunctuator, semicolon, Bool.false_eq_true, if_false]
      rw [← same]
      rfl

end Nested

/-! ## Statements that end with a block -/

theorem switch_closes (deeper : depth ≤ otherDepth) (reader : Reader) :
    Closes depth otherDepth False reader (resume (unit depth) (switch (unit depth)))
      fun _ => resume (unit otherDepth) (switch (unit otherDepth)) := by
  simp only [switch, resume_bind]
  refine .seq (fun distance stop => stop + distance) (fun seam => bracketed_follows deeper _)
    fun _ middle _ _ _ => ?_
  exact .ends (fun seam => bracketed_follows deeper _) fun run => bracketed_ends rfl run

theorem finallyPart_closesFrom (deeper : depth ≤ otherDepth) {marked : Prop}
    {reader middle : Reader} {next : Token} {caught : Option Nat}
    (read : unit depth reader = .ok (next, middle))
    (closed : ∀ stop, caught = some stop → stop = reader.position ∧ marked) :
    ClosesFrom depth otherDepth marked reader next middle
      (resume (unit depth) (finallyPart (unit depth) caught next))
      fun distance other => resume (unit otherDepth)
        (finallyPart (unit otherDepth) (caught.map (· + distance)) other) := by
  simp only [finallyPart, resume_ite, resume_bind]
  by_cases isFinally : next.isKeyword .finallyWord = true
  · apply ClosesFrom.beyond deeper read
    intro body lies
    simp only [Token.isKeyword_shift, isFinally, if_true]
    exact .ends (fun seam => bracketed_follows deeper _) fun run => bracketed_ends rfl run
  cases caught with
  | none =>
      refine .of_failing (fun result run => ?_) _
      simp only [isFinally, Bool.false_eq_true, if_false, resume_fail] at run
      cases run
  | some stop =>
      obtain ⟨here, holds⟩ := closed stop rfl
      refine .here middle.operand read here (.inr (.inr holds)) ?_ ?_
      · simp only [isFinally, Bool.false_eq_true, if_false, resume_pending]
        rfl
      · intro distance other otherMiddle resembles same
        simp only [resembles.isKeyword, isFinally, Bool.false_eq_true, if_false, Option.map_some,
          resume_pending]
        rw [← same]
        rfl

theorem guarded_closes (deeper : depth ≤ otherDepth) (reader : Reader) :
    Closes depth otherDepth False reader (resume (unit depth) (guarded (unit depth)))
      fun _ => resume (unit otherDepth) (guarded (unit otherDepth)) := by
  simp only [guarded, resume_bind, resume_ite]
  refine .seq (fun distance stop => stop + distance) (fun seam => bracketed_follows deeper _)
    fun _ tried _ _ _ => .of_from fun next middle read => ?_
  by_cases isCatch : next.isKeyword .catchWord = true
  · apply ClosesFrom.beyond deeper read
    intro body lies
    simp only [Token.isKeyword_shift, isCatch, if_true]
    refine .seq (fun distance stop => stop + distance) (fun seam => catchPart_follows deeper)
      fun stop behind passed run passes => .of_from fun after last readAfter => ?_
    have ends := catchPart_ends run
    have closed : Text.Sealed passed := ends.closed passed passes
    apply finallyPart_closesFrom deeper readAfter
    intro found same
    cases same
    exact ⟨ends.stop, .inl closed⟩
  · simp only [isCatch, Bool.false_eq_true, if_false]
    refine (finallyPart_closesFrom deeper read fun stop (same : none = some stop) =>
      nomatch same).congr
      fun distance other resembles => ?_
    simp only [resembles.isKeyword, isCatch, Bool.false_eq_true, if_false]
    rfl

end Relink
