import Relink.Proofs.Scan.Request
import Relink.Scan.Statements

/-!
# Borders of statements

Every statement ends before a border, however it begins and whatever is nested in it.
-/

set_option autoImplicit false

namespace Relink

open Scan

variable {depth otherDepth : Nat}

/-! ## One statement -/

section Nested

variable (deeper : depth ≤ otherDepth) {fuel otherFuel : Nat} (enough : fuel ≤ otherFuel)
  {nested otherNested : Scan Ending}
  (bodies : ∀ reader, Closes depth otherDepth False reader (resume (unit depth) nested)
    fun _ => resume (unit otherDepth) otherNested)

include deeper enough bodies

theorem named_closes {reader : Reader} {first : Token} (stop : first.span.stop = reader.position) :
    Closes depth otherDepth False reader
      (resume (unit depth) (named (unit depth) fuel nested first))
      fun distance => resume (unit otherDepth)
        (named (unit otherDepth) otherFuel otherNested (first.shift distance)) := by
  simp only [named, resume_bind, resume_ite, Token.isWord_shift, Token.stop_shift, Token.kind_shift]
  apply Closes.of_from
  intro next middle read
  have simply := simple_closesFrom deeper enough read stop first.kind
  by_cases isAsync : first.isWord "async" = true
  · simp only [isAsync, if_true]
    by_cases isFunction : (next.isKeyword .functionWord && !next.onNewLine) = true
    · apply ClosesFrom.beyond deeper read
      intro body lies
      simp only [Token.isKeyword_shift, Token.onNewLine_shift, isFunction, if_true]
      exact (declaration_closes deeper enough middle).mono False.elim
    · simp only [isFunction, Bool.false_eq_true, if_false]
      apply simply.congr
      intro distance other resembles
      rw [if_neg]
      intro otherFunction
      apply isFunction
      simp only [resembles.isKeyword, Bool.and_eq_true, Bool.not_eq_true'] at otherFunction ⊢
      refine ⟨otherFunction.1, Bool.eq_false_iff.mpr fun newLine => ?_⟩
      rw [resembles.onNewLine newLine] at otherFunction
      exact absurd otherFunction.2 (by decide)
  · simp only [isAsync, Bool.false_eq_true, if_false]
    by_cases isColon : next.isPunctuator .colon = true
    · apply ClosesFrom.beyond deeper read
      intro body lies
      simp only [Token.isPunctuator_shift, isColon, if_true]
      exact (bodies middle).mono False.elim
    · simp only [isColon, Bool.false_eq_true, if_false]
      apply simply.congr
      intro distance other resembles
      simp only [resembles.isPunctuator, isColon, Bool.false_eq_true, if_false]

theorem body_closes {reader : Reader} {first : Token} (stop : first.span.stop = reader.position) :
    Closes depth otherDepth first.kind.closesText reader
      (resume (unit depth) (body (unit depth) fuel nested first))
      fun distance => resume (unit otherDepth)
        (body (unit otherDepth) otherFuel otherNested (first.shift distance)) := by
  simp only [body, Token.kind_shift, Token.stop_shift]
  split
  · rename_i isSemicolon
    simp only [resume_next]
    exact .next stop (.inl isSemicolon)
  · rename_i isBrace
    have closes : first.kind.closesText := .inr (.inr (by rw [isBrace]; rfl))
    simp only [resume_bind, resume_next]
    apply Closes.seq (fun _ => id) (fun seam => .expectOperand true)
    intro value _ passed run passes
    cases run
    have nothing : passed = [] := List.self_eq_append_left.mp passes.rest
    exact .next stop (.inr ⟨nothing, closes⟩)
  · exact .of_failing (fun result run => by cases run) _
  · exact .of_failing (fun result run => by cases run) _
  · exact .of_failing (fun result run => by cases run) _
  · exact (declaration_closes deeper enough reader).mono False.elim
  · exact (declaration_closes deeper enough reader).mono False.elim
  · exact (conditional_closes deeper bodies reader).mono False.elim
  · exact (forLoop_closes deeper bodies reader).mono False.elim
  · exact (headed_closes deeper bodies reader).mono False.elim
  · exact (headed_closes deeper bodies reader).mono False.elim
  · exact (switch_closes deeper reader).mono False.elim
  · exact (doLoop_closes deeper bodies reader).mono False.elim
  · exact (guarded_closes deeper reader).mono False.elim
  · exact (named_closes deeper enough bodies stop).mono False.elim
  · exact (simpleAfter_closes deeper enough stop).mono False.elim

theorem defaultValue_closes {reader : Reader} {value : Token}
    (stop : value.span.stop = reader.position) :
    Closes depth otherDepth value.kind.closesText reader
      (resume (unit depth) (defaultValue (unit depth) fuel nested value))
      fun distance => resume (unit otherDepth)
        (defaultValue (unit otherDepth) otherFuel otherNested (value.shift distance)) := by
  simp only [defaultValue, resume_ite]
  refine .ite (fun _ => body_closes deeper enough bodies stop) fun _ => .ite (fun _ => ?_) fun _ => ?_
  · exact .of_failing (fun result run => by cases run) _
  · exact (simpleAfter_closes deeper enough stop).mono False.elim

theorem exportStatement_closes (reader : Reader) (start : Nat) :
    Closes depth otherDepth False reader
      (resumeScanned (unit depth) (exportStatement (unit depth) fuel nested start))
      fun distance => resumeScanned (unit otherDepth)
        (exportStatement (unit otherDepth) otherFuel otherNested (start + distance)) := by
  simp only [exportStatement, resumeScanned_bind, resumeScanned_ite]
  refine .of_from fun next middle read => .beyond deeper read fun body lies => ?_
  refine .ite (fun _ => ?_) fun _ => .ite (fun _ => ?_) fun _ => .ite (fun _ => ?_) fun _ =>
    .ite (fun _ => ?_) fun _ => ?_
  · exact (exportAll_closes deeper middle start).mono False.elim
  · exact (exportList_closes deeper start lies.stop).mono False.elim
  · refine .of_from fun value behind readValue => .beyond deeper readValue fun valueBody liesValue => ?_
    have closes := (defaultValue_closes deeper enough bodies liesValue.stop).scanned deeper none start
    simp only [resumeScanned_bind] at closes
    exact closes.mono liesValue.closed
  · exact .of_failing (fun result run => by cases run) _
  · have closes := (body_closes deeper enough bodies lies.stop).scanned deeper none start
    simp only [resumeScanned_bind] at closes
    exact closes.mono lies.closed

theorem statementOver_closes {reader : Reader} {first : Token}
    (stop : first.span.stop = reader.position) :
    Closes depth otherDepth first.kind.closesText reader
      (resumeScanned (unit depth) (statementOver (unit depth) fuel nested first))
      fun distance => resumeScanned (unit otherDepth)
        (statementOver (unit otherDepth) otherFuel otherNested (first.shift distance)) := by
  simp only [statementOver, resumeScanned_bind, resumeScanned_ite]
  refine .ite (fun _ => ?_) fun _ => .ite (fun _ => ?_) fun _ => ?_
  · refine .of_from fun next middle read => .beyond deeper read fun body lies => ?_
    refine .ite (fun _ => ?_) fun _ => ?_
    · have closes :=
        (simpleAfter_closes deeper enough lies.stop).scanned deeper none first.span.start
      simp only [resumeScanned_bind] at closes
      exact closes.mono False.elim
    · exact (importStatement_closes deeper enough first.span.start lies.stop lies.room).mono False.elim
  · exact (exportStatement_closes deeper enough bodies reader first.span.start).mono False.elim
  · have closes := (body_closes deeper enough bodies stop).scanned deeper none first.span.start
    simp only [resumeScanned_bind] at closes
    exact closes

end Nested

/-! ## Nested statements -/

theorem resume_nestedIn (inner : Scan Token) (statement : Token → Scan Scanned) :
    resume inner (nestedIn inner statement) = inner >>= fun first =>
      if first.kind = .eof then fail (.atToken .unexpectedEnd first)
      else resumeScanned inner (statement first) >>= fun parts =>
        pure (parts.1.span.stop, parts.2) := by
  simp only [nestedIn, resume_bind, resume_ite, resume_fail]
  simp only [resume, resumeScanned, bind_assoc, pure_bind]

theorem nestedIn_closes (deeper : depth ≤ otherDepth)
    {statement otherStatement : Token → Scan Scanned}
    (statements : ∀ {reader first}, first.span.stop = reader.position →
      Closes depth otherDepth first.kind.closesText reader
        (resumeScanned (unit depth) (statement first))
        fun distance => resumeScanned (unit otherDepth) (otherStatement (first.shift distance)))
    (reader : Reader) :
    Closes depth otherDepth False reader (resume (unit depth) (nestedIn (unit depth) statement))
      fun _ => resume (unit otherDepth) (nestedIn (unit otherDepth) otherStatement) := by
  simp only [resume_nestedIn]
  refine .of_from fun first middle read => .beyond deeper read fun body lies => ?_
  apply Closes.ite (fun _ => .of_failing (fun result run => by cases run) _)
  intro _
  apply ((statements lies.stop).mono lies.closed).andThen deeper
  intro statement next after _
  exact .inr ⟨statement.span.stop, rfl, rfl, fun distance other resembles => rfl⟩

theorem statement_closes (deeper : depth ≤ otherDepth) {fuel otherFuel : Nat}
    (enough : fuel ≤ otherFuel) {reader : Reader} {first : Token}
    (stop : first.span.stop = reader.position) :
    Closes depth otherDepth first.kind.closesText reader
      (resumeScanned (unit depth) (statement (unit depth) fuel first))
      fun distance => resumeScanned (unit otherDepth)
        (statement (unit otherDepth) otherFuel (first.shift distance)) := by
  induction fuel generalizing otherFuel reader first with
  | zero => exact .of_failing (fun result run => by cases run) _
  | succ fuel ih =>
      obtain ⟨otherFuel, rfl⟩ := Nat.exists_eq_add_one_of_ne_zero (by omega : otherFuel ≠ 0)
      have less : fuel ≤ otherFuel := by omega
      exact statementOver_closes deeper enough
        (nestedIn_closes deeper fun stop => ih less stop) stop

end Relink
