import Relink.Proofs.Scan.Severed.Simple
import Relink.Proofs.Scan.Statement

/-!
# Written semicolons behind statements

A statement that a line break ends does so with the simple statement that it ends with, however deep that
is nested. Behind an `if` without an alternative the semicolon belongs to the consequent, and the unit
behind it is still no `else`.
-/

set_option autoImplicit false

namespace Relink

open Scan

variable {depth otherDepth : Nat}

/-! ## Scanned statements -/

theorem Marks.scanned {reader : Reader} {ending other : Scan Ending} {breaks : Scan Bool}
    (marks : Marks depth otherDepth id reader (resume (Scan.unit depth) ending) breaks
      (resume (Scan.unit otherDepth) other))
    (start : Nat) :
    Marks depth otherDepth (fun stop => Statement.other ⟨start, stop⟩) reader
      (ending >>= fun ended => resumeScanned (Scan.unit depth) (pure (.of none start ended))) breaks
      (other >>= fun ended => resumeScanned (Scan.unit otherDepth) (pure (.of none start ended))) := by
  simp only [← resumeScanned_bind, resumeScanned_of]
  exact marks.map fun stop => Statement.other ⟨start, stop⟩

theorem Marks.header {α : Type} {make : Nat → α} (deeper : depth ≤ otherDepth) {reader : Reader}
    {next otherNext : Nat → Scan (α × Token)} {breaks : Nat → Scan Bool}
    (rest : ∀ stop middle, Marks depth otherDepth make middle (next stop) (breaks stop) (otherNext stop)) :
    Marks depth otherDepth make reader (Scan.header (Scan.unit depth) >>= next)
      (Scan.header (Scan.unit depth) >>= breaks) (Scan.header (Scan.unit otherDepth) >>= otherNext) :=
  .seq (fun _ => Scan.header (Scan.unit otherDepth)) (fun distance stop => stop + distance)
    rfl (fun _ => bracketed_follows deeper _) fun stop middle _ => rest stop middle

/-- What ends before a semicolon is written behind a statement is scanned as it is. -/
theorem EndsWritten.behind {α β : Type} [Located β] {make : Nat → α} (deeper : depth ≤ otherDepth)
    {marked : Prop} {reader middle border : Reader} {action : Scan (β × Token)}
    {other : Nat → Scan (β × Token)} {value : β} {token next : Token}
    {otherNext : β × Token → Scan (α × Token)}
    (written : EndsWritten otherDepth make middle border next
      (otherNext (Located.shift value 0, token.shift 0)))
    (closes : Closes depth otherDepth marked reader action other)
    (run : action reader = .ok ((value, token), middle)) (leads : middle.Leads border) :
    EndsWritten otherDepth make reader border next (other 0 >>= otherNext) := by
  intro seam twin otherAfter severs twins read
  have beyond : seam.left <:+ middle.rest := by
    rw [severs.left]
    exact leads.suffix
  obtain ⟨twinMiddle, otherRun, twinsMiddle⟩ := closes.follows deeper run twins beyond
  rw [severs.shift] at otherRun
  exact (bind_of_ok otherRun _).trans (written seam twinMiddle otherAfter severs twinsMiddle read)

/-! ## Statements with a body -/

section Nested

variable {nested otherNested : Scan Ending} {breaks : Scan Bool}
  (bodies : ∀ reader, Marks depth otherDepth id reader (resume (unit depth) nested) breaks
    (resume (unit otherDepth) otherNested))
  (deeper : depth ≤ otherDepth)

include bodies deeper

theorem headed_marks (reader : Reader) :
    Marks depth otherDepth id reader (resume (unit depth) (headed (unit depth) nested))
      (headedBreaks (unit depth) breaks)
      (resume (unit otherDepth) (headed (unit otherDepth) otherNested)) := by
  simp only [headed, headedBreaks, resume_bind]
  exact .header deeper fun _ middle => bodies middle

theorem forLoop_marks (reader : Reader) :
    Marks depth otherDepth id reader (resume (unit depth) (forLoop (unit depth) nested))
      (forLoopBreaks (unit depth) breaks)
      (resume (unit otherDepth) (forLoop (unit otherDepth) otherNested)) := by
  simp only [forLoop, forLoopBreaks, resume_bind, resume_ite]
  refine .unit deeper fun first middle _ => .ite (fun _ => ?_) fun _ => .require (bodies middle)
  refine .unit deeper fun second behind _ => ?_
  refine .seq (fun _ => expectOperand true) (fun _ => id) rfl
    (fun _ => .expectOperand true) fun _ noted _ => .require (bodies noted)

section Conditional

variable (closes : ∀ reader, Closes depth otherDepth False reader (resume (unit depth) nested)
  fun _ => resume (unit otherDepth) otherNested)

include closes

theorem conditional_marks (reader : Reader) :
    Marks depth otherDepth id reader (resume (unit depth) (conditional (unit depth) nested))
      (conditionalBreaks (unit depth) nested breaks)
      (resume (unit otherDepth) (conditional (unit otherDepth) otherNested)) := by
  simp only [resume_conditional, conditionalBreaks]
  refine .header deeper fun _ middle => ?_
  intro value next after run
  obtain ⟨⟨consequent, word⟩, behind, first, run⟩ := bind_eq_ok run
  obtain ⟨broken, noted, asked, breaksFirst⟩ := bodies middle consequent word behind first
  rw [bind_of_ok (ahead_of_ok asked), bind_of_ok first]
  by_cases isElse : word.isKeyword .elseWord = true
  · simp only [isElse, if_true] at run ⊢
    obtain ⟨brokenElse, last, askedElse, breaksElse⟩ := bodies behind value next after run
    refine ⟨brokenElse, last, askedElse, fun isBroken => ?_⟩
    obtain ⟨border, lastUnit, past, is, made, written⟩ := breaksElse isBroken
    obtain ⟨_, _, _, front, -⟩ := closes middle consequent word behind first
    refine ⟨border, lastUnit, past, is.behind front.leads, made, ?_⟩
    refine EndsWritten.behind deeper ?_ (closes middle) first is.leads
    simp only [Token.isKeyword_shift, isElse, if_true]
    exact written
  · simp only [isElse, Bool.false_eq_true, if_false] at run ⊢
    cases run
    refine ⟨broken, after, rfl, fun isBroken => ?_⟩
    obtain ⟨border, lastUnit, past, is, made, written⟩ := breaksFirst isBroken
    refine ⟨border, lastUnit, past, is, made, ?_⟩
    intro seam twin otherAfter severs twins read
    rw [bind_of_ok (written seam twin otherAfter severs twins read)]
    simp only [Token.isKeyword_shift, isElse, Bool.false_eq_true, if_false]
    rfl

end Conditional

end Nested

/-! ## One statement -/

section Nested

variable (deeper : depth ≤ otherDepth) {fuel otherFuel : Nat} (enough : fuel ≤ otherFuel)
  {nested otherNested : Scan Ending} {breaks : Scan Bool}
  (closes : ∀ reader, Closes depth otherDepth False reader (resume (unit depth) nested)
    fun _ => resume (unit otherDepth) otherNested)
  (bodies : ∀ reader, Marks depth otherDepth id reader (resume (unit depth) nested) breaks
    (resume (unit otherDepth) otherNested))

include deeper enough bodies

theorem named_marks {reader : Reader} {first : Token} (stands : first.Before reader) :
    Marks depth otherDepth id reader (resume (unit depth) (named (unit depth) fuel nested first))
      (namedBreaks (unit depth) fuel breaks first)
      (resume (unit otherDepth) (named (unit otherDepth) otherFuel otherNested first)) := by
  simp only [named, namedBreaks, resume_bind, resume_ite]
  refine .of_behind deeper fun next middle read => ?_
  have simply := simple_marksBehind deeper enough read stands
  by_cases isAsync : first.isWord "async" = true
  · simp only [isAsync, if_true]
    by_cases isFunction : (next.isKeyword .functionWord && !next.onNewLine) = true
    · apply MarksBehind.beyond
      simp only [isFunction, if_true]
      exact .quiet _ _
    · simp only [isFunction, Bool.false_eq_true, if_false]
      apply simply.congr
      rintro other (rfl | isSemicolon)
      · simp only [isFunction, Bool.false_eq_true, if_false]
      · simp [Token.isKeyword, isSemicolon]
  · simp only [isAsync, Bool.false_eq_true, if_false]
    by_cases isColon : next.isPunctuator .colon = true
    · apply MarksBehind.beyond
      simp only [isColon, if_true]
      exact bodies middle
    · simp only [isColon, Bool.false_eq_true, if_false]
      apply simply.congr
      rintro other (rfl | isSemicolon)
      · simp only [isColon, Bool.false_eq_true, if_false]
      · simp [Token.isPunctuator, isSemicolon]

include closes

theorem body_marks {reader : Reader} {first : Token} (stands : first.Before reader) :
    Marks depth otherDepth id reader (resume (unit depth) (body (unit depth) fuel nested first))
      (bodyBreaks (unit depth) fuel nested breaks first)
      (resume (unit otherDepth) (body (unit otherDepth) otherFuel otherNested first)) := by
  unfold body
  split
  case h_16 =>
    have simply : bodyBreaks (unit depth) fuel nested breaks first =
        simpleBreaks (simpleAfter (unit depth) fuel first) := by
      unfold bodyBreaks
      split <;> first | rfl | contradiction
    rw [simply]
    exact simple_marks deeper enough reader first stands
  all_goals
    rename_i isKind
    simp only [bodyBreaks, isKind]
  · exact .quiet _ _
  · exact .quiet _ _
  · exact .of_failing (fun result run => by cases run) _ _
  · exact .of_failing (fun result run => by cases run) _ _
  · exact .of_failing (fun result run => by cases run) _ _
  · exact .quiet _ _
  · exact .quiet _ _
  · exact conditional_marks bodies deeper closes reader
  · exact forLoop_marks bodies deeper reader
  · exact headed_marks bodies deeper reader
  · exact headed_marks bodies deeper reader
  · exact .quiet _ _
  · exact .quiet _ _
  · exact .quiet _ _
  · exact named_marks deeper enough bodies stands

theorem defaultValue_marks {reader : Reader} {value : Token} (stands : value.Before reader) :
    Marks depth otherDepth id reader
      (resume (unit depth) (defaultValue (unit depth) fuel nested value))
      (defaultValueBreaks (unit depth) fuel nested breaks value)
      (resume (unit otherDepth) (defaultValue (unit otherDepth) otherFuel otherNested value)) := by
  simp only [defaultValue, defaultValueBreaks, resume_ite]
  refine .ite (fun _ => body_marks deeper enough closes bodies stands) fun _ =>
    .ite (fun _ => .quiet _ _) fun _ => ?_
  exact simple_marks deeper enough reader value stands

theorem exportStatement_marks (reader : Reader) (start : Nat) :
    Marks depth otherDepth (fun stop => Statement.other ⟨start, stop⟩) reader
      (resumeScanned (unit depth) (exportStatement (unit depth) fuel nested start))
      (exportBreaks (unit depth) fuel nested breaks)
      (resumeScanned (unit otherDepth)
        (exportStatement (unit otherDepth) otherFuel otherNested start)) := by
  simp only [exportStatement, exportBreaks, resumeScanned_bind, resumeScanned_ite]
  refine .unit deeper fun next middle read => .ite (fun _ => .quiet _ _) fun _ =>
    .ite (fun _ => .quiet _ _) fun _ => .ite (fun _ => ?_) fun _ =>
    .ite (fun _ => .quiet _ _) fun _ => ?_
  · refine .unit deeper fun value behind readValue => ?_
    exact (defaultValue_marks deeper enough closes bodies (Token.before readValue)).scanned start
  · exact (body_marks deeper enough closes bodies (Token.before read)).scanned start

theorem statementOver_marks {reader : Reader} {first : Token} (stands : first.Before reader) :
    Marks depth otherDepth (fun stop => Statement.other ⟨first.span.start, stop⟩) reader
      (resumeScanned (unit depth) (statementOver (unit depth) fuel nested first))
      (statementOverBreaks (unit depth) fuel nested breaks first)
      (resumeScanned (unit otherDepth)
        (statementOver (unit otherDepth) otherFuel otherNested first)) := by
  simp only [statementOver, statementOverBreaks, resumeScanned_bind, resumeScanned_ite]
  refine .ite (fun _ => ?_) fun _ => .ite (fun _ => ?_) fun _ => ?_
  · refine .unit deeper fun next middle read => .ite (fun _ => ?_) fun _ => .quiet _ _
    have marks : Marks depth otherDepth id middle _ _ _ :=
      simple_marks deeper enough middle next (Token.before read)
    exact marks.scanned first.span.start
  · exact exportStatement_marks deeper enough closes bodies reader first.span.start
  · exact (body_marks deeper enough closes bodies stands).scanned first.span.start

end Nested

/-! ## Nested statements -/

theorem nestedIn_marks (deeper : depth ≤ otherDepth)
    {statement otherStatement : Token → Scan Scanned} {breaks : Token → Scan Bool}
    (statements : ∀ {reader : Reader} {first : Token}, first.Before reader →
      Marks depth otherDepth (fun stop => Statement.other ⟨first.span.start, stop⟩) reader
        (resumeScanned (unit depth) (statement first)) (breaks first)
        (resumeScanned (unit otherDepth) (otherStatement first)))
    (reader : Reader) :
    Marks depth otherDepth id reader (resume (unit depth) (nestedIn (unit depth) statement))
      (nestedBreaks (unit depth) breaks)
      (resume (unit otherDepth) (nestedIn (unit otherDepth) otherStatement)) := by
  simp only [resume_nestedIn, nestedBreaks]
  refine .unit deeper fun first middle read => .ite (fun _ => .quiet _ _) fun _ => ?_
  exact (statements (Token.before read)).map (·.span.stop)

theorem statement_marks (deeper : depth ≤ otherDepth) {fuel otherFuel : Nat}
    (enough : fuel ≤ otherFuel) {reader : Reader} {first : Token} (stands : first.Before reader) :
    Marks depth otherDepth (fun stop => Statement.other ⟨first.span.start, stop⟩) reader
      (resumeScanned (unit depth) (statement (unit depth) fuel first))
      (statementBreaks (unit depth) fuel first)
      (resumeScanned (unit otherDepth) (statement (unit otherDepth) otherFuel first)) := by
  induction fuel generalizing otherFuel reader first with
  | zero => exact .of_failing (fun result run => by cases run) _ _
  | succ fuel ih =>
      obtain ⟨otherFuel, rfl⟩ := Nat.exists_eq_add_one_of_ne_zero (by omega : otherFuel ≠ 0)
      have less : fuel ≤ otherFuel := by omega
      have closes := nestedIn_closes deeper fun stop => statement_closes deeper less stop
      have bodies := nestedIn_marks deeper fun stands => ih less stands
      exact statementOver_marks deeper enough closes bodies stands

end Relink
