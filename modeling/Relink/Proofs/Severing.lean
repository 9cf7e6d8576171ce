import Mathlib.Data.List.Infix
import Relink.Proofs.Scan.Ending.Statements
import Relink.Proofs.Scan.Preamble
import Relink.Proofs.Scan.Severed.Statement

/-!
# Automatic semicolons

Where a line break ends a statement a semicolon may be written in its place. The module is split as before:
the statement ends behind the semicolon, and all later ones stand one byte later.
-/

set_option autoImplicit false

namespace Relink

open Scan

def Statement.withSemicolon (statement : Statement) : Statement :=
  { statement with span := ⟨statement.span.start, statement.span.stop + 1⟩ }

/-! ## Asking each statement -/

namespace Scan

theorem statementsBreaks_done (inner : Scan Token) (bound fuel : Nat) {first : Token}
    (ended : first.kind = .eof) : statementsBreaks inner bound (fuel + 1) (some first) = pure [] := by
  simp only [statementsBreaks, pendingOr, pure_bind, ended, if_true]

theorem statementsBreaks_next (inner : Scan Token) (bound fuel : Nat) :
    statementsBreaks inner bound (fuel + 1) none =
      inner >>= fun first => statementsBreaks inner bound (fuel + 1) (some first) := by
  simp only [statementsBreaks, pendingOr, pure_bind]

/-- The question is asked where the statement is scanned, and then of those behind it. -/
theorem statementsBreaks_cons {inner : Scan Token} {bound fuel : Nat} {first next : Token}
    {reader noted after final : Reader} {found : Statement} {broken : Bool} {others : List Bool}
    (noEnd : first.kind ≠ .eof)
    (asked : statementBreaks inner bound first reader = .ok (broken, noted))
    (scanned : resumeScanned inner (statement inner bound first) reader = .ok ((found, next), after))
    (rest : statementsBreaks inner bound fuel (some next) after = .ok (others, final)) :
    statementsBreaks inner bound (fuel + 1) (some first) reader = .ok (broken :: others, final) := by
  cases fuel with
  | zero => cases rest
  | succ fuel =>
      have more : statementsBreaks inner bound (fuel + 2) (some first) =
          ahead (statementBreaks inner bound first) >>= fun breaks =>
            resumeScanned inner (statement inner bound first) >>= fun parts =>
              statementsBreaks inner bound (fuel + 1) (some parts.2) >>= fun others =>
                pure (breaks :: others) := by
        simp only [statementsBreaks, pendingOr, pure_bind, noEnd, if_false, resumeScanned, bind_assoc]
      rw [more, bind_of_ok (ahead_of_ok asked), bind_of_ok scanned, bind_of_ok rest]
      rfl

/-- A block notes itself that an operand is due behind it. -/
theorem statements_braced (inner : Scan Token) (bound fuel : Nat) {first : Token}
    (isBrace : first.kind = .punctuator .braceOpen) (reader : Reader) (operand : Bool) :
    statements inner bound fuel (some first) { reader with operand := operand } =
      statements inner bound fuel (some first) reader := by
  have block : statement inner bound first { reader with operand := operand } =
      statement inner bound first reader := by
    cases bound with
    | zero => rfl
    | succ bound =>
        simp only [statement, statementOver, Token.isKeyword, isBrace, body]
        rfl
  cases fuel with
  | zero => rfl
  | succ fuel =>
      simp only [statements, pendingOr, pure_bind, isBrace, reduceCtorEq, if_false]
      exact bind_run_congr block _

end Scan

/-! ## Runs -/

variable {depth otherDepth bound otherBound fuel : Nat} {start last : Reader} {first : Token}
  {found : List Statement}

/-- With a semicolon written at `border` a run finds the statements `found`. -/
def FindsWritten (otherDepth otherBound fuel : Nat) (first : Token) (start border : Reader)
    (found : List Statement) : Prop :=
  ∀ (seam : Seam) twin, seam.Severs border → seam.Twins start twin → ∀ otherFuel, fuel ≤ otherFuel →
    ∃ final, statements (unit otherDepth) otherBound otherFuel (some first) twin = .ok (found, final)

/-- A semicolon may be written at a border, and behind it a run finds `found`. -/
structure MayWrite (otherDepth otherBound fuel : Nat) (first : Token) (start border : Reader)
    (found : List Statement) : Prop where
  leads : start.Leads border
  nonempty : border.rest ≠ []
  alike : Text.Alike border.rest (';' :: border.rest)
  finds : FindsWritten otherDepth otherBound fuel first start border found

/-- Behind a written semicolon a run goes on as it did on the new line. -/
theorem BreaksAt.statements_severed {reader border past after : Reader} {last next : Token}
    (breaks : BreaksAt depth reader border last next past after) (deeper : depth ≤ otherDepth)
    (enough : bound ≤ otherBound) {others : List Statement} {final : Reader}
    (run : statements (unit depth) bound fuel (some next) after = .ok (others, final))
    {otherFuel : Nat} (more : fuel ≤ otherFuel) :
    ∃ otherAfter otherFinal, unit otherDepth border.severed = .ok (next.shift 1, otherAfter) ∧
      statements (unit otherDepth) otherBound otherFuel (some (next.shift 1)) otherAfter =
        .ok (others.map (·.shift 1), otherFinal) := by
  obtain ⟨operand, otherAfter, read, twins, same⟩ := breaks.unit_severed deeper
  have runNoted : statements (unit depth) bound fuel (some next) { after with operand := operand } =
      .ok (others, final) := by
    by_cases isBrace : next.kind = .punctuator .braceOpen
    · rw [statements_braced _ _ _ isBrace]
      exact run
    · rw [same isBrace]
      exact run
  have stop : next.span.stop = ({ after with operand := operand } : Reader).position := by
    rw [breaks.after]
    exact (Token.before breaks.read).stop
  obtain ⟨otherFinal, runLater⟩ := statements_later deeper enough stop runNoted twins more
  exact ⟨otherAfter, otherFinal, read, runLater⟩

/-- The line break before the second statement may be written out. -/
theorem MayWrite.here {border past after : Reader} {last next : Token} {make : Nat → Statement}
    (breaks : BreaksAt depth start border last next past after) (deeper : depth ≤ otherDepth)
    (enough : bound ≤ otherBound) (noEnd : first.kind ≠ .eof)
    (written : EndsWritten otherDepth make start border next
      (resumeScanned (unit otherDepth) (statement (unit otherDepth) otherBound first)))
    {others : List Statement} {final : Reader}
    (rest : statements (unit depth) bound fuel (some next) after = .ok (others, final)) :
    MayWrite otherDepth otherBound (fuel + 1) first start border
      (make (border.position + 1) :: others.map (·.shift 1)) where
  leads := breaks.leads
  nonempty := (breaks.alike border.rest).1
  alike := (breaks.alike border.rest).2
  finds := by
    intro seam twin severs twins otherFuel more
    obtain ⟨otherFuel, rfl⟩ := Nat.exists_eq_add_one_of_ne_zero (by omega : otherFuel ≠ 0)
    obtain ⟨otherAfter, otherFinal, read, runOther⟩ :=
      breaks.statements_severed deeper enough rest (Nat.le_of_succ_le_succ more)
    exact ⟨otherFinal,
      statements_cons noEnd (written seam twin otherAfter severs twins read) runOther⟩

/-- A statement is scanned as it is in front of a semicolon that is written behind it. -/
theorem MayWrite.behind {border after : Reader} {next : Token} {statement : Statement}
    (may : MayWrite otherDepth otherBound fuel next after border found) (deeper : depth ≤ otherDepth)
    (enough : bound ≤ otherBound) (stop : first.span.stop = start.position) (noEnd : first.kind ≠ .eof)
    (scanned : resumeScanned (unit depth) (Scan.statement (unit depth) bound first) start =
      .ok ((statement, next), after)) :
    MayWrite otherDepth otherBound (fuel + 1) first start border (statement :: found) where
  leads := by
    obtain ⟨_, _, _, is, -⟩ :=
      (statement_closes deeper enough stop) statement next after scanned
    exact is.leads.trans may.leads
  nonempty := may.nonempty
  alike := may.alike
  finds := by
    intro seam twin severs twins otherFuel more
    obtain ⟨otherFuel, rfl⟩ := Nat.exists_eq_add_one_of_ne_zero (by omega : otherFuel ≠ 0)
    have beyond : seam.left <:+ after.rest := by
      rw [severs.left]
      exact may.leads.suffix
    have closes := statement_closes deeper enough stop
    obtain ⟨twinAfter, scannedOther, twinsAfter⟩ := closes.follows deeper scanned twins beyond
    obtain ⟨otherFinal, runOther⟩ :=
      may.finds seam twinAfter severs twinsAfter otherFuel (Nat.le_of_succ_le_succ more)
    have unmoved : Located.shift statement 0 = statement := Statement.shift_zero statement
    rw [severs.shift, unmoved] at scannedOther
    exact ⟨otherFinal, statements_cons noEnd scannedOther runOther⟩

/-- The question has an answer for each statement of a run, and where a line break ends one a semicolon may
be written. -/
theorem statements_marked (deeper : depth ≤ otherDepth) (enough : bound ≤ otherBound)
    (stands : first.Before start)
    (run : statements (unit depth) bound fuel (some first) start = .ok (found, last)) :
    ∃ marks final, statementsBreaks (unit depth) bound fuel (some first) start = .ok (marks, final) ∧
      marks.length = found.length ∧
        ∀ before statement after, found = before ++ statement :: after →
          marks[before.length]? = some true →
            ∃ border, statement.span.stop = border.position ∧
              MayWrite otherDepth otherBound fuel first start border
                (before ++ statement.withSemicolon :: after.map (·.shift 1)) := by
  induction fuel generalizing start first found with
  | zero => cases run
  | succ fuel ih =>
      rcases statements_cases run with
        ⟨ended, rfl⟩ | ⟨noEnd, less, statement, next, after, others, same, scanned, rest, rfl⟩
      · refine ⟨[], start, ?_, rfl, fun before statement after isFound => ?_⟩
        · rw [statementsBreaks_done _ _ _ ended]
          rfl
        · simp at isFound
      cases same
      obtain ⟨units, place, past, isEnd, -⟩ :=
        statement_ends deeper enough [first] stands noEnd rfl statement next after scanned
      have standsNext := (Token.before isEnd.read).noted isEnd.notes
      obtain ⟨marks, final, askedOthers, length, severs⟩ := ih standsNext rest
      obtain ⟨broken, noted, asked, breaks⟩ :=
        statement_marks deeper enough stands statement next after scanned
      refine ⟨broken :: marks, final, statementsBreaks_cons noEnd asked scanned askedOthers,
        by rw [List.length_cons, List.length_cons, length], ?_⟩
      intro before severed later isFound marked
      -- The semicolon is written behind this statement or behind one of the others.
      cases before with
      | nil =>
          obtain ⟨rfl, rfl⟩ := List.cons.inj isFound
          obtain ⟨border, lastUnit, past, is, rfl, written⟩ := breaks (Option.some.inj marked)
          exact ⟨border, rfl, .here is deeper enough noEnd written rest⟩
      | cons _ before =>
          obtain ⟨rfl, rfl⟩ := List.cons.inj isFound
          obtain ⟨border, stop, may⟩ := severs before severed later rfl marked
          exact ⟨border, stop, may.behind deeper enough stands.stop noEnd scanned⟩

/-! ## Modules -/

/-- Each statement of a module is asked whether a line break ends it. -/
theorem breaks_of_run {text : Text} {token : Token} {past final : Reader} {marks : List Bool}
    (read : unit ((Preamble.mask text).length + 2) (Reader.behindPreamble text) = .ok (token, past))
    (asked : statementsBreaks (unit ((Preamble.mask text).length + 2)) ((Preamble.mask text).length + 2)
      ((Preamble.mask text).length + 2) (some token) past = .ok (marks, final)) :
    Statement.breaks text = marks := by
  have start := (unit_start ((Preamble.mask text).length + 2) text).trans read
  unfold Statement.breaks
  simp only [statementsBreaks_next, bind_of_ok start, asked]

/-- The first unit of a module is read in front of a semicolon that is written behind it. -/
theorem MayWrite.first_read {reader border : Reader}
    (may : MayWrite otherDepth otherBound fuel first start border found) (deeper : depth ≤ otherDepth)
    (read : unit depth reader = .ok (first, start)) (noEnd : first.kind ≠ .eof) {otherFuel : Nat}
    (more : fuel ≤ otherFuel) :
    ∃ passed twin final, reader.Passes passed border ∧ passed ≠ [] ∧
      unit otherDepth { reader with rest := passed ++ ';' :: border.rest } = .ok (first, twin) ∧
        statements (unit otherDepth) otherBound otherFuel (some first) twin = .ok (found, final) := by
  obtain ⟨body, lies⟩ := unit_at read
  obtain ⟨onward, toBorder⟩ := may.leads
  have some : body ≠ [] := fun empty => noEnd (lies.empty.mpr empty)
  have passes := lies.passes.trans toBorder
  let seam : Seam := ⟨border.rest, ';' :: border.rest, 0, fun empty => absurd empty may.nonempty⟩
  let written : Reader := { reader with rest := reader.gap ++ body ++ onward ++ ';' :: border.rest }
  have twins : seam.Twins reader written :=
    Seam.twins_of_passes passes rfl (.inr (.inl may.alike))
  have units : seam.Follows (unit depth) (unit otherDepth) (·.shift 0) := .unit deeper
  have beyond : seam.left <:+ start.rest := may.leads.suffix
  obtain ⟨twin, otherRead, twinsPast⟩ := (units reader first start read).2 written twins beyond
  obtain ⟨final, run⟩ := may.finds seam twin ⟨rfl, rfl, rfl⟩ twinsPast otherFuel more
  exact ⟨_, twin, final, passes, by simp [some], otherRead, run⟩

/-- A semicolon within the code of a module leaves its preamble as it is. -/
theorem behindPreamble_written {text passed rest : Text} {read : Token × Reader}
    (code : (Reader.behindPreamble text).rest = passed ++ rest) (nonempty : passed ≠ [])
    (found : unit depth { Reader.behindPreamble text with rest := passed ++ ';' :: rest } = .ok read) :
    Reader.behindPreamble ((Preamble.cut text).1 ++ (passed ++ ';' :: rest)) =
        { Reader.behindPreamble text with rest := passed ++ ';' :: rest } ∧
      (Preamble.mask ((Preamble.cut text).1 ++ (passed ++ ';' :: rest))).length =
        (Preamble.mask text).length + 1 := by
  have code : (Preamble.cut text).2 = passed ++ rest := code
  have sameHead : (Preamble.cut text).2.head? = (passed ++ ';' :: rest).head? := by
    rw [code]
    cases passed with
    | nil => exact absurd rfl nonempty
    | cons c passed => rfl
  have cut := Preamble.cut_append_congr sameHead (unit_lineMark found)
  refine ⟨by rw [Reader.behindPreamble, cut]; rfl, ?_⟩
  rw [Preamble.mask_eq, Preamble.mask_eq, cut, code]
  simp only [List.length_append, List.length_cons]
  omega

/-- Where a line break ends a statement, a semicolon written at its end leaves the module as it is: the
statement is one byte longer, and all later ones stand one byte later. -/
theorem split_semicolon {text : Text} {before after : List Statement} {statement : Statement}
    (split : Statement.split text = .ok (before ++ statement :: after))
    (broken : (Statement.breaks text)[before.length]? = some true) :
    ∃ front back, text = front ++ back ∧ front.size = statement.span.stop ∧
      Statement.split (front ++ ';' :: back) =
        .ok (before ++ statement.withSemicolon :: after.map (·.shift 1)) := by
  obtain ⟨token, past, last, read, run⟩ := split_runs split
  let depth := (Preamble.mask text).length + 2
  have deeper : depth ≤ depth + 1 := Nat.le_succ depth
  obtain ⟨marks, final, asked, -, severs⟩ :=
    statements_marked deeper deeper (Token.before read) run
  rw [breaks_of_run read asked] at broken
  obtain ⟨border, stop, may⟩ := severs before statement after rfl broken
  have noEnd : token.kind ≠ .eof := by
    rcases statements_cases run with ⟨-, none⟩ | ⟨noEnd, -⟩
    · simp at none
    · exact noEnd
  obtain ⟨passed, twin, otherFinal, passes, nonempty, otherRead, otherRun⟩ :=
    may.first_read deeper read noEnd deeper
  obtain ⟨behind, length⟩ := behindPreamble_written passes.rest nonempty otherRead
  refine ⟨(Preamble.cut text).1 ++ passed, border.rest, ?_, ?_, ?_⟩
  · have code : (Preamble.cut text).2 = passed ++ border.rest := passes.rest
    rw [List.append_assoc, ← code, Preamble.cut_append]
  · rw [stop, passes.position, Text.size_append]
    rfl
  · rw [List.append_assoc]
    exact split_of_run (by rw [length, behind]; exact otherRead) (by rw [length]; exact otherRun)

/-- Behind `return` the slash on the new line begins a regular expression, with and without the semicolon. -/
theorem split_semicolon_return :
    ∃ front back : Text, "import './a'\nif (b) return\n/c/.d\nexport * from './e'".toList = front ++ back ∧
      front.size = 26 ∧ Statement.split (front ++ ';' :: back) =
        .ok [⟨some ⟨.sideEffect, ⟨8, 11⟩⟩, ⟨0, 12⟩⟩, .other ⟨13, 27⟩, .other ⟨28, 33⟩,
          ⟨some ⟨.reExport, ⟨49, 52⟩⟩, ⟨34, 53⟩⟩] := by
  have split : Statement.split "import './a'\nif (b) return\n/c/.d\nexport * from './e'".toList =
      .ok ([⟨some ⟨.sideEffect, ⟨8, 11⟩⟩, ⟨0, 12⟩⟩] ++ .other ⟨13, 26⟩ ::
        [.other ⟨27, 32⟩, ⟨some ⟨.reExport, ⟨48, 51⟩⟩, ⟨33, 52⟩⟩]) := by
    decide +kernel
  have broken : (Statement.breaks "import './a'\nif (b) return\n/c/.d\nexport * from './e'".toList)[1]? =
      some true := by
    decide +kernel
  exact split_semicolon split broken

end Relink
