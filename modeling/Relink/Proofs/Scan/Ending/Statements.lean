import Relink.Proofs.Scan.Ending.Statement
import Relink.Proofs.Scan.Layout

/-!
# Endings of runs

A run of the loop passes over the units of its statements. If it ends behind a semicolon and another text
joins there, the loop finds the same statements and goes on with those of the other text.
-/

set_option autoImplicit false

namespace Relink

open Scan

variable {depth otherDepth bound otherBound fuel : Nat} {start last : Reader} {first : Token}
  {found : List Statement}

/-- How a run ends behind `units`, at `place`. -/
structure RunEnds (start : Reader) (found : List Statement) (units : List Token) (place : Reader) :
    Prop where
  units : Units start units place
  noEnd : place.previous ≠ .eof
  ended : (Trivia.skip place.rest).rest = []
  stop : found.getLast?.map (·.span.stop) = some place.position

/-- Where a text joins that begins with no unit, a run fails as the unit does. -/
def RunFails (otherDepth otherBound : Nat) (first : Token) (start place : Reader) (count : Nat) : Prop :=
  ∀ (join : Join place) twin, join.Meets start twin → ∀ halt, unit otherDepth join.place = .error halt →
    ∀ otherFuel, statements (unit otherDepth) otherBound (count + otherFuel + 1)
      (some (first.shift join.shift)) twin = .error halt

/-- Where another text joins behind a semicolon a run goes on with the statements of that text. -/
def RunGoesOn (otherDepth otherBound : Nat) (first : Token) (start : Reader) (found : List Statement)
    (place : Reader) : Prop :=
  ∀ (join : Join place) twin, join.Meets start twin → ∀ next beyond,
    unit otherDepth join.place = .ok (next, beyond) → next.isKeyword .elseWord = false →
      ∀ otherFuel others final,
        statements (unit otherDepth) otherBound otherFuel (some next) beyond = .ok (others, final) →
          statements (unit otherDepth) otherBound (found.length + otherFuel)
              (some (first.shift join.shift)) twin =
            .ok (found.map (·.shift join.shift) ++ others, final)

theorem statements_cons {inner : Scan Token} {reader middle : Reader} {statement : Statement}
    {next : Token} {others : List Statement} (noEnd : first.kind ≠ .eof)
    (scanned : resumeScanned inner (Scan.statement inner bound first) reader =
      .ok ((statement, next), middle))
    (rest : statements inner bound fuel (some next) middle = .ok (others, last)) :
    statements inner bound (fuel + 1) (some first) reader = .ok (statement :: others, last) := by
  cases fuel with
  | zero => cases rest
  | succ fuel =>
      rw [statements_more _ _ _ noEnd]
      refine (bind_of_ok scanned _).trans ?_
      exact bind_of_ok rest _

/-- A run that fails at a statement, or behind it. -/
theorem statements_of_error {inner : Scan Token} {reader : Reader} {halt : Halt}
    (noEnd : first.kind ≠ .eof)
    (failed : resumeScanned inner (Scan.statement inner bound first) reader = .error halt ∨
      ∃ statement next middle,
        resumeScanned inner (Scan.statement inner bound first) reader = .ok ((statement, next), middle) ∧
        statements inner bound (fuel + 1) (some next) middle = .error halt) :
    statements inner bound (fuel + 2) (some first) reader = .error halt := by
  rw [statements_more _ _ _ noEnd]
  rcases failed with here | ⟨statement, next, middle, scanned, later⟩
  · exact bind_of_error here _
  · exact (bind_of_ok scanned _).trans (bind_of_error later _)

section Joined

variable {place border after : Reader} {next : Token} {statement : Statement} {others : List Statement}
  {units later : List Token} {valued : Prop}

/-- The scan of a statement that begins `distance` later, beside a join. -/
abbrev ScannedBeside (otherDepth otherBound : Nat) (first : Token) (distance : Nat) : Scan (Statement × Token) :=
  resumeScanned (unit otherDepth) (Scan.statement (unit otherDepth) otherBound (first.shift distance))

theorem RunGoesOn.single (noEnd : first.kind ≠ .eof) (isValued : valued)
    (goesOn : GoesOn otherDepth valued start place statement (ScannedBeside otherDepth otherBound first)) :
    RunGoesOn otherDepth otherBound first start [statement] place := by
  intro join twin meets other beyond read noElse otherFuel more final otherRun
  have scanned := goesOn join twin meets fun token middle again => by
    rw [read] at again
    cases again
    exact ⟨noElse, isValued⟩
  rw [read] at scanned
  rw [List.length_singleton, Nat.add_comm]
  exact statements_cons noEnd scanned otherRun

theorem RunFails.single (noEnd : first.kind ≠ .eof)
    (goesOn : GoesOn otherDepth valued start place statement (ScannedBeside otherDepth otherBound first)) :
    RunFails otherDepth otherBound first start place 1 := by
  intro join twin meets halt failed otherFuel
  have scanned := goesOn join twin meets fun token middle again => by
    rw [failed] at again
    cases again
  rw [failed] at scanned
  rw [Nat.add_comm 1]
  exact statements_of_error noEnd (.inl scanned)

variable (deeper : depth ≤ otherDepth) (noEnd : first.kind ≠ .eof)
  (closing : Closes depth otherDepth first.kind.closesText start
    (resumeScanned (unit depth) (Scan.statement (unit depth) bound first)) (ScannedBeside otherDepth otherBound first))
  (scanned : resumeScanned (unit depth) (Scan.statement (unit depth) bound first) start = .ok ((statement, next), after))
  (toPlace : Units after later place) (semicolon : place.previous = .punctuator .semicolon)

include deeper noEnd closing scanned toPlace semicolon

theorem RunGoesOn.cons (goesOn : RunGoesOn otherDepth otherBound next after others place) :
    RunGoesOn otherDepth otherBound first start (statement :: others) place := by
  intro join twin meets other beyond read noElse otherFuel more final otherRun
  obtain ⟨twinAfter, scannedOther, meetsAfter⟩ := meets.closes deeper closing scanned toPlace semicolon
  have rest := goesOn join twinAfter meetsAfter other beyond read noElse otherFuel more final otherRun
  rw [List.length_cons, Nat.add_right_comm]
  exact statements_cons noEnd scannedOther rest

theorem RunFails.cons {count : Nat} (fails : RunFails otherDepth otherBound next after place count) :
    RunFails otherDepth otherBound first start place (count + 1) := by
  intro join twin meets halt failed otherFuel
  obtain ⟨twinAfter, scannedOther, meetsAfter⟩ := meets.closes deeper closing scanned toPlace semicolon
  have rest := fails join twinAfter meetsAfter halt failed otherFuel
  rw [Nat.add_right_comm count 1 otherFuel]
  have noEndOther : (first.shift join.shift).kind ≠ .eof := noEnd
  exact statements_of_error noEndOther (.inr ⟨_, _, _, scannedOther, rest⟩)

end Joined

theorem statements_joins (deeper : depth ≤ otherDepth) (enough : bound ≤ otherBound)
    (stands : first.Before start) (noEnd : first.kind ≠ .eof)
    (run : statements (unit depth) bound fuel (some first) start = .ok (found, last)) :
    ∃ units place, RunEnds start found units place ∧
      (place.previous = .punctuator .semicolon →
        (¬ Unvalued (first :: units) → RunGoesOn otherDepth otherBound first start found place) ∧
          RunFails otherDepth otherBound first start place found.length) := by
  induction fuel generalizing start first found with
  | zero => cases run
  | succ fuel ih =>
      rcases statements_cases run with
        ⟨ended, -⟩ | ⟨-, less, statement, next, after, others, same, scanned, rest, rfl⟩
      · exact absurd ended noEnd
      cases same
      obtain ⟨units, border, past, is, goesOn⟩ :=
        statement_ends deeper enough [first] stands noEnd rfl statement next after scanned
      rcases statements_cases rest with
        ⟨ended, rfl⟩ | ⟨goesPast, -, second, -, -, more, -, -, -, rfl⟩
      · refine ⟨units, border, ⟨is.units, is.noEnd, unit_ends is.read ended, congrArg some is.stop⟩,
          fun semicolon => ⟨fun valued => ?_, ?_⟩⟩
        · exact .single noEnd valued (goesOn semicolon)
        · exact .single noEnd (goesOn semicolon)
      · obtain ⟨later, place, isPlace, beyondPlace⟩ :=
          ih ((Token.before is.read).noted is.notes) goesPast rest
        have chain : Units border (next :: later) place :=
          .cons (.refl border) is.read (isPlace.units.behind is.notes)
        have closing := statement_closes deeper enough stands.stop
        refine ⟨units ++ next :: later, place,
          ⟨is.units.append chain, isPlace.noEnd, isPlace.ended, isPlace.stop⟩,
          fun semicolon => ⟨fun valued => ?_, ?_⟩⟩
        · have unvalued : ¬ Unvalued (next :: later) := fun isValue =>
            valued (isValue.behind (first :: units))
          exact ((beyondPlace semicolon).1 unvalued).cons deeper noEnd closing scanned isPlace.units semicolon
        · exact (beyondPlace semicolon).2.cons deeper noEnd closing scanned isPlace.units semicolon

theorem statements_ends (deeper : depth ≤ otherDepth) (enough : bound ≤ otherBound)
    (stands : first.Before start) (noEnd : first.kind ≠ .eof)
    (run : statements (unit depth) bound fuel (some first) start = .ok (found, last)) :
    ∃ units place, RunEnds start found units place ∧
      (place.previous = .punctuator .semicolon → ¬ Unvalued (first :: units) →
        RunGoesOn otherDepth otherBound first start found place) := by
  obtain ⟨units, place, ends, beyond⟩ := statements_joins deeper enough stands noEnd run
  exact ⟨units, place, ends, fun semicolon => (beyond semicolon).1⟩

/-! ## Runs that begin later -/

/-- A run that begins later finds the same statements later. -/
theorem statements_later (deeper : depth ≤ otherDepth) (enough : bound ≤ otherBound)
    (stop : first.span.stop = start.position)
    (run : statements (unit depth) bound fuel (some first) start = .ok (found, last)) {distance : Nat}
    {twin : Reader} (twins : (Seam.later distance).Twins start twin) {otherFuel : Nat}
    (more : fuel ≤ otherFuel) :
    ∃ final, statements (unit otherDepth) otherBound otherFuel (some (first.shift distance)) twin =
      .ok (found.map (·.shift distance), final) := by
  induction fuel generalizing start first found twin otherFuel with
  | zero => cases run
  | succ fuel ih =>
      obtain ⟨otherFuel, rfl⟩ := Nat.exists_eq_add_one_of_ne_zero (by omega : otherFuel ≠ 0)
      rcases statements_cases run with
        ⟨ended, rfl⟩ | ⟨noEnd, less, statement, next, after, others, same, scanned, rest, rfl⟩
      · rw [statements_done _ _ _ (show (first.shift distance).kind = .eof from ended)]
        exact ⟨twin, rfl⟩
      · cases same
        have closes := statement_closes deeper enough stop
        obtain ⟨twinAfter, scannedOther, twinsAfter⟩ :=
          closes.follows deeper scanned twins (List.nil_suffix)
        obtain ⟨passed, border, past, is, -⟩ := closes statement next after scanned
        have stopNext : next.span.stop = after.position := by
          rw [is.after]
          exact (Token.before is.read).stop
        obtain ⟨final, restOther⟩ := ih stopNext rest twinsAfter (Nat.le_of_succ_le_succ more)
        exact ⟨final, statements_cons noEnd scannedOther restOther⟩

end Relink
