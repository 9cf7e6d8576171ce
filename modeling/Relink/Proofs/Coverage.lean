import Mathlib.Data.List.Forall2
import Relink.Proofs.Scan.Ending.Statement
import Relink.Proofs.Scan.Preamble
import Relink.Proofs.Token.Trivia

/-!
# Coverage

Between the statements of a module stands nothing but whitespace and complete comments, and every unit that
is read belongs to one of them. So no unit that was read past the end of a statement is lost or read
twice.
-/

set_option autoImplicit false

namespace Relink

open Scan

/-- The units of a statement, from its first one to its last one. -/
def Spans (statement : Statement) (units : List Token) : Prop :=
  ∃ first last, units.head? = some first ∧ units.getLast? = some last ∧
    statement.span = ⟨first.span.start, last.span.stop⟩

/-- How statements cover a module: only trivia stands before, between and behind them, and the units that
are read one behind the other, from the start of the module to its end, are those of the first statement,
those of the second one and so on. -/
structure Covered (code : Text) (found : List Statement) : Prop where
  gaps : ∃ parts tail, Layout 0 code parts tail ∧ statementsOf parts = found ∧
    (∀ piece ∈ parts, Trivia.IsTrivia false piece.gap) ∧ Trivia.IsTrivia true tail
  units : ∃ groups last, Units (Reader.start code) groups.flatten last ∧
    Trivia.IsTrivia true last.rest ∧ List.Forall₂ Spans found groups

/-- Statements with the groups of their units, where `holds` of each statement, its units and the unit
behind them, if there is any. -/
inductive Grouped (holds : Statement → List Token → Option Token → Prop) :
    List Statement → List (List Token) → Prop where
  | nil : Grouped holds [] []
  | cons {statement : Statement} {units : List Token} {found : List Statement}
      {groups : List (List Token)} : holds statement units groups.flatten.head? →
        Grouped holds found groups → Grouped holds (statement :: found) (units :: groups)

theorem Grouped.forall₂ {holds : Statement → List Token → Prop} {found : List Statement}
    {groups : List (List Token)}
    (grouped : Grouped (fun statement units _ => holds statement units) found groups) :
    List.Forall₂ holds found groups := by
  induction grouped with
  | nil => exact .nil
  | cons isHeld _ ih => exact .cons isHeld ih

/-! ## Gaps -/

section Gaps

variable {depth otherDepth otherBound : Nat} {border past : Reader} {token : Token}

theorem StatementAt.gap {after last : Reader} {next : Token} {found : Statement} {body : Text}
    (is : StatementAt depth border found next after body last past) :
    Trivia.IsTrivia false border.gap := by
  have trivia := Trivia.skip_isTrivia border.rest
  have whole := is.passes.rest
  rw [List.append_assoc] at whole
  have behind : (Trivia.skip border.rest).rest = body ++ last.rest :=
    List.append_cancel_left ((Trivia.skip_append border.rest).trans whole)
  have goesOn : (Trivia.skip border.rest).rest.isEmpty = false := by
    simp [behind, is.nonempty]
  rwa [goesOn] at trivia

theorem Trace.gaps {operand : Bool} {parts : List Piece} {tail : Text}
    (trace : Trace depth otherDepth otherBound border operand token parts tail) :
    (∀ piece ∈ parts, Trivia.IsTrivia false piece.gap) ∧ Trivia.IsTrivia true tail := by
  induction trace with
  | done operand read ended => exact ⟨nofun, Trivia.isTrivia_of_skip (unit_ends read ended)⟩
  | step noEnd is trace ih =>
      refine ⟨fun piece member => ?_, ih.2⟩
      rcases List.mem_cons.mp member with rfl | later
      · exact is.toStatementAt.gap
      · exact ih.1 piece later

end Gaps

/-! ## Units -/

section Statements

variable {depth bound fuel : Nat} {border past start after last : Reader} {first next : Token}

theorem Units.spans {units : List Token} {stop : Reader} {found : Statement}
    (whole : Units border (first :: units) stop) (start : found.span.start = first.span.start)
    (stops : found.span.stop = stop.position) : Spans found (first :: units) := by
  obtain ⟨final, isLast⟩ : ∃ final, (first :: units).getLast? = some final :=
    Option.isSome_iff_exists.mp (by simp)
  refine ⟨first, final, rfl, isLast, ?_⟩
  rw [(whole.before_last isLast).stop, ← stops, ← start]

/-- How the first statement behind `border` is read: its units up to the next border, and the unit behind
that. -/
structure ReadTo (depth : Nat) (border : Reader) (units : List Token) (next : Token) (after : Reader)
    (stop behind : Reader) : Prop where
  units : Units border units stop
  read : unit depth stop = .ok (next, behind)
  notes : behind.Notes after

/-- A statement spans its first unit and those behind it up to the border where it ends. -/
theorem StopsAt.reads {found : Statement} {units : List Token} {stop behind : Reader}
    (is : StopsAt depth start found.span.stop next after units stop behind)
    (read : unit depth border = .ok (first, past)) (notes : past.Notes start)
    (run : resumeScanned (unit depth) (statement (unit depth) bound first) start =
      .ok ((found, next), after)) :
    ReadTo depth border (first :: units) next after stop behind ∧ Spans found (first :: units) := by
  have starts : found.span.start = first.span.start :=
    (statement_requests (Nat.le_refl depth) (Nat.le_refl bound) start first found next after run).1
  have whole : Units border (first :: units) stop := .cons (.refl border) read (is.units.behind notes)
  exact ⟨⟨whole, is.read, is.notes⟩, whole.spans starts is.stop⟩

/-- One statement reads its first unit and those behind it up to the next border. -/
theorem statement_units {found : Statement} (read : unit depth border = .ok (first, past))
    (noEnd : first.kind ≠ .eof) (notes : past.Notes start)
    (run : resumeScanned (unit depth) (statement (unit depth) bound first) start =
      .ok ((found, next), after)) :
    ∃ units stop behind, ReadTo depth border (first :: units) next after stop behind ∧
      Spans found (first :: units) := by
  have stands := (Token.before read).noted notes
  have ends := statement_ends (Nat.le_refl depth) (Nat.le_refl bound) [first] stands noEnd rfl
  obtain ⟨units, stop, behind, is, -⟩ := ends found next after run
  exact ⟨units, stop, behind, is.stopsAt.reads read notes run⟩

/-- The units of a run, in the groups of its statements: what each statement comes to holds of it, its
units and the unit behind them. -/
theorem groups_of_run (holds : Statement → List Token → Option Token → Prop) {origin : Reader}
    (each : ∀ {border past start after first next found}, origin.Leads border →
      unit depth border = .ok (first, past) → first.kind ≠ .eof → past.Notes start →
        resumeScanned (unit depth) (statement (unit depth) bound first) start =
            .ok ((found, next), after) →
          ∃ units stop behind, ReadTo depth border (first :: units) next after stop behind ∧
            holds found (first :: units) next.orEnd)
    {found : List Statement} (leads : origin.Leads border)
    (read : unit depth border = .ok (first, past)) (notes : past.Notes start)
    (run : statements (unit depth) bound fuel (some first) start = .ok (found, last)) :
    ∃ groups final, Units border groups.flatten final ∧ (Trivia.skip final.rest).rest = [] ∧
      Grouped holds found groups ∧ groups.flatten.head? = first.orEnd := by
  -- The unit behind a statement is read already; the run goes on from the border before it.
  induction fuel generalizing border past start first found with
  | zero => cases run
  | succ fuel ih =>
      rcases statements_cases run with
        ⟨ended, rfl⟩ | ⟨noEnd, less, statement, next, after, others, same, scanned, rest, rfl⟩
      · exact ⟨[], border, .refl border, unit_ends read ended, .nil, by simp [Token.orEnd, ended]⟩
      · cases same
        obtain ⟨units, stop, behind, reads, isHeld⟩ := each leads read noEnd notes scanned
        obtain ⟨groups, final, more, ended, grouped, isNext⟩ :=
          ih (leads.trans reads.units.leads) reads.read reads.notes rest
        exact ⟨(first :: units) :: groups, final, reads.units.append more, ended,
          .cons (isNext ▸ isHeld) grouped, by simp [Token.orEnd, noEnd]⟩

theorem units_of_run {found : List Statement} (read : unit depth border = .ok (first, past))
    (notes : past.Notes start)
    (run : statements (unit depth) bound fuel (some first) start = .ok (found, last)) :
    ∃ groups final, Units border groups.flatten final ∧ (Trivia.skip final.rest).rest = [] ∧
      List.Forall₂ Spans found groups := by
  obtain ⟨groups, final, chain, ended, grouped, -⟩ :=
    groups_of_run (fun statement units _ => Spans statement units) (fun _ => statement_units)
      (.refl border) read notes run
  exact ⟨groups, final, chain, ended, grouped.forall₂⟩

end Statements

/-! ## Modules -/

theorem Units.ofCode {text : Text} {tokens : List Token} {last : Reader}
    (units : Units (Reader.behindPreamble text) tokens last)
    (ended : (Trivia.skip last.rest).rest = []) :
    ∃ final, Units (Reader.start (Preamble.mask text)) tokens final ∧
      (Trivia.skip final.rest).rest = [] := by
  cases units with
  | nil notes =>
      refine ⟨_, .refl _, ?_⟩
      rw [notes.rest] at ended
      show (Trivia.skip (Preamble.mask text)).rest = []
      rw [Preamble.mask_eq, Trivia.skip_spaces]
      exact ended
  | @cons depth _ noted after _ token tokens notes read units =>
      obtain rfl : noted = Reader.behindPreamble text :=
        notes.resolve_right fun group => nomatch group.1
      have moved := unit_spaces depth (Preamble.cut text).1.size (Preamble.cut text).2 0 true
        (.punctuator .semicolon)
      rw [← Preamble.mask_eq, Nat.zero_add] at moved
      exact ⟨last, .cons (.refl _) (moved.trans read) units, ended⟩

/-- The gaps of a masked module: its preamble is spaces before the first statement. -/
theorem gaps_of_split {text : Text} {found : List Statement}
    (split : Statement.split text = .ok found) :
    ∃ parts tail, Layout 0 (Preamble.mask text) parts tail ∧ statementsOf parts = found ∧
      (∀ piece ∈ parts, Trivia.IsTrivia false piece.gap) ∧ Trivia.IsTrivia true tail := by
  obtain ⟨first, past, last, read, run⟩ := split_runs split
  obtain ⟨parts, tail, trace, rfl, -⟩ := trace_of_run (Nat.le_refl _) (Nat.le_refl _) read run
  obtain ⟨gaps, tailTrivia⟩ := trace.gaps
  have layout : Layout (Preamble.cut text).1.size (Preamble.cut text).2 parts tail := trace.layout
  let spaces := List.replicate (Preamble.cut text).1.size ' '
  have code : Preamble.mask text = spaces ++ (Preamble.cut text).2 := Preamble.mask_eq text
  cases parts with
  | nil =>
      obtain rfl : (Preamble.cut text).2 = tail := congrArg Prod.snd layout.pieces
      exact ⟨[], _, .nil 0 _, rfl, nofun, code ▸ tailTrivia.spaces _⟩
  | cons piece others =>
      have offset : (Preamble.cut text).1.size = 0 + Text.size spaces := by
        rw [Preamble.size_spaces, Nat.zero_add]
      rw [offset] at layout
      refine ⟨behindFront spaces (piece :: others), tail, code ▸ layout.behindFront, rfl,
        fun part member => ?_, tailTrivia⟩
      rcases List.mem_cons.mp member with rfl | later
      · exact (gaps piece (List.mem_cons_self ..)).spaces _
      · exact gaps part (List.mem_cons_of_mem _ later)

/-- The statements of a module cover it. -/
theorem split_covers {text : Text} {found : List Statement}
    (split : Statement.split text = .ok found) : Covered (Preamble.mask text) found := by
  refine ⟨gaps_of_split split, ?_⟩
  obtain ⟨first, past, last, read, run⟩ := split_runs split
  obtain ⟨groups, final, chain, ended, spans⟩ := units_of_run read (.refl past) run
  obtain ⟨finalCode, units, endedCode⟩ := chain.ofCode ended
  exact ⟨groups, finalCode, units, Trivia.isTrivia_of_skip endedCode, spans⟩

/-- Units that are read past the ends of statements: the `else` and what stands behind it. -/
theorem split_covers_conditional :
    ∃ found, Statement.split "#! a\nif (b) c\nelse d // e\nimport './f'".toList = .ok found ∧
      Covered (Preamble.mask "#! a\nif (b) c\nelse d // e\nimport './f'".toList) found := by
  have split : Statement.split "#! a\nif (b) c\nelse d // e\nimport './f'".toList =
      .ok [.other ⟨5, 20⟩, ⟨some ⟨.sideEffect, ⟨34, 37⟩⟩, ⟨26, 38⟩⟩] := by
    decide +kernel
  exact ⟨_, split, split_covers split⟩

end Relink
