import Relink.Proofs.Scan.Step
import Relink.Relinking

/-!
# Layout of a module

The statements that a scan finds lie one behind the other: each with its gap before it, the specifier
of a request within the quotes of its text.
-/

set_option autoImplicit false

namespace Relink

open Scan

/-- A piece with its gap at `offset`. -/
structure Piece.LiesAt (offset : Nat) (piece : Piece) : Prop where
  span : piece.statement.span =
    ⟨offset + piece.gap.size, offset + piece.gap.size + piece.body.size⟩
  nonempty : piece.body ≠ []
  quoted : ∀ request, piece.statement.request = some request → ∃ front quote content back,
    QuotedAt piece.statement piece.body request front quote content back

theorem Piece.LiesAt.span_size {before : Text} {piece : Piece} (lies : piece.LiesAt before.size) :
    piece.statement.span =
      ⟨(before ++ piece.gap).size, (before ++ piece.gap).size + piece.body.size⟩ := by
  rw [lies.span, Text.size_append]

/-- A text from `offset` on is made of pieces, with `tail` behind the last of them. -/
inductive Layout : Nat → Text → List Piece → Text → Prop where
  | nil (offset : Nat) (tail : Text) : Layout offset tail [] tail
  | cons {offset : Nat} {piece : Piece} {rest tail : Text} {others : List Piece} :
      piece.LiesAt offset → Layout (offset + piece.gap.size + piece.body.size) rest others tail →
        Layout offset (piece.gap ++ piece.body ++ rest) (piece :: others) tail

def statementsOf (found : List Piece) : List Statement := found.map (·.statement)

/-- A text is cut into the pieces that it is made of. -/
theorem Layout.pieces {offset : Nat} {text tail : Text} {found : List Piece}
    (layout : Layout offset text found tail) :
    pieces offset text (statementsOf found) = (found, tail) := by
  induction layout with
  | nil => rfl
  | @cons offset piece rest tail others lies layout ih =>
      have gap : piece.statement.span.start - offset = piece.gap.size := by
        simp [lies.span]
      have body : piece.statement.span.length = piece.body.size := by
        simp [lies.span, Span.length]
      have stop : piece.statement.span.stop = offset + piece.gap.size + piece.body.size := by
        simp [lies.span]
      simp only [statementsOf, List.map_cons, Relink.pieces, gap, body, stop, List.append_assoc,
        Text.cut_size_append]
      rw [show others.map (·.statement) = statementsOf others from rfl, ih]

/-- Every piece of a layout stands in the text at its place. -/
theorem Layout.at_mem {offset : Nat} {text tail : Text} {parts : List Piece}
    (layout : Layout offset text parts tail) {piece : Piece} (member : piece ∈ parts) :
    ∃ before behind, text = before ++ piece.gap ++ piece.body ++ behind ∧
      piece.LiesAt (offset + before.size) := by
  induction layout with
  | nil => cases member
  | @cons offset first rest tail others lies layout ih =>
      rcases List.mem_cons.mp member with rfl | later
      · exact ⟨[], rest, rfl, lies⟩
      · obtain ⟨before, behind, rfl, lies⟩ := ih later
        refine ⟨first.gap ++ first.body ++ before, behind, by simp only [List.append_assoc], ?_⟩
        simpa only [Text.size_append, Nat.add_assoc] using lies

theorem StatementAt.liesAt {depth otherDepth otherBound : Nat} {border after last past : Reader}
    {operand : Bool} {first next : Token} {found : Statement} {body : Text}
    (is : StepAt depth otherDepth otherBound border operand first found next after body last past) :
    Piece.LiesAt border.position ⟨border.gap, body, found⟩ where
  span := by
    have start := is.start
    have stop := is.stop
    have position := is.passes.position
    rw [Text.size_append] at position
    obtain ⟨request, begins, ends⟩ := found
    simp only [Span.mk.injEq] at start stop ⊢
    omega
  nonempty := is.nonempty
  quoted := by
    intro request isRequest
    obtain ⟨front, quote, content, back, quoted, -⟩ := is.replaced request isRequest
    exact ⟨front, quote, content, back, quoted⟩

/-! ## Runs of the loop -/

/-- A run of the loop over statements, from the border before `first` on: the pieces that it finds
and what stands behind them. -/
inductive Trace (depth otherDepth otherBound : Nat) :
    Reader → Bool → Token → List Piece → Text → Prop where
  | done {border past : Reader} {first : Token} (operand : Bool) :
      unit depth border = .ok (first, past) → first.kind = .eof →
        Trace depth otherDepth otherBound border operand first [] border.rest
  | step {border after last past : Reader} {operand : Bool} {first next : Token} {found : Statement}
      {body tail : Text} {others : List Piece} :
      first.kind ≠ .eof →
        StepAt depth otherDepth otherBound border operand first found next after body last past →
          Trace depth otherDepth otherBound last after.operand next others tail →
            Trace depth otherDepth otherBound border operand first
              (⟨border.gap, body, found⟩ :: others) tail

theorem trace_of_run {depth otherDepth bound otherBound fuel : Nat} (deeper : depth ≤ otherDepth)
    (enough : bound ≤ otherBound) {border past last : Reader} {operand : Bool} {first : Token}
    {found : List Statement} (read : unit depth border = .ok (first, past))
    (run : statements (unit depth) bound fuel (some first) { past with operand := operand } =
      .ok (found, last)) :
    ∃ parts tail, Trace depth otherDepth otherBound border operand first parts tail ∧
      statementsOf parts = found ∧ parts.length < fuel := by
  induction fuel generalizing border past operand first found with
  | zero => cases run
  | succ fuel ih =>
      rcases statements_cases run with
        ⟨ended, rfl⟩ | ⟨noEnd, less, statement, next, after, others, same, scanned, rest, rfl⟩
      · exact ⟨[], border.rest, .done operand read ended, rfl, Nat.zero_lt_succ fuel⟩
      · cases same
        obtain ⟨body, lastBorder, beyond, is⟩ := statement_step deeper enough read noEnd scanned
        rw [is.leaves] at rest
        obtain ⟨parts, tail, trace, rfl, fewer⟩ := ih is.read rest
        exact ⟨_, tail, .step noEnd is trace, rfl, Nat.succ_lt_succ fewer⟩

namespace Trace

variable {depth otherDepth otherBound : Nat} {border : Reader} {operand : Bool} {first : Token}
  {parts : List Piece} {tail : Text}

theorem layout (trace : Trace depth otherDepth otherBound border operand first parts tail) :
    Layout border.position border.rest parts tail := by
  induction trace with
  | @done border _ _ _ _ _ => exact .nil border.position border.rest
  | @step border after last past operand first next found body tail others noEnd is trace ih =>
      have lies := StatementAt.liesAt is
      have position : last.position = border.position + border.gap.size + body.size := by
        rw [is.passes.position, Text.size_append, Nat.add_assoc]
      rw [is.passes.rest]
      rw [position] at ih
      exact .cons lies ih

end Trace

end Relink
