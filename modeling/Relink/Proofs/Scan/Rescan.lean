import Relink.Proofs.Scan.Preamble

/-!
# Scanning a module again

Where pieces are put together again, some with another specifier and some behind a line break, the
same statements are found: each is moved by what is put before it and grows with its specifier.
-/

set_option autoImplicit false

namespace Relink

open Scan

/-! ## Treated pieces -/

/-- The text of a piece, once it is treated. -/
def newBody (entry : Piece × Treatment) : Text := entry.2.newText?.getD entry.1.body

/-- How much longer a treated piece is. -/
def growth (entry : Piece × Treatment) : Nat := (newBody entry).size - entry.1.body.size

/-- A piece gets no new text but that of its request with a longer content of its quotes. -/
def Respecified (entry : Piece × Treatment) : Prop :=
  ∀ newText, entry.2.newText? = some newText →
    ∃ request, entry.1.statement.request = some request ∧
      ∀ front quote content back,
        QuotedAt entry.1.statement entry.1.body request front quote content back →
          ∃ otherContent, Token.IsPlain quote otherContent ∧ content.Sublist otherContent ∧
            newText = front ++ Token.quoted quote otherContent ++ back

/-- The statements of treated pieces, where `distance` is how much was put before them. -/
def relocate (options : Options) : Bool → Nat → List (Piece × Treatment) → List Statement
  | _, _, [] => []
  | isFirst, distance, entry :: rest =>
    let here := distance + (lineBreak options isFirst entry.1.gap).size
    (entry.1.statement.grow (growth entry)).shift here ::
      relocate options false (here + growth entry) rest

theorem size_sublist {part whole : Text} (within : part.Sublist whole) : part.size ≤ whole.size := by
  induction within with
  | slnil => exact Nat.le_refl 0
  | cons c _ ih => exact Nat.le_trans ih (Nat.le_add_left ..)
  | cons_cons c _ ih => exact Nat.add_le_add_left ih _

variable {depth otherDepth otherBound : Nat}

theorem Respecified.rescans {border after last past : Reader} {operand : Bool} {first next : Token}
    {found : Statement} {body : Text} {treatment : Treatment}
    (is : StepAt depth otherDepth otherBound border operand first found next after body last past)
    (respecified : Respecified (⟨border.gap, body, found⟩, treatment)) :
    Rescans otherDepth otherBound border operand first found next after body last
      (growth (⟨border.gap, body, found⟩, treatment))
      (newBody (⟨border.gap, body, found⟩, treatment)) := by
  cases changed : treatment.newText? with
  | none =>
      have same : newBody (⟨border.gap, body, found⟩, treatment) = body := by
        simp only [newBody, changed, Option.getD_none]
      have none : growth (⟨border.gap, body, found⟩, treatment) = 0 := by
        simp only [growth, same, Nat.sub_self]
      rw [same, none]
      exact is.kept
  | some newText =>
      obtain ⟨request, isRequest, respecifies⟩ := respecified newText changed
      obtain ⟨front, quote, content, back, quoted, replaced⟩ := is.replaced request isRequest
      obtain ⟨otherContent, plain, within, rfl⟩ := respecifies front quote content back quoted
      have other : newBody (⟨border.gap, body, found⟩, treatment) =
          front ++ Token.quoted quote otherContent ++ back := by
        simp only [newBody, changed, Option.getD_some]
      have longer := size_sublist within
      have size := congrArg Text.size quoted.body
      have otherSize := congrArg Text.size other
      simp only [Text.size_append, size_quoted quoted.isQuote] at size otherSize
      have more : otherContent.size =
          content.size + growth (⟨border.gap, body, found⟩, treatment) := by
        simp only [growth]
        omega
      rw [other]
      exact replaced _ otherContent plain more

/-! ## The text behind a border -/

theorem unit_moved (deeper : depth ≤ otherDepth) {reader after : Reader} {token : Token}
    (read : unit depth reader = .ok (token, after)) (distance : Nat) :
    ∃ otherAfter, unit otherDepth { reader with position := reader.position + distance } =
      .ok (token.shift distance, otherAfter) := by
  have units : (Seam.later distance).Follows (unit depth) (unit otherDepth) (·.shift distance) :=
    .unit deeper
  obtain ⟨otherAfter, otherRead, -⟩ :=
    (units reader token after read).2 _ (Seam.later_twins reader distance) List.nil_suffix
  exact ⟨otherAfter, otherRead⟩

section Behind

variable {options : Options} {last past : Reader} {operand : Bool} {next : Token}
  {others : List Piece} {tail : Text} {treated : List (Piece × Treatment)}

/-- The text behind a border ends where it is put together again only if it ended before. -/
theorem Trace.ends (trace : Trace depth otherDepth otherBound last operand next others tail)
    (covers : treated.map Prod.fst = others) (ended : last.rest = []) :
    reassemble options false treated ++ tail = [] := by
  cases trace with
  | done operand read isEnd =>
      rw [List.map_eq_nil_iff] at covers
      rw [covers, ended]
      rfl
  | step noEnd is trace =>
      have whole := is.passes.rest
      rw [ended] at whole
      have nothing := (List.append_eq_nil_iff.mp whole.symm).1
      exact absurd (List.append_eq_nil_iff.mp nothing).2 is.nonempty

/-- Behind a border that is marked on this side, the text put together again begins alike. -/
theorem Trace.alike (trace : Trace depth otherDepth otherBound last operand next others tail)
    (covers : treated.map Prod.fst = others) (read : unit depth last = .ok (next, past))
    (mark : next.onNewLine = true ∨ next.kind = .eof) :
    Text.Alike last.rest (reassemble options false treated ++ tail) := by
  cases trace with
  | done operand read isEnd =>
      rw [List.map_eq_nil_iff] at covers
      rw [covers]
      exact .refl last.rest
  | @step _ after behind _ _ _ _ found body _ more noEnd is trace =>
      have newLine : next.onNewLine = true := mark.resolve_right noEnd
      obtain ⟨nextBody, lies⟩ := unit_at read
      have gap : last.gap ≠ [] := Trivia.skip_chars_ne_nil (lies.onNewLine.symm.trans newLine)
      obtain ⟨entry, later, rfl, isPiece, -⟩ := List.map_eq_cons_iff.mp covers
      obtain ⟨piece, treatment⟩ := entry
      cases isPiece
      have noBreak : lineBreak options false last.gap = [] := by
        simp [lineBreak, gap]
      rw [is.passes.rest]
      simp only [reassemble, noBreak, List.nil_append, List.append_assoc]
      exact Text.alike_append gap (Trivia.skip_chars_ne_point last.rest) _ _

end Behind

/-! ## Line breaks between statements -/

/-- Behind a line break a unit begins a statement as it does without it. -/
theorem unit_behindBreak (options : Options) (isFirst : Bool) (gap : Text) {fuel position : Nat}
    {text : Text} {operand : Bool} {previous : Kind} {token : Token} {after : Reader}
    (read : unit fuel ⟨text, position + (lineBreak options isFirst gap).size, operand, previous⟩ =
      .ok (token, after)) :
    ∃ other, unit fuel ⟨lineBreak options isFirst gap ++ text, position, operand, previous⟩ =
        .ok (other, after) ∧
      token.Resembles other ∧
      ∀ inner bound, statement inner bound other = statement inner bound token := by
  unfold lineBreak at read ⊢
  split at read
  · rename_i apart
    simp only [apart, if_true]
    refine ⟨token.behindSpace '\n', ?_, ⟨rfl, rfl, fun _ => rfl⟩, fun inner bound => ?_⟩
    · have space := unit_space (c := '\n') rfl fuel
        (show Reader.rest ⟨'\n' :: text, position, operand, previous⟩ = '\n' :: text from rfl)
      apply space.trans
      rw [map_run]
      exact congrArg (Except.map _) read
    · exact statement_behindSpace inner bound '\n' token
  · rename_i together
    simp only [together]
    exact ⟨token, read, ⟨rfl, rfl, id⟩, fun _ _ => rfl⟩

/-! ## Runs of the loop -/

/-- Where a run's pieces are put together again, the loop finds the same statements, moved. -/
theorem Trace.rescans {border : Reader} {operand : Bool} {first : Token} {parts : List Piece}
    {tail : Text} (trace : Trace depth otherDepth otherBound border operand first parts tail)
    (deeper : depth ≤ otherDepth) (options : Options) (isFirst : Bool) (distance : Nat)
    {treated : List (Piece × Treatment)} (covers : treated.map Prod.fst = parts)
    (respecified : ∀ entry ∈ treated, Respecified entry) :
    ∃ otherFirst otherPast,
      unit otherDepth ⟨reassemble options isFirst treated ++ tail, border.position + distance,
          border.operand, border.previous⟩ = .ok (otherFirst, otherPast) ∧
        first.Resembles otherFirst ∧
        ∀ otherFuel, parts.length < otherFuel → ∃ otherLast,
          statements (unit otherDepth) otherBound otherFuel (some otherFirst)
              { otherPast with operand := operand } =
            .ok (relocate options isFirst distance treated, otherLast) := by
  induction trace generalizing isFirst distance treated with
  | @done border past first operand read ended =>
      rw [List.map_eq_nil_iff] at covers
      subst covers
      obtain ⟨otherPast, otherRead⟩ := unit_moved deeper read distance
      refine ⟨first.shift distance, otherPast, otherRead, .shift first distance, ?_⟩
      intro otherFuel enough
      obtain ⟨fuel, rfl⟩ := Nat.exists_eq_add_one_of_ne_zero (Nat.ne_of_gt enough)
      rw [statements_done _ _ _ (show (first.shift distance).kind = .eof from ended)]
      exact ⟨_, rfl⟩
  | @step border after last past operand first next found body tail others noEnd is trace ih =>
      obtain ⟨entry, treatedOthers, rfl, isPiece, coversOthers⟩ := List.map_eq_cons_iff.mp covers
      obtain ⟨piece, treatment⟩ := entry
      cases isPiece
      let here := distance + (lineBreak options isFirst border.gap).size
      let grown := growth (⟨border.gap, body, found⟩, treatment)
      have rescanned := (respecified _ (List.mem_cons_self ..)).rescans is
      obtain ⟨otherNext, otherPast, otherRead, resembles, others'⟩ :=
        ih false (here + grown) coversOthers
          fun entry member => respecified entry (List.mem_cons_of_mem _ member)
      have fits : Text.Alike last.rest (reassemble options false treatedOthers ++ tail) ∨
          Text.Sealed (border.gap ++ body) := by
        rcases is.mark with newLine | ended | closed
        · exact .inl (trace.alike coversOthers is.read (.inl newLine))
        · exact .inl (trace.alike coversOthers is.read (.inr ended))
        · exact .inr closed
      obtain ⟨otherMiddle, otherFirst, scanned⟩ := rescanned _ here otherNext otherPast
        (trace.ends coversOthers) fits otherRead resembles
      have moved : border.position + distance + (lineBreak options isFirst border.gap).size =
          border.position + here := Nat.add_assoc ..
      rw [← moved] at otherFirst
      obtain ⟨behindBreak, breakRead, sameFirst, sameStatement⟩ :=
        unit_behindBreak options isFirst border.gap otherFirst
      refine ⟨behindBreak, otherMiddle, ?_, ?_, ?_⟩
      · simpa only [reassemble, newBody, List.append_assoc] using breakRead
      · exact ⟨sameFirst.kind, sameFirst.lexeme, sameFirst.onNewLine⟩
      · intro otherFuel enough
        obtain ⟨fuel, rfl⟩ : ∃ fuel, otherFuel = fuel + 2 :=
          ⟨otherFuel - 2, by simp only [List.length_cons] at enough; omega⟩
        obtain ⟨otherLast, rest⟩ := others' (fuel + 1)
          (Nat.lt_of_succ_lt_succ enough)
        have goesOn : behindBreak.kind ≠ .eof := by
          rw [sameFirst.kind]
          exact noEnd
        rw [statements_more _ _ _ goesOn, sameStatement]
        refine ⟨otherLast, (bind_of_ok scanned _).trans ?_⟩
        refine (bind_of_ok rest _).trans ?_
        rfl

/-! ## Texts put together again -/

section Reassembled

variable {offset : Nat} {piece : Piece} {treatment : Treatment}

/-- A treated piece has another specifier in the place of its own, or its own text. -/
theorem Respecified.newBody_cases (respecified : Respecified (piece, treatment))
    (lies : piece.LiesAt offset) :
    newBody (piece, treatment) = piece.body ∨
      ∃ front quote content otherContent back, piece.body = front ++ Token.quoted quote content ++ back ∧
        newBody (piece, treatment) = front ++ Token.quoted quote otherContent ++ back ∧
        content.Sublist otherContent := by
  cases changed : treatment.newText? with
  | none => exact .inl (by simp only [newBody, changed, Option.getD_none])
  | some newText =>
      obtain ⟨request, isRequest, respecifies⟩ := respecified newText changed
      obtain ⟨front, quote, content, back, quoted⟩ := lies.quoted request isRequest
      obtain ⟨otherContent, -, within, rfl⟩ := respecifies front quote content back quoted
      exact .inr ⟨front, quote, content, otherContent, back, quoted.body,
        by simp only [newBody, changed, Option.getD_some], within⟩

theorem Respecified.sublist (respecified : Respecified (piece, treatment))
    (lies : piece.LiesAt offset) : piece.body.Sublist (newBody (piece, treatment)) := by
  rcases respecified.newBody_cases lies with same | ⟨front, quote, content, other, back, own, new, within⟩
  · exact same.symm ▸ List.Sublist.refl piece.body
  · rw [own, new, Token.quoted, Token.quoted]
    have inner : (quote :: content ++ [quote]).Sublist (quote :: other ++ [quote]) :=
      (within.cons_cons quote).append (.refl _)
    exact ((List.Sublist.refl front).append inner).append (.refl back)

theorem Respecified.head? (respecified : Respecified (piece, treatment))
    (lies : piece.LiesAt offset) (rest other : Text) :
    (piece.body ++ rest).head? = (newBody (piece, treatment) ++ other).head? := by
  rcases respecified.newBody_cases lies with same | ⟨front, quote, content, _, back, own, new, -⟩
  · rw [same]
    obtain ⟨c, more, shape⟩ := List.exists_cons_of_ne_nil lies.nonempty
    rw [shape]
    rfl
  · rw [own, new, Token.quoted, Token.quoted]
    cases front <;> rfl

/-- A text is all there where its pieces are put together again. -/
theorem Layout.sublist {options : Options} {isFirst : Bool} {text tail : Text} {parts : List Piece}
    (layout : Layout offset text parts tail) {treated : List (Piece × Treatment)}
    (covers : treated.map Prod.fst = parts) (respecified : ∀ entry ∈ treated, Respecified entry) :
    text.Sublist (reassemble options isFirst treated ++ tail) := by
  induction layout generalizing isFirst treated with
  | nil offset tail =>
      rw [List.map_eq_nil_iff] at covers
      rw [covers]
      exact .refl tail
  | @cons offset piece rest tail others lies layout ih =>
      obtain ⟨entry, more, rfl, isPiece, coversOthers⟩ := List.map_eq_cons_iff.mp covers
      obtain ⟨piece', treatment⟩ := entry
      cases isPiece
      have first := (respecified _ (List.mem_cons_self ..)).sublist lies
      have later : rest.Sublist (reassemble options false more ++ tail) :=
        ih coversOthers fun entry member => respecified entry (List.mem_cons_of_mem _ member)
      simp only [reassemble, List.append_assoc]
      refine List.Sublist.trans ?_ (List.sublist_append_right ..)
      exact (List.Sublist.refl _).append (first.append later)

/-- Where pieces are put together again, the text begins as it did. -/
theorem Layout.head?_reassemble {options : Options} {text tail : Text} {parts : List Piece}
    (layout : Layout offset text parts tail) {treated : List (Piece × Treatment)}
    (covers : treated.map Prod.fst = parts) (respecified : ∀ entry ∈ treated, Respecified entry) :
    text.head? = (reassemble options true treated ++ tail).head? := by
  cases layout with
  | nil =>
      rw [List.map_eq_nil_iff] at covers
      rw [covers]
      rfl
  | @cons _ piece rest _ others lies layout =>
      obtain ⟨entry, more, rfl, isPiece, -⟩ := List.map_eq_cons_iff.mp covers
      obtain ⟨piece', treatment⟩ := entry
      cases isPiece
      have same := (respecified _ (List.mem_cons_self ..)).head? lies
      have noBreak : lineBreak options true piece'.gap = [] := rfl
      have body : treatment.newText?.getD piece'.body = newBody (piece', treatment) := rfl
      simp only [reassemble, noBreak, body, List.nil_append, List.append_assoc]
      exact Text.head?_append_congr piece'.gap (same rest _)

end Reassembled

/-! ## Modules -/

theorem split_code {text tail : Text} {found : List Statement} {parts : List Piece}
    (split : Statement.split text = .ok found)
    (layout : Layout (Preamble.cut text).1.size (Preamble.cut text).2 parts tail)
    (statements : statementsOf parts = found) (options : Options)
    {treated : List (Piece × Treatment)} (covers : treated.map Prod.fst = parts)
    (respecified : ∀ entry ∈ treated, Respecified entry) :
    Statement.split ((Preamble.cut text).1 ++ (reassemble options true treated ++ tail)) =
      .ok (relocate options true 0 treated) := by
  obtain ⟨first, past, last, read, run⟩ := split_runs split
  let code := reassemble options true treated ++ tail
  have longer : (Preamble.cut text).2.length ≤ code.length :=
    (layout.sublist covers respecified).length_le
  have maskLength : (Preamble.mask text).length =
      (Preamble.cut text).1.size + (Preamble.cut text).2.length := by
    rw [Preamble.mask_eq, List.length_append, List.length_replicate]
  -- A module is scanned with as many steps as it has characters, and the new text has no fewer of them.
  let bound := (Preamble.cut text).1.size + code.length + 2
  have enough : (Preamble.mask text).length + 2 ≤ bound := by
    simp only [bound, maskLength]
    omega
  obtain ⟨sameParts, sameTail, trace, sameFound, fewer⟩ := trace_of_run enough enough read run
  have same : (sameParts, sameTail) = (parts, tail) := by
    rw [← trace.layout.pieces, ← layout.pieces, sameFound, statements]
    rfl
  cases same
  obtain ⟨otherFirst, otherPast, otherRead, resembles, rest⟩ :=
    trace.rescans enough options true 0 covers respecified
  obtain ⟨otherLast, otherRun⟩ := rest bound (Nat.lt_of_lt_of_le fewer enough)
  have operand : past.operand = otherPast.operand := by
    obtain ⟨body, lies⟩ := unit_at read
    obtain ⟨otherBody, otherLies⟩ := unit_at otherRead
    rw [lies.operand, otherLies.operand, resembles.kind]
  rw [operand] at otherRun
  have head : (Preamble.cut text).2.head? = code.head? :=
    layout.head?_reassemble covers respecified
  have noLine : Preamble.lineMark.isPrefixOf code = false := unit_lineMark otherRead
  have front := Preamble.cut_append_congr head noLine
  have otherLength : (Preamble.mask ((Preamble.cut text).1 ++ code)).length + 2 = bound := by
    rw [Preamble.mask_eq, front, List.length_append, List.length_replicate]
  refine split_eq_ok_iff.mpr ⟨otherLast, ?_⟩
  unfold Scan.moduleRun moduleStatements
  rw [otherLength, statements_next, Reader.behindPreamble, front]
  exact (bind_of_ok otherRead _).trans otherRun

/-- A module whose pieces are put together again is split into the same statements, moved. -/
theorem split_reassemble {text : Text} {found : List Statement}
    (split : Statement.split text = .ok found) (options : Options)
    {treated : List (Piece × Treatment)} (covers : treated.map Prod.fst = (pieces 0 text found).1)
    (respecified : ∀ entry ∈ treated, Respecified entry) :
    Statement.split (reassemble options true treated ++ (pieces 0 text found).2) =
      .ok (relocate options true 0 treated) := by
  obtain ⟨parts, tail, layout, same⟩ := code_layout_of_split split
  cases parts with
  | nil =>
      subst same
      rw [show treated = [] from List.map_eq_nil_iff.mp covers]
      exact split
  | cons piece others =>
      have whole : pieces 0 text found = (behindFront (Preamble.cut text).1 (piece :: others), tail) := by
        rw [← layout.ofCode.pieces, ← same]
        rfl
      rw [whole] at covers ⊢
      obtain ⟨entry, more, rfl, isPiece, coversOthers⟩ := List.map_eq_cons_iff.mp covers
      obtain ⟨first, treatment⟩ := entry
      cases isPiece
      -- The preamble is taken out of the first gap again.
      have inCode : ∀ entry ∈ (piece, treatment) :: more, Respecified entry := by
        intro entry member
        rcases List.mem_cons.mp member with rfl | later
        · have own := respecified _ (List.mem_cons_self ..)
          exact own
        · exact respecified entry (List.mem_cons_of_mem _ later)
      have coversCode : ((piece, treatment) :: more).map Prod.fst = piece :: others := by
        rw [List.map_cons, coversOthers]
      have again := split_code split layout same options coversCode inCode
      have noBreak : ∀ gap, lineBreak options true gap = [] := fun _ => rfl
      simp only [reassemble, noBreak, List.nil_append, List.append_assoc] at again ⊢
      exact again

end Relink
