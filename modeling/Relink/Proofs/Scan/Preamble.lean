import Relink.Proofs.Scan.Layout
import Relink.Proofs.Scan.Space

/-!
# Preambles

A byte order mark and a `#!` line are read as spaces, so a scan begins behind them at the same offset.
They are found again in front of every text that begins alike behind them, unless that begins with such
a line itself.
-/

set_option autoImplicit false

namespace Relink

open Scan

namespace Preamble

/-- The first characters of a `#!` line. -/
def lineMark : Text := "#!".toList

/-- A leading `#!` line and what stands behind it. -/
def cutLine (text : Text) : Text × Text :=
  if lineMark.isPrefixOf text then Token.spanWhile (· != '\n') text else ([], text)

/-- A leading byte order mark and a `#!` line, and what stands behind them. -/
def cut : Text → Text × Text
  | '\uFEFF' :: rest => ('\uFEFF' :: (cutLine rest).1, (cutLine rest).2)
  | text => cutLine text

theorem cut_line {text : Text} (noMark : text.head? ≠ some '\uFEFF') : cut text = cutLine text := by
  unfold cut
  split
  · exact absurd rfl noMark
  · rfl

theorem cut_mark (rest : Text) :
    cut ('\uFEFF' :: rest) = ('\uFEFF' :: (cutLine rest).1, (cutLine rest).2) := rfl

theorem cutLine_append (text : Text) : (cutLine text).1 ++ (cutLine text).2 = text := by
  unfold cutLine
  split
  · exact List.takeWhile_append_dropWhile
  · rfl

theorem cut_append (text : Text) : (cut text).1 ++ (cut text).2 = text := by
  unfold cut
  split
  · rw [List.cons_append, cutLine_append]
  · exact cutLine_append text

theorem maskHashbang_eq (text : Text) :
    maskHashbang text = List.replicate (cutLine text).1.size ' ' ++ (cutLine text).2 := by
  unfold maskHashbang cutLine lineMark
  split <;> simp [Token.spanWhile]

/-- A masked text begins with a space for every byte of its preamble. -/
theorem mask_eq (text : Text) : mask text = List.replicate (cut text).1.size ' ' ++ (cut text).2 := by
  by_cases marked : text.head? = some '\uFEFF'
  · obtain ⟨rest, rfl⟩ := Token.eq_cons_of_head? marked
    have three : Char.utf8Size '\uFEFF' = 3 := by decide
    have masked : mask ('\uFEFF' :: rest) = List.replicate 3 ' ' ++ maskHashbang rest := rfl
    rw [masked, maskHashbang_eq, cut_mark, Text.size_cons, three, ← List.append_assoc,
      List.replicate_append_replicate]
  · rw [cut_line marked, ← maskHashbang_eq]
    unfold mask
    split
    · exact absurd rfl marked
    · rfl

/-- The preamble of a text is found again before what begins alike behind it. -/
theorem cutLine_append_congr {text other : Text} (same : (cutLine text).2.head? = other.head?)
    (noLine : lineMark.isPrefixOf other = false) :
    cutLine ((cutLine text).1 ++ other) = ((cutLine text).1, other) := by
  by_cases line : lineMark.isPrefixOf text = true
  · have found : cutLine text = Token.spanWhile (· != '\n') text := by simp [cutLine, line]
    rw [found] at same ⊢
    have again := ((Token.stops_dropWhile (· != '\n') text).congr same).spanWhile text
    have marked : lineMark.isPrefixOf (text.takeWhile (· != '\n') ++ other) = true := by
      obtain ⟨rest, rfl⟩ := List.isPrefixOf_iff_prefix.mp line
      rfl
    exact (if_pos marked).trans again
  · have found : cutLine text = ([], text) := by simp [cutLine, line]
    rw [found, List.nil_append]
    simp [cutLine, noLine]

theorem cut_append_congr {text other : Text} (same : (cut text).2.head? = other.head?)
    (noLine : lineMark.isPrefixOf other = false) :
    cut ((cut text).1 ++ other) = ((cut text).1, other) := by
  by_cases marked : text.head? = some '\uFEFF'
  · obtain ⟨rest, rfl⟩ := Token.eq_cons_of_head? marked
    rw [cut_mark] at same ⊢
    rw [List.cons_append, cut_mark, cutLine_append_congr same noLine]
  · rw [cut_line marked] at same ⊢
    have noMark : ((cutLine text).1 ++ other).head? ≠ some '\uFEFF' := by
      rw [← Text.head?_append_congr _ same, cutLine_append]
      exact marked
    rw [cut_line noMark, cutLine_append_congr same noLine]

theorem cutLine_noLine (text : Text) : lineMark.isPrefixOf (cutLine text).2 = false := by
  unfold cutLine
  split
  · cases behind : (Token.spanWhile (· != '\n') text).2 with
    | nil => rfl
    | cons c rest =>
        have stops : Token.Stops (· != '\n') (c :: rest) := by
          rw [← behind]
          exact Token.stops_dropWhile _ text
        have isBreak : c = '\n' := by simpa using stops c rfl
        rw [isBreak]
        rfl
  · rename_i noLine
    exact Bool.eq_false_iff.mpr noLine

/-- No `#!` line is left behind a preamble. -/
theorem cut_noLine (text : Text) : lineMark.isPrefixOf (cut text).2 = false := by
  unfold cut
  split
  · exact cutLine_noLine _
  · exact cutLine_noLine _

/-- A text goes on otherwise, with a character that is no part of a `#!`. -/
theorem noLine_append_congr {middle tail other : Text} {c : Char}
    (noLine : lineMark.isPrefixOf (middle ++ tail) = false) (first : tail.head? = some c)
    (otherFirst : other.head? = some c) (noMark : c ≠ '#') :
    lineMark.isPrefixOf (middle ++ other) = false := by
  obtain ⟨more, rfl⟩ := Token.eq_cons_of_head? first
  obtain ⟨otherMore, rfl⟩ := Token.eq_cons_of_head? otherFirst
  match middle with
  | [] => simp [lineMark, List.isPrefixOf, noMark.symm]
  | [d] => simpa [lineMark, List.isPrefixOf] using noLine
  | d :: e :: rest => simpa [lineMark, List.isPrefixOf] using noLine

/-- Behind a preamble a text may go on otherwise. -/
theorem mask_behind_congr {preamble middle tail other : Text} {c : Char}
    (isCut : cut (preamble ++ (middle ++ tail)) = (preamble, middle ++ tail)) (first : tail.head? = some c)
    (otherFirst : other.head? = some c) (noMark : c ≠ '#') :
    mask (preamble ++ (middle ++ other)) = List.replicate preamble.size ' ' ++ (middle ++ other) := by
  have before := cut_noLine (preamble ++ (middle ++ tail))
  rw [isCut] at before
  have noLine := noLine_append_congr before first otherFirst noMark
  have same : (cut (preamble ++ (middle ++ tail))).2.head? = (middle ++ other).head? := by
    rw [isCut]
    exact Text.head?_append_congr middle (first.trans otherFirst.symm)
  have again := cut_append_congr same noLine
  rw [isCut] at again
  rw [mask_eq, again]

/-- What begins with no space may go on otherwise where it is read, whatever the preamble is. -/
theorem mask_append_congr {front tail other passed : Text} {c : Char} (first : tail.head? = some c)
    (otherFirst : other.head? = some c) (noSpace : c ≠ ' ') (noMark : c ≠ '#')
    (masked : mask (front ++ tail) = passed ++ tail) : mask (front ++ other) = passed ++ other := by
  cases parts : cut (front ++ tail) with
  | mk preamble code =>
      have whole := cut_append (front ++ tail)
      rw [mask_eq] at masked
      rw [parts] at whole masked
      -- The preamble ends in the common front. Behind it, the text would begin with a masked space.
      rcases List.append_eq_append_iff.mp whole with ⟨middle, rfl, rfl⟩ | ⟨middle, rfl, rfl⟩
      · rw [List.append_assoc] at parts ⊢
        rw [← List.append_assoc] at masked
        rw [mask_behind_congr parts first otherFirst noMark, ← List.append_assoc,
          List.append_cancel_right masked]
      · cases middle with
        | nil =>
            simp only [List.append_nil, List.nil_append] at parts masked first
            have again := @mask_behind_congr front [] code other c parts first otherFirst noMark
            rw [List.append_cancel_right masked] at again
            exact again
        | cons d middle =>
            rw [← List.append_assoc] at masked
            have spaces := List.append_cancel_right masked
            have space : d ∈ passed ++ d :: middle := by simp
            rw [← spaces] at space
            obtain rfl : d = c := Option.some.inj first
            exact absurd (List.eq_of_mem_replicate space) noSpace

theorem cut_none {text : Text} (noMark : text.head? ≠ some '\uFEFF')
    (noLine : lineMark.isPrefixOf text = false) : cut text = ([], text) := by
  rw [cut_line noMark, cutLine, noLine]
  rfl

/-- A preamble ends before a line break behind it. -/
theorem cutLine_break (text behind : Text) :
    cutLine (text ++ '\n' :: behind) = ((cutLine text).1, (cutLine text).2 ++ '\n' :: behind) := by
  have line : lineMark.isPrefixOf (text ++ '\n' :: behind) = lineMark.isPrefixOf text := by
    match text with
    | [] => rfl
    | [c] => simp [lineMark, List.isPrefixOf]
    | c :: d :: rest => rfl
  unfold cutLine
  rw [line]
  split
  · have stops : Token.Stops (· != '\n') ('\n' :: behind) := by simp [Token.Stops]
    rw [Token.spanWhile, Token.takeWhile_append_of_stops stops, Token.dropWhile_append_of_stops stops]
    rfl
  · rfl

theorem cut_break (text behind : Text) :
    cut (text ++ '\n' :: behind) = ((cut text).1, (cut text).2 ++ '\n' :: behind) := by
  by_cases marked : text.head? = some '\uFEFF'
  · obtain ⟨rest, rfl⟩ := Token.eq_cons_of_head? marked
    rw [List.cons_append, cut_mark, cut_mark, cutLine_break]
  · have noMark : (text ++ '\n' :: behind).head? ≠ some '\uFEFF' := by
      cases text with
      | nil => simp
      | cons c rest => exact marked
    rw [cut_line noMark, cut_line marked, cutLine_break]

end Preamble

/-! ## Scanning behind a preamble -/

/-- The reader behind the preamble of a module. -/
def Reader.behindPreamble (text : Text) : Reader :=
  ⟨(Preamble.cut text).2, (Preamble.cut text).1.size, true, .punctuator .semicolon⟩

theorem Reader.behindPreamble_finish (text : Text) :
    (Reader.behindPreamble text).finish = text.size := by
  rw [← Preamble.cut_append text, Text.size_append, Preamble.cut_append]
  rfl

namespace Scan

theorem unit_space_alone (fuel : Nat) (reader : Reader) (rest : Text)
    (split : reader.rest = ' ' :: rest) :
    unit fuel reader = unit fuel (reader.advance [' '] rest) := by
  have same : Token.behindSpace ' ' = id := rfl
  rw [unit_space (c := ' ') rfl fuel split, same, id_map]

/-- Spaces before a unit only move it. -/
theorem unit_spaces (fuel count : Nat) (rest : Text) (position : Nat) (operand : Bool)
    (previous : Kind) :
    unit fuel ⟨List.replicate count ' ' ++ rest, position, operand, previous⟩ =
      unit fuel ⟨rest, position + count, operand, previous⟩ := by
  induction count generalizing position with
  | zero => rfl
  | succ count ih =>
      rw [unit_space_alone fuel _ (List.replicate count ' ' ++ rest) rfl]
      have moved : position + (count + 1) = position + 1 + count := by omega
      rw [moved]
      exact ih (position + 1)

/-- A statement does not ask whether it stands on a new line. -/
theorem statement_behindSpace (inner : Scan Token) (bound : Nat) (c : Char) (first : Token) :
    statement inner bound (first.behindSpace c) = statement inner bound first := by
  cases bound with
  | zero => rfl
  | succ bound => rfl

theorem statements_behindSpace (inner : Scan Token) (bound fuel : Nat) (c : Char) (first : Token) :
    statements inner bound fuel (some (first.behindSpace c)) = statements inner bound fuel (some first) := by
  cases fuel with
  | zero => rfl
  | succ fuel =>
      simp only [statements, pendingOr, pure_bind, statement_behindSpace]
      rfl

/-- A space or a line break before a module only moves it. -/
theorem moduleStatements_space {c : Char} (space : Trivia.isFaultSpace c = true) (bound : Nat)
    {reader : Reader} {rest : Text} (split : reader.rest = c :: rest) :
    moduleStatements bound reader = moduleStatements bound (reader.advance [c] rest) := by
  have first := unit_space space (bound + 2) split
  have loop : (fun first => statements (unit (bound + 2)) (bound + 2) (bound + 2)
        (some (Token.behindSpace c first))) =
      fun first => statements (unit (bound + 2)) (bound + 2) (bound + 2) (some first) :=
    funext fun first => statements_behindSpace ..
  unfold moduleStatements
  rw [statements_next]
  calc (unit (bound + 2) >>= fun first => _) reader
      = ((Token.behindSpace c <$> unit (bound + 2)) >>= fun first =>
          statements (unit (bound + 2)) (bound + 2) (bound + 2) (some first))
            (reader.advance [c] rest) := bind_run_congr first _
    _ = (unit (bound + 2) >>= fun first =>
          statements (unit (bound + 2)) (bound + 2) (bound + 2) (some first))
            (reader.advance [c] rest) := by
        rw [bind_map_left, loop]

/-- The first unit of a module is read behind its preamble. -/
theorem unit_start (fuel : Nat) (text : Text) :
    unit fuel (Reader.start (Preamble.mask text)) = unit fuel (Reader.behindPreamble text) := by
  rw [Preamble.mask_eq, Reader.start, unit_spaces, Nat.zero_add]
  rfl

/-- What is scanned of a module lies behind its preamble. -/
theorem moduleStatements_eq (bound : Nat) (text : Text) :
    moduleStatements bound (Reader.start (Preamble.mask text)) =
      moduleStatements bound (Reader.behindPreamble text) := by
  simp only [moduleStatements, statements_next]
  exact bind_run_congr (unit_start (bound + 2) text) _

end Scan

theorem Preamble.size_spaces (count : Nat) : Text.size (List.replicate count ' ') = count := by
  induction count with
  | zero => rfl
  | succ count ih =>
      rw [List.replicate_succ, Text.size_cons, ih, Nat.add_comm]
      rfl

theorem Preamble.size_mask (text : Text) : (Preamble.mask text).size = text.size := by
  rw [Preamble.mask_eq, Text.size_append, size_spaces, ← Text.size_append, Preamble.cut_append]

abbrev Scan.moduleRun (text : Text) : Except Halt (List Statement × Reader) :=
  moduleStatements (Preamble.mask text).length (Reader.behindPreamble text)

/-- The statements of a module are those behind its preamble. -/
theorem split_eq_ok_iff {text : Text} {found : List Statement} :
    Statement.split text = .ok found ↔ ∃ last, Scan.moduleRun text = .ok (found, last) := by
  unfold Statement.split Scan.moduleRun
  rw [← moduleStatements_eq]
  simp only
  constructor
  · intro split
    split at split
    · cases split
      exact ⟨_, by assumption⟩
    · cases split
    · cases split
  · rintro ⟨last, run⟩
    rw [run]

/-- A fault of a module is one of the scan behind its preamble, or lies at the end. -/
theorem split_eq_error {text : Text} {fault : SyntaxFault}
    (split : Statement.split text = .error fault) :
    Scan.moduleRun text = .error (.faulty fault) ∨ fault.span = ⟨text.size, text.size⟩ := by
  unfold Statement.split at split
  unfold Scan.moduleRun
  rw [← moduleStatements_eq]
  simp only at split
  split at split
  · cases split
  · cases split
    exact .inl (by assumption)
  · cases split
    rw [Preamble.size_mask]
    exact .inr rfl

/-! ## Layout of a module -/

/-- A `#!` line is read only at the start of a module. -/
theorem Token.lex_lineMark (mode : Token.Mode) (rest : Text) :
    Token.lex mode ('#' :: '!' :: rest) = .error .privateNameExpected := by
  have solid : Trivia.Solid ('#' :: '!' :: rest) :=
    Trivia.solid_cons (by decide) fun slash => absurd slash (by decide)
  rw [Token.lex, show Trivia.skip _ = _ from solid]
  cases mode <;> rfl

theorem Scan.unit_lineMark {fuel : Nat} {reader : Reader} {read : Token × Reader}
    (found : unit fuel reader = .ok read) : Preamble.lineMark.isPrefixOf reader.rest = false := by
  cases marked : Preamble.lineMark.isPrefixOf reader.rest with
  | false => rfl
  | true =>
      obtain ⟨rest, starts⟩ := List.isPrefixOf_iff_prefix.mp marked
      cases fuel with
      | zero => cases found
      | succ fuel =>
          rw [unit, unitOver_run] at found
          obtain ⟨token, after, tokenRead, -⟩ := bind_eq_ok found
          obtain ⟨lexed, isLexed, -⟩ := token_eq_ok tokenRead
          rw [← starts, Preamble.lineMark] at isLexed
          have clash := (Token.lex_lineMark _ rest).symm.trans isLexed
          cases clash

/-- Pieces behind a preamble, which belongs to the gap before the first of them. -/
def behindFront (front : Text) : List Piece → List Piece
  | [] => []
  | piece :: others => { piece with gap := front ++ piece.gap } :: others

theorem Piece.LiesAt.behindFront {offset : Nat} {piece : Piece} {front : Text}
    (lies : piece.LiesAt (offset + front.size)) :
    Piece.LiesAt offset { piece with gap := front ++ piece.gap } where
  span := by rw [lies.span, Text.size_append, Nat.add_assoc]
  nonempty := lies.nonempty
  quoted := lies.quoted

theorem Layout.behindFront {offset : Nat} {text front tail : Text} {piece : Piece}
    {others : List Piece} (layout : Layout (offset + front.size) text (piece :: others) tail) :
    Layout offset (front ++ text) (Relink.behindFront front (piece :: others)) tail := by
  cases layout with
  | @cons _ _ rest _ _ lies others =>
      have size : offset + (front ++ piece.gap).size + piece.body.size =
          offset + front.size + piece.gap.size + piece.body.size := by
        rw [Text.size_append, ← Nat.add_assoc offset]
      have text : front ++ (piece.gap ++ piece.body ++ rest) =
          front ++ piece.gap ++ piece.body ++ rest := by simp only [List.append_assoc]
      rw [text]
      apply Layout.cons lies.behindFront
      rw [size]
      exact others

/-- A module that is split has a first unit behind its preamble, from which the loop runs. -/
theorem split_runs {text : Text} {found : List Statement} (split : Statement.split text = .ok found) :
    ∃ first past last,
      unit ((Preamble.mask text).length + 2) (Reader.behindPreamble text) = .ok (first, past) ∧
        statements (unit ((Preamble.mask text).length + 2)) ((Preamble.mask text).length + 2)
          ((Preamble.mask text).length + 2) (some first) { past with operand := past.operand } =
            .ok (found, last) := by
  obtain ⟨last, run⟩ := split_eq_ok_iff.mp split
  unfold Scan.moduleRun moduleStatements at run
  rw [statements_next] at run
  obtain ⟨first, past, read, run⟩ := bind_eq_ok run
  exact ⟨first, past, last, read, run⟩

/-- A module is split by the run of the loop from its first unit on. -/
theorem split_of_run {text : Text} {found : List Statement} {first : Token} {past last : Reader}
    (read : unit ((Preamble.mask text).length + 2) (Reader.behindPreamble text) = .ok (first, past))
    (run : statements (unit ((Preamble.mask text).length + 2)) ((Preamble.mask text).length + 2)
      ((Preamble.mask text).length + 2) (some first) past = .ok (found, last)) :
    Statement.split text = .ok found := by
  refine split_eq_ok_iff.mpr ⟨last, ?_⟩
  unfold Scan.moduleRun moduleStatements
  rw [statements_next]
  exact (bind_of_ok read _).trans run

/-- The statements of a module lie one behind the other behind its preamble. -/
theorem code_layout_of_split {text : Text} {found : List Statement}
    (split : Statement.split text = .ok found) :
    ∃ parts tail, Layout (Preamble.cut text).1.size (Preamble.cut text).2 parts tail ∧
      statementsOf parts = found := by
  obtain ⟨first, past, last, read, run⟩ := split_runs split
  obtain ⟨parts, tail, trace, rfl, -⟩ :=
    trace_of_run (Nat.le_refl _) (Nat.le_refl _) read run
  exact ⟨parts, tail, trace.layout, rfl⟩

/-- A preamble belongs to the gap before the first statement. -/
theorem Layout.ofCode {text tail : Text} {piece : Piece} {others : List Piece}
    (layout : Layout (Preamble.cut text).1.size (Preamble.cut text).2 (piece :: others) tail) :
    Layout 0 text (Relink.behindFront (Preamble.cut text).1 (piece :: others)) tail := by
  have starts : (Preamble.cut text).1.size = 0 + (Preamble.cut text).1.size := (Nat.zero_add _).symm
  rw [starts] at layout
  have whole := layout.behindFront
  rwa [Preamble.cut_append] at whole

/-- The statements of a module lie one behind the other from its start on. -/
theorem layout_of_split {text : Text} {found : List Statement}
    (split : Statement.split text = .ok found) :
    ∃ parts tail, Layout 0 text parts tail ∧ statementsOf parts = found := by
  obtain ⟨parts, tail, layout, rfl⟩ := code_layout_of_split split
  cases parts with
  | nil => exact ⟨[], text, .nil 0 text, rfl⟩
  | cons piece others => exact ⟨_, tail, layout.ofCode, rfl⟩

end Relink
