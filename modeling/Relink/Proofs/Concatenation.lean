import Mathlib.Data.List.Infix
import Relink.Proofs.Scan.Ending.Statements
import Relink.Proofs.Scan.Rescan
import Relink.Proofs.Token.Trivia

/-!
# Concatenation

A module that ends with a semicolon is split as before when another one follows behind a line break: first
come its own statements, then those of the other module, moved. Only an `export default` does not end with
the semicolon behind it, which is its value, and an `else` belongs to what stands before it.
-/

set_option autoImplicit false

namespace Relink

open Scan

/-- The last units of a module are an `export default` and its value, a semicolon. -/
def EndsUnvalued (text : Text) : Prop :=
  ∃ units last, Units (Reader.behindPreamble text) units last ∧
    (Trivia.skip last.rest).rest = [] ∧ Unvalued units

theorem EndsUnvalued.length {text : Text} (unvalued : EndsUnvalued text) :
    3 ≤ (Preamble.cut text).2.length := by
  obtain ⟨units, last, chain, -, isValue⟩ := unvalued
  have three : [.keyword .exportWord, .keyword .defaultWord, .punctuator .semicolon].countP
      (· != Kind.eof) ≤ (units.map (·.kind)).countP (· != .eof) :=
    isValue.sublist.countP_le
  exact three.trans chain.countP_le

/-! ## The last character -/

/-- Behind a semicolon that is the last character that was read, a semicolon was the last unit. -/
theorem Units.previous_of_last {reader last : Reader} {tokens : List Token}
    (units : Units reader tokens last) (nonempty : tokens ≠ []) (noEnd : last.previous ≠ .eof)
    {before front : Text} (ends : before ++ reader.rest = front ++ ';' :: last.rest) :
    last.previous = .punctuator .semicolon := by
  have final := List.getLast?_eq_some_getLast nonempty
  obtain ⟨depth, noted, after, ⟨passed, passes⟩, read, later⟩ := units.last_read final
  obtain ⟨body, lies⟩ := unit_at read
  rw [later.previous] at noEnd ⊢
  have goesOn : body ≠ [] := fun empty => by
    rw [lies.previous, lies.empty.mpr empty] at noEnd
    exact noEnd rfl
  have whole : before ++ passed ++ noted.gap ++ body = front ++ [';'] := by
    rw [passes.rest, lies.passes.rest, later.rest] at ends
    have cut : before ++ passed ++ noted.gap ++ body ++ after.rest = front ++ [';'] ++ after.rest := by
      simpa only [List.append_assoc, List.cons_append, List.nil_append] using ends
    exact List.append_cancel_right cut
  have split := List.dropLast_concat_getLast goesOn
  rw [← split, ← List.append_assoc] at whole
  obtain ⟨-, isLast⟩ := List.append_inj' whole rfl
  have passes : noted.Passes (noted.gap ++ (body.dropLast ++ [';'])) after := by
    rw [← isLast, split]
    exact lies.passes
  rw [lies.previous, unit_of_last_semicolon read passes]
  rfl

/-! ## Behind a line break -/

/-- Trivia and a line break before a unit put it on a new line. -/
theorem unit_behindTrivia {depth position : Nat} {front text : Text} {operand : Bool} {previous : Kind}
    {token : Token} {after : Reader} (nothing : (Trivia.skip front).rest = [])
    (read : unit depth ⟨text, position + (front ++ ['\n']).size, operand, previous⟩ =
      .ok (token, after)) :
    unit depth ⟨front ++ '\n' :: text, position, operand, previous⟩ =
      .ok (token.behindSpace '\n', after) := by
  let reader : Reader := ⟨front ++ '\n' :: text, position, operand, previous⟩
  let other : Reader := ⟨text, position + (front ++ ['\n']).size, operand, previous⟩
  obtain ⟨-, first, middle, -, -, -, tokenRun, -⟩ := unit_run read
  obtain ⟨found, lexed, rfl, rfl⟩ := token_eq_ok tokenRun
  have lexedOther : Token.lex reader.mode text = .ok found := lexed
  have again := Token.lex_break nothing reader.mode text
  rw [lexedOther] at again
  have behind : Scan.token reader.mode reader = .ok _ := token_of_lex again
  have same : Scan.token reader.mode reader =
      (Token.behindSpace '\n' <$> Scan.token reader.mode) other := by
    have otherRun : Scan.token reader.mode other = .ok (other.tokenOf found, other.past found) := tokenRun
    rw [map_run, otherRun, behind]
    simp [Except.map, Reader.tokenOf, Reader.past, Reader.advance, Token.behindSpace, reader, other,
      Nat.add_assoc]
  have moved : unit depth reader = (Token.behindSpace '\n' <$> unit depth) other :=
    unit_behindSpace depth rfl rfl same
  have otherRead : unit depth other = .ok (token, after) := read
  rw [map_run, otherRead] at moved
  exact moved

theorem plainKind_eq_keyword {before kind : Kind} {word : Keyword}
    (same : plainKind before kind = .keyword word) : kind = .keyword word := by
  rcases plainKind_cases before kind with plain | ⟨-, isName⟩
  · exact plain.symm.trans same
  · rw [isName] at same
    cases same

theorem lex_of_unit_keyword {depth : Nat} {reader after : Reader} {token : Token} {word : Keyword}
    (read : unit depth reader = .ok (token, after)) (isWord : token.kind = .keyword word) :
    ∃ found, Token.lex reader.mode reader.rest = .ok found ∧
      found.lexeme.kind = .keyword word := by
  obtain ⟨inner, first, middle, whole, behind, last, tokenRun, operandRun, groupRun, -⟩ := unit_run read
  obtain ⟨found, lexed, rfl, rfl⟩ := token_eq_ok tokenRun
  have kind := plainKind_eq_keyword ((foldGroup_kind groupRun).symm.trans isWord)
  refine ⟨found, lexed, ?_⟩
  obtain ⟨rfl, -⟩ := foldOperand_same operandRun (by rw [kind]; nofun) (by rw [kind]; nofun)
  exact kind

/-! ## Modules -/

def Reader.followedBy (reader : Reader) (more : Text) : Reader :=
  { reader with rest := reader.rest ++ more }

theorem Reader.behindPreamble_break (first second : Text) :
    Reader.behindPreamble (first ++ '\n' :: second) =
      (Reader.behindPreamble first).followedBy ('\n' :: second) := by
  simp only [Reader.behindPreamble, Reader.followedBy, Preamble.cut_break]

theorem Preamble.length_mask_break (first second : Text) :
    (mask (first ++ '\n' :: second)).length = (mask first).length + 1 + second.length := by
  simp only [mask_eq, cut_break, List.length_append, List.length_cons]
  omega

/-- A text that may follow another module: it begins with no preamble and no `else`. -/
structure MayFollow (second : Text) : Prop where
  noMark : second.head? ≠ some '\uFEFF'
  noLine : Preamble.lineMark.isPrefixOf second = false
  noElse : ∀ found, Token.lex .operand second = .ok found → found.lexeme.kind ≠ .keyword .elseWord

section Joined

variable {first second : Text} {before after : List Statement}

/-- Behind the trivia at the end of a module and a line break the statements of another one are found, if
its first unit is read there as it is at the start of a module. -/
theorem statements_behindLine (split : Statement.split second = .ok after)
    (noMark : second.head? ≠ some '\uFEFF') (noLine : Preamble.lineMark.isPrefixOf second = false)
    {place : Reader} (finish : place.finish = first.size) (ended : (Trivia.skip place.rest).rest = [])
    {depth : Nat} (deeper : second.length + 2 ≤ depth)
    (alike : ∀ token past,
      unit depth ⟨second, first.size + 1, true, .punctuator .semicolon⟩ = .ok (token, past) →
        unit depth ⟨second, first.size + 1, place.operand, place.previous⟩ = .ok (token, past)) :
    ∃ token past beyond,
      unit (second.length + 2) ⟨second, 0, true, .punctuator .semicolon⟩ = .ok (token, past) ∧
      unit depth (place.followedBy ('\n' :: second)) =
        .ok ((token.shift (first.size + 1)).behindSpace '\n', beyond) ∧
      ∀ fuel, second.length + 2 ≤ fuel → ∃ last,
        statements (unit depth) depth fuel
            (some ((token.shift (first.size + 1)).behindSpace '\n')) beyond =
          .ok (after.map (·.shift (first.size + 1)), last) := by
  obtain ⟨token, past, last, read, run⟩ := split_runs split
  have none := Preamble.cut_none noMark noLine
  have behind : Reader.behindPreamble second = ⟨second, 0, true, .punctuator .semicolon⟩ := by
    rw [Reader.behindPreamble, none, Text.size_nil]
  have length : (Preamble.mask second).length = second.length := by
    rw [Preamble.mask_eq, none]
    rfl
  rw [behind, length] at read
  rw [length] at run
  have units : (Seam.later (first.size + 1)).Follows (unit (second.length + 2)) (unit depth)
      (·.shift (first.size + 1)) := .unit deeper
  obtain ⟨twinPast, readLater, twins⟩ :=
    (units _ token past read).2 _ (Seam.later_twins _ (first.size + 1)) List.nil_suffix
  have moved : 0 + (first.size + 1) = place.position + (place.rest ++ ['\n']).size := by
    have one : Char.utf8Size '\n' = 1 := by decide
    simp only [Reader.finish] at finish
    simp only [Text.size_append, Text.size_cons, Text.size_nil, one]
    omega
  rw [Nat.zero_add] at readLater moved
  have readHere : unit depth ⟨second, place.position + (place.rest ++ ['\n']).size, place.operand,
      place.previous⟩ = .ok (token.shift (first.size + 1), twinPast) := by
    rw [← moved]
    exact alike _ _ readLater
  refine ⟨token, past, twinPast, read, unit_behindTrivia ended readHere, fun fuel enough => ?_⟩
  obtain ⟨final, runLater⟩ := statements_later deeper deeper (Token.before read).stop run twins enough
  rw [statements_behindSpace]
  exact ⟨final, runLater⟩

/-- Behind the trivia at the end of a module, the statements of the one that follows are found. -/
theorem statements_followed (split : Statement.split second = .ok after) (follows : MayFollow second)
    {place : Reader} (finish : place.finish = first.size) (operand : place.operand = true)
    (semicolon : place.previous = .punctuator .semicolon) (ended : (Trivia.skip place.rest).rest = [])
    {depth : Nat} (deeper : second.length + 2 ≤ depth) :
    ∃ next beyond, unit depth (place.followedBy ('\n' :: second)) = .ok (next, beyond) ∧
      next.isKeyword .elseWord = false ∧
      ∀ fuel, second.length + 2 ≤ fuel → ∃ last,
        statements (unit depth) depth fuel (some next) beyond =
          .ok (after.map (·.shift (first.size + 1)), last) := by
  obtain ⟨token, past, beyond, read, readJoined, run⟩ :=
    statements_behindLine split follows.noMark follows.noLine finish ended deeper
      (fun token past readLater => by rw [operand, semicolon]; exact readLater)
  refine ⟨_, beyond, readJoined, Bool.eq_false_iff.mpr fun isElse => ?_, run⟩
  have kind : token.kind = .keyword .elseWord := by
    simpa [Token.isKeyword, Token.behindSpace] using isElse
  obtain ⟨found, lexed, isWord⟩ := lex_of_unit_keyword read kind
  exact follows.noElse found lexed isWord

/-- The first unit of a module that has a unit is read in a text that goes on behind the module, up to where
they join. -/
theorem first_joined {more : Text}
    (continued : Reader.behindPreamble (first ++ more) = (Reader.behindPreamble first).followedBy more)
    {depth otherDepth : Nat} (deeper : depth ≤ otherDepth) {token : Token} {past place : Reader}
    {units : List Token} (read : unit depth (Reader.behindPreamble first) = .ok (token, past))
    (chain : Units past units place) (semicolon : place.previous = .punctuator .semicolon) :
    ∃ join : Join place, join.shift = 0 ∧ join.place = place.followedBy more ∧
      ∃ twin, unit otherDepth (Reader.behindPreamble (first ++ more)) =
          .ok (token.shift join.shift, twin) ∧ join.Meets past twin := by
  let join : Join place := ⟨place.followedBy more, 0, rfl, rfl, rfl⟩
  have whole : Units (Reader.behindPreamble first) (token :: units) place :=
    .cons (.refl _) read chain
  obtain ⟨passed, front⟩ := whole.semicolon_suffix (List.cons_ne_nil token units) semicolon
  have twins : join.seam.Twins (Reader.behindPreamble first) (Reader.behindPreamble (first ++ more)) := by
    rw [continued]
    refine ⟨⟨passed, front.symm, ?_, .inr (.inl (Text.alike_semicolon ..))⟩, rfl, rfl, rfl⟩
    show (Reader.behindPreamble first).rest ++ more = _
    rw [← front, List.append_assoc]
    rfl
  obtain ⟨twin, again, meets⟩ := (Join.Meets.before twins).unit deeper read chain semicolon
  exact ⟨join, rfl, rfl, twin, again, meets⟩

theorem first_followed (second : Text) {depth otherDepth : Nat} (deeper : depth ≤ otherDepth)
    {token : Token} {past place : Reader} {units : List Token}
    (read : unit depth (Reader.behindPreamble first) = .ok (token, past))
    (chain : Units past units place) (semicolon : place.previous = .punctuator .semicolon) :
    ∃ join : Join place, join.shift = 0 ∧ join.place = place.followedBy ('\n' :: second) ∧
      ∃ twin, unit otherDepth (Reader.behindPreamble (first ++ '\n' :: second)) =
          .ok (token.shift join.shift, twin) ∧ join.Meets past twin :=
  first_joined (Reader.behindPreamble_break first second) deeper read chain semicolon

/-- A module ends with a semicolon, whether it has no statements or its last one ends with it. -/
def EndsSemicolon (text : Text) (found : List Statement) : Prop :=
  ∀ last, found.getLast? = some last →
    text.slice? (last.span.stop - 1) last.span.stop = some [';']

theorem previous_of_endsSemicolon (closed : EndsSemicolon first before) {place : Reader} {units : List Token}
    (chain : Units (Reader.behindPreamble first) units place) (nonempty : units ≠ [])
    (noEnd : place.previous ≠ .eof)
    (stop : before.getLast?.map (·.span.stop) = some place.position) :
    place.previous = .punctuator .semicolon := by
  obtain ⟨last, isLast, stops⟩ := Option.map_eq_some_iff.mp stop
  obtain ⟨front, back, split, size, isEnd⟩ := Text.of_slice? (closed last isLast)
  obtain ⟨passed, passes⟩ := chain.leads
  have whole : (Preamble.cut first).1 ++ (Reader.behindPreamble first).rest = first :=
    Preamble.cut_append first
  have toPlace : (Preamble.cut first).1 ++ passed ++ place.rest = front ++ [';'] ++ back := by
    rw [List.append_assoc, ← passes.rest, whole, split]
  have sizes : ((Preamble.cut first).1 ++ passed).size = (front ++ [';']).size := by
    have position : place.position = (Preamble.cut first).1.size + passed.size := passes.position
    rw [Text.size_append, Text.size_append, ← position, ← stops, size, isEnd]
  obtain ⟨-, rfl⟩ := Text.append_inj_size toPlace sizes
  have ends : (Preamble.cut first).1 ++ (Reader.behindPreamble first).rest = front ++ ';' :: place.rest :=
    whole.trans (split.trans (List.append_assoc ..))
  exact chain.previous_of_last nonempty noEnd ends

/-- A module that ends with a semicolon and another one behind a line break are split as each of them is. -/
theorem split_append_line (splitFirst : Statement.split first = .ok before)
    (splitSecond : Statement.split second = .ok after) (closed : EndsSemicolon first before)
    (valued : ¬ EndsUnvalued first) (follows : MayFollow second) :
    Statement.split (first ++ '\n' :: second) =
      .ok (before ++ after.map (·.shift (first.size + 1))) := by
  obtain ⟨token, past, last, read, run⟩ := split_runs splitFirst
  let depth := (Preamble.mask (first ++ '\n' :: second)).length + 2
  have length : depth = (Preamble.mask first).length + 1 + second.length + 2 :=
    congrArg (· + 2) (Preamble.length_mask_break first second)
  have deeper : (Preamble.mask first).length + 2 ≤ depth := by omega
  have deeperSecond : second.length + 2 ≤ depth := by omega
  -- A module without statements has no unit before the join, so there is nothing to run twice.
  rcases statements_cases run with ⟨ended, rfl⟩ | ⟨noEnd, -⟩
  · obtain ⟨next, beyond, readNext, -, goesOn⟩ :=
      statements_followed splitSecond follows (Reader.behindPreamble_finish first) rfl rfl
        (unit_ends read ended) deeperSecond
    obtain ⟨final, runNext⟩ := goesOn depth deeperSecond
    rw [← Reader.behindPreamble_break] at readNext
    exact split_of_run readNext runNext
  · obtain ⟨units, place, ends, goesOn⟩ :=
      statements_ends deeper deeper (Token.before read) noEnd run
    have chain : Units (Reader.behindPreamble first) (token :: units) place :=
      .cons (.refl _) read ends.units
    have nonempty : token :: units ≠ [] := List.cons_ne_nil token units
    have semicolon := previous_of_endsSemicolon closed chain nonempty ends.noEnd ends.stop
    have finish := chain.leads.finish_eq.trans (Reader.behindPreamble_finish first)
    obtain ⟨next, beyond, readNext, noElse, nextRun⟩ :=
      statements_followed splitSecond follows finish (chain.operand nonempty semicolon) semicolon
        ends.ended deeperSecond
    obtain ⟨join, here, isPlace, twin, again, meets⟩ :=
      first_followed second deeper read ends.units semicolon
    have unvalued : ¬ Unvalued (token :: units) := fun isValue =>
      valued ⟨_, place, chain, ends.ended, isValue⟩
    rw [← isPlace] at readNext
    have fewer : before.length < (Preamble.mask first).length + 2 := by
      obtain ⟨parts, tail, -, rfl, fewer⟩ :=
        trace_of_run (Nat.le_refl _) (Nat.le_refl _) read run
      rwa [statementsOf, List.length_map]
    obtain ⟨final, runNext⟩ := nextRun (depth - before.length) (by omega)
    have joined := goesOn semicolon unvalued join twin meets next beyond readNext noElse
      (depth - before.length) _ final runNext
    have fuel : before.length + (depth - before.length) = depth := by omega
    simp only [fuel, here, Statement.shift_zero, List.map_id'] at joined
    exact split_of_run again (here ▸ joined)

end Joined

/-- A request behind an expression. -/
theorem split_append_line_request :
    Statement.split ("x;".toList ++ '\n' :: "import './b'".toList) =
      .ok ([.other ⟨0, 2⟩] ++
        [(⟨some ⟨.sideEffect, ⟨8, 11⟩⟩, ⟨0, 12⟩⟩ : Statement)].map
          (·.shift (Text.size "x;".toList + 1))) := by
  have first : Statement.split "x;".toList = .ok [.other ⟨0, 2⟩] := by decide +kernel
  have second : Statement.split "import './b'".toList =
      .ok [⟨some ⟨.sideEffect, ⟨8, 11⟩⟩, ⟨0, 12⟩⟩] := by
    decide +kernel
  have closed : EndsSemicolon "x;".toList [.other ⟨0, 2⟩] := by
    intro last isLast
    cases isLast
    decide
  have valued : ¬ EndsUnvalued "x;".toList := fun unvalued =>
    absurd unvalued.length (by decide +kernel)
  have follows : MayFollow "import './b'".toList := by
    refine ⟨by decide, by decide, fun found lexed => ?_⟩
    have isImport : (Token.lex .operand "import './b'".toList).map (·.lexeme.kind) =
        .ok (.keyword .importWord) := by
      decide +kernel
    rw [lexed] at isImport
    have kind : found.lexeme.kind = .keyword .importWord := Except.ok.inj isImport
    rw [kind]
    nofun
  exact split_append_line first second closed valued follows

end Relink
