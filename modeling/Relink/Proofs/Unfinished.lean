import Relink.Proofs.Concatenation
import Relink.Proofs.Token.Fault

/-!
# Unfinished tokens

A comment or a template that never ends is located where it begins, behind whatever trivia are before it: at
the start of a module as well as behind its last statement. The exception is a vertical tab among the
whitespace, in front of which the fault is located.
-/

set_option autoImplicit false

namespace Relink

open Scan

/-! ## Texts that begin with no token -/

/-- A text whose first token never ends, and the fault that it is. -/
structure Unfinished (code : Text) (cause : SyntaxFault.Cause) : Prop where
  first : code.head? = some '/' ∨ code.head? = some '\x60'
  solid : Trivia.Solid code
  unread : ∃ fault, Token.Lexeme.read .operand code = .error fault ∧ Reader.causeOf fault code = cause

theorem Trivia.throughBlock?_none {text : Text} (noEnd : ¬ ['*', '/'] <:+: text) :
    throughBlock? text = none := by
  cases found : throughBlock? text with
  | none => rfl
  | some parts =>
      obtain ⟨inner, isBody, -⟩ := throughBlock?_body found
      have whole := throughBlock?_append found
      rw [isBody] at whole
      exact absurd ⟨inner, parts.2, by simpa using whole⟩ noEnd

theorem unfinished_comment {body : Text} (noEnd : ¬ ['*', '/'] <:+: body) :
    Unfinished ('/' :: '*' :: body) .unterminatedComment where
  first := .inl rfl
  solid := by
    have none := Trivia.throughBlock?_none noEnd
    rw [Trivia.Solid, Trivia.skip]
    split
    · rename_i found
      rw [none] at found
      cases found
    · rfl
  unread := ⟨.noToken, rfl, rfl⟩

theorem Token.templatePart_unfinished {body : Text} (noEnd : '\x60' ∉ body) (noEscape : '\\' ∉ body)
    (noPart : '$' ∉ body) : templatePart body = .error .unexpectedEnd := by
  induction body with
  | nil => rfl
  | cons c body ih =>
      rw [List.mem_cons, not_or] at noEnd noEscape noPart
      rw [templatePart, ih noEnd.2 noEscape.2 noPart.2]
      · rfl
      · exact Ne.symm noEnd.1
      · exact fun _ isPart => absurd isPart.symm noPart.1
      · exact fun isEscape => absurd isEscape.symm noEscape.1
      · exact fun _ _ isEscape => absurd isEscape.symm noEscape.1

theorem unfinished_template {body : Text} (noEnd : '\x60' ∉ body) (noEscape : '\\' ∉ body)
    (noPart : '$' ∉ body) : Unfinished ('\x60' :: body) .unterminatedTemplate where
  first := .inr rfl
  solid := Trivia.solid_cons rfl nofun
  unread := by
    refine ⟨.unexpectedEnd, ?_, rfl⟩
    have part := Token.templatePart_unfinished noEnd noEscape noPart
    have read : Token.Lexeme.read .operand ('\x60' :: body) = (Token.templatePart body).map fun found =>
        ⟨.literal found.2.1, ['\x60'], found.1, found.2.2.1, found.2.2.2⟩ := rfl
    rw [read, part]
    rfl

/-! ## Behind trivia -/

namespace Token

/-- Behind trivia the lexer starts a token or fails where a fault would be located. -/
theorem lex_behindFault (mode : Mode) {text : Text} (plain : ¬ Trivia.Tabbed (Trivia.skip text).chars) :
    lex mode text = (Lexeme.read mode (Trivia.beforeFault text).2).map fun found =>
      ⟨(Trivia.beforeFault text).1, (Trivia.skip text).newline, found⟩ := by
  rw [(Trivia.beforeFault_eq_skip_iff text).mpr plain]
  rfl

end Token

section Unfinished

variable {gap code : Text} {cause : SyntaxFault.Cause}

theorem Unfinished.unit_fails (unfinished : Unfinished code cause) (trivia : Trivia.IsTrivia false gap)
    (plain : ¬ Trivia.Tabbed gap) (fuel position : Nat) (previous : Kind) :
    unit (fuel + 1) ⟨gap ++ code, position, true, previous⟩ =
      .error (.faulty ⟨cause, ⟨position + gap.size, position + (gap ++ code).size⟩, none⟩) := by
  obtain ⟨fault, unread, isCause⟩ := unfinished.unread
  obtain ⟨newline, skipped⟩ := trivia.skip_append unfinished.solid nofun
  have located := trivia.beforeFault_append plain unfinished.solid nofun
  have failed : Token.lex .operand (gap ++ code) = .error fault := by
    rw [Token.lex, skipped, unread]
    rfl
  let reader : Reader := ⟨gap ++ code, position, true, previous⟩
  have tokenRun : Scan.token .operand reader = .error (.faulty (reader.unreadable fault)) := by
    simp only [Scan.token, Reader.token, reader, failed]
  have fails := bind_of_error tokenRun (foldUnit (unit fuel) fuel previous true)
  simp only [Reader.unreadable, reader, located, isCause] at fails
  exact fails

/-- A text behind which a statement may begin: nothing, or a module whose last statement ends with a semicolon
at the end of the text. -/
def IsClosed (text : Text) : Prop :=
  text = [] ∨ ∃ found last, Statement.split text = .ok found ∧ found.getLast? = some last ∧
    last.span.stop = text.size ∧ text.getLast? = some ';'

theorem split_of_failed {text : Text} {fault : SyntaxFault}
    (failed : moduleRun text = .error (.faulty fault)) : Statement.split text = .error fault := by
  unfold Scan.moduleRun at failed
  unfold Statement.split
  rw [← moduleStatements_eq] at failed
  simp only [failed]

theorem Unfinished.begins (unfinished : Unfinished code cause) (trivia : Trivia.IsTrivia false gap) :
    Reader.behindPreamble (gap ++ code) = ⟨gap ++ code, 0, true, .punctuator .semicolon⟩ := by
  have first : ∃ c rest, gap ++ code = c :: rest ∧ c ≠ '\uFEFF' ∧ c ≠ '#' := by
    obtain ⟨d, rest, rfl, isFirst⟩ : ∃ d rest, code = d :: rest ∧ (d = '/' ∨ d = '\x60') := by
      rcases unfinished.first with slash | tick
      · obtain ⟨rest, isCode⟩ := Token.eq_cons_of_head? slash
        exact ⟨'/', rest, isCode, .inl rfl⟩
      · obtain ⟨rest, isCode⟩ := Token.eq_cons_of_head? tick
        exact ⟨'\x60', rest, isCode, .inr rfl⟩
    obtain ⟨c, behind, whole, is⟩ := trivia.head d rest
    refine ⟨c, behind, whole, ?_, ?_⟩
    · rintro rfl
      rcases isFirst with rfl | rfl <;> simp [Trivia.isSpace] at is
    · rintro rfl
      rcases isFirst with rfl | rfl <;> simp [Trivia.isSpace] at is
  obtain ⟨c, rest, whole, noMark, noLine⟩ := first
  have none : Preamble.cut (gap ++ code) = ([], gap ++ code) := by
    rw [whole]
    apply Preamble.cut_none
    · simpa using noMark
    · simp [Preamble.lineMark, List.isPrefixOf, noLine.symm]
  rw [Reader.behindPreamble, none, Text.size_nil]

/-! ## Behind a semicolon -/

/-- Behind the semicolon at its end a module goes on as it was read. -/
theorem behindPreamble_append {front : Text} (semicolon : front.getLast? = some ';')
    (goesOn : (Preamble.cut front).2 ≠ []) (more : Text) :
    Reader.behindPreamble (front ++ more) = (Reader.behindPreamble front).followedBy more := by
  have whole := Preamble.cut_append front
  obtain ⟨middle, last, isLast⟩ := (List.eq_nil_or_concat (Preamble.cut front).2).resolve_left goesOn
  rw [List.concat_eq_append] at isLast
  obtain rfl : last = ';' := by
    rw [← whole, isLast, ← List.append_assoc, List.getLast?_concat] at semicolon
    exact Option.some.inj semicolon
  have noLine : Preamble.lineMark.isPrefixOf (middle ++ ';' :: more) = false :=
    Preamble.noLine_append_congr (isLast ▸ Preamble.cut_noLine front) rfl rfl (by decide)
  have same : (Preamble.cut front).2.head? = (middle ++ ';' :: more).head? := by
    rw [isLast]
    exact Text.head?_append_congr middle rfl
  have again := Preamble.cut_append_congr same noLine
  have joined : front ++ more = (Preamble.cut front).1 ++ (middle ++ ';' :: more) := by
    rw [← List.singleton_append, ← List.append_assoc middle, ← isLast, ← List.append_assoc, whole]
  rw [Reader.behindPreamble, joined, again]
  simp [Reader.behindPreamble, Reader.followedBy, isLast]

theorem Preamble.length_mask_le {front more : Text}
    (continued : Reader.behindPreamble (front ++ more) = (Reader.behindPreamble front).followedBy more) :
    (Preamble.mask front).length ≤ (Preamble.mask (front ++ more)).length := by
  have sizes : (Preamble.cut (front ++ more)).1.size = (Preamble.cut front).1.size :=
    congrArg Reader.position continued
  have rest : (Preamble.cut (front ++ more)).2 = (Preamble.cut front).2 ++ more :=
    congrArg Reader.rest continued
  simp only [mask_eq, sizes, rest, List.length_append]
  omega

/-- A text in which a unit is read does not end with its preamble. -/
theorem Scan.rest_ne_nil_of_read {depth : Nat} {reader after : Reader} {token : Token}
    (read : unit depth reader = .ok (token, after)) (noEnd : token.kind ≠ .eof) : reader.rest ≠ [] := by
  obtain ⟨body, lies⟩ := unit_at read
  intro empty
  have passed := lies.passes.rest
  rw [empty] at passed
  have none : body = [] := by simp_all
  exact noEnd (lies.empty.mpr none)

/-- The units of a module that ends with a semicolon end behind it, where a statement may begin. -/
theorem Units.closed_place {front : Text} {place : Reader} {units : List Token}
    (chain : Units (Reader.behindPreamble front) units place) (nonempty : units ≠ [])
    (noEnd : place.previous ≠ .eof) (position : place.position = front.size)
    (semicolon : front.getLast? = some ';') : place = ⟨[], front.size, true, .punctuator .semicolon⟩ := by
  have nothing : place.rest = [] := by
    have finish := chain.leads.finish_eq.trans (Reader.behindPreamble_finish front)
    rw [Reader.finish, position] at finish
    exact (Text.size_eq_zero_iff _).mp (by omega)
  have isSemicolon : place.previous = .punctuator .semicolon := by
    obtain ⟨body, isBody⟩ := List.getLast?_eq_some_iff.mp semicolon
    have ended : (Preamble.cut front).1 ++ (Reader.behindPreamble front).rest = body ++ ';' :: place.rest := by
      rw [nothing, ← isBody]
      exact Preamble.cut_append front
    exact chain.previous_of_last nonempty noEnd ended
  have operand := chain.operand nonempty isSemicolon
  cases place
  simp_all

/-- A scan that goes on behind a module that ends with a semicolon fails as its next unit does. -/
theorem moduleRun_fails {front more : Text} {found : List Statement} {last : Statement} {halt : Halt}
    (split : Statement.split front = .ok found) (isLast : found.getLast? = some last)
    (stop : last.span.stop = front.size) (semicolon : front.getLast? = some ';')
    (fails : ∀ depth, unit (depth + 1) ⟨more, front.size, true, .punctuator .semicolon⟩ = .error halt) :
    moduleRun (front ++ more) = .error halt := by
  obtain ⟨token, past, final, read, run⟩ := split_runs split
  rcases statements_cases run with ⟨-, rfl⟩ | ⟨noEnd, -⟩
  · cases isLast
  have continued := behindPreamble_append semicolon (rest_ne_nil_of_read read noEnd) more
  let depth := (Preamble.mask (front ++ more)).length + 2
  have deeper : (Preamble.mask front).length + 2 ≤ depth :=
    Nat.add_le_add_right (Preamble.length_mask_le continued) 2
  obtain ⟨units, place, ends, beyond⟩ := statements_joins deeper deeper (Token.before read) noEnd run
  have chain : Units (Reader.behindPreamble front) (token :: units) place :=
    .cons (.refl _) read ends.units
  have position : place.position = front.size := by
    have stops := ends.stop
    rw [isLast] at stops
    exact (Option.some.inj stops).symm.trans stop
  -- The module ends behind its semicolon, where a statement may begin: there the unit behind it is read.
  have isPlace := chain.closed_place (List.cons_ne_nil token units) ends.noEnd position semicolon
  subst isPlace
  obtain ⟨join, -, isJoin, twin, again, meets⟩ := first_joined continued deeper read ends.units rfl
  have failed : unit depth join.place = .error halt := by
    rw [isJoin]
    exact fails _
  have fewer : found.length < (Preamble.mask front).length + 2 := by
    obtain ⟨parts, tail, -, rfl, fewer⟩ := trace_of_run (Nat.le_refl _) (Nat.le_refl _) read run
    rwa [statementsOf, List.length_map]
  have joined := (beyond rfl).2 join twin meets halt failed (depth - found.length - 1)
  have fuel : found.length + (depth - found.length - 1) + 1 = depth := by omega
  rw [fuel] at joined
  unfold Scan.moduleRun moduleStatements
  rw [statements_next]
  exact (bind_of_ok again _).trans joined

/-- What never ends behind a closed text is a fault, located behind the trivia between them. -/
theorem Unfinished.split_fails (unfinished : Unfinished code cause) {front : Text}
    (closed : IsClosed front) (trivia : Trivia.IsTrivia false gap) (plain : ¬ Trivia.Tabbed gap) :
    Statement.split (front ++ (gap ++ code)) =
      .error ⟨cause, ⟨front.size + gap.size, (front ++ (gap ++ code)).size⟩, none⟩ := by
  apply split_of_failed
  rw [Text.size_append]
  rcases closed with rfl | ⟨found, last, split, isLast, stop, semicolon⟩
  · unfold Scan.moduleRun moduleStatements
    rw [statements_next, List.nil_append, unfinished.begins trivia, Text.size_nil]
    exact bind_of_error (unfinished.unit_fails trivia plain _ 0 _) _
  · exact moduleRun_fails split isLast stop semicolon fun depth =>
      unfinished.unit_fails trivia plain depth front.size _

end Unfinished

/-! ## Where faults are located -/

/-- A fault is located where the lexer stands behind trivia, if and only if no vertical tab is among their
whitespace. Behind nothing or a module that ends with a semicolon, and behind such trivia, a comment and a
template that never end are told apart and located where they begin. -/
theorem split_unfinished (mode : Token.Mode) (text : Text) :
    (Trivia.beforeFault text = ((Trivia.skip text).chars, (Trivia.skip text).rest) ↔
      ¬ Trivia.Tabbed (Trivia.skip text).chars) ∧
    (¬ Trivia.Tabbed (Trivia.skip text).chars →
      Token.lex mode text = (Token.Lexeme.read mode (Trivia.beforeFault text).2).map fun found =>
        ⟨(Trivia.beforeFault text).1, (Trivia.skip text).newline, found⟩) ∧
    ∀ front gap, IsClosed front → Trivia.IsTrivia false gap → ¬ Trivia.Tabbed gap →
      (∀ body, ¬ ['*', '/'] <:+: body →
        Statement.split (front ++ (gap ++ '/' :: '*' :: body)) =
          .error ⟨.unterminatedComment,
            ⟨front.size + gap.size, (front ++ (gap ++ '/' :: '*' :: body)).size⟩, none⟩) ∧
      (∀ body, '\x60' ∉ body → '\\' ∉ body → '$' ∉ body →
        Statement.split (front ++ (gap ++ '\x60' :: body)) =
          .error ⟨.unterminatedTemplate,
            ⟨front.size + gap.size, (front ++ (gap ++ '\x60' :: body)).size⟩, none⟩) := by
  refine ⟨Trivia.beforeFault_eq_skip_iff text, Token.lex_behindFault mode, ?_⟩
  intro front gap closed trivia plain
  constructor
  · intro body noEnd
    exact (unfinished_comment noEnd).split_fails closed trivia plain
  · intro body noEnd noEscape noPart
    exact (unfinished_template noEnd noEscape noPart).split_fails closed trivia plain

/-- A vertical tab within a comment does no harm. -/
theorem split_unfinished_behindComment :
    let front := "import './a';".toList
    let gap := " /*\x0b*/// c\n".toList
    (Trivia.beforeFault (gap ++ "/*x".toList) = (gap, "/*x".toList) ∧
      ¬ Trivia.Tabbed (Trivia.skip (gap ++ "/*x".toList)).chars ∧
      Token.lex .operand (gap ++ "/*x".toList) = .error .noToken) ∧
    (IsClosed front ∧ Trivia.IsTrivia false gap ∧ ¬ Trivia.Tabbed gap) ∧
    (¬ ['*', '/'] <:+: ['x'] ∧ Statement.split (front ++ (gap ++ '/' :: '*' :: ['x'])) =
      .error ⟨.unterminatedComment, ⟨24, 27⟩, none⟩) ∧
    ('\x60' ∉ ['x'] ∧ '\\' ∉ ['x'] ∧ '$' ∉ ['x'] ∧ Statement.split (front ++ (gap ++ '\x60' :: ['x'])) =
      .error ⟨.unterminatedTemplate, ⟨24, 26⟩, none⟩) := by
  intro front gap
  obtain ⟨located, lexed, fails⟩ := split_unfinished .operand (gap ++ "/*x".toList)
  have skipped : (Trivia.skip (gap ++ "/*x".toList)).chars = gap := by decide +kernel
  have same : Trivia.beforeFault (gap ++ "/*x".toList) =
      ((Trivia.skip (gap ++ "/*x".toList)).chars, (Trivia.skip (gap ++ "/*x".toList)).rest) := by
    decide +kernel
  have plain := located.mp same
  have closed : IsClosed front :=
    .inr ⟨[⟨some ⟨.sideEffect, ⟨8, 11⟩⟩, ⟨0, 13⟩⟩], _, by decide +kernel, rfl, by decide, by decide⟩
  have trivia : Trivia.IsTrivia false gap := by
    have whole := Trivia.skip_isTrivia (gap ++ "/*x".toList)
    rw [skipped] at whole
    have goesOn : (Trivia.skip (gap ++ "/*x".toList)).rest.isEmpty = false := by decide +kernel
    rwa [goesOn] at whole
  have plainGap : ¬ Trivia.Tabbed gap := skipped ▸ plain
  have noEnd : ¬ ['*', '/'] <:+: ['x'] := by decide
  obtain ⟨comment, template⟩ := fails front gap closed trivia plainGap
  have commentFails := comment ['x'] noEnd
  have templateFails := template ['x'] (by decide) (by decide) (by decide)
  have place : Text.size front + Text.size gap = 24 := by decide +kernel
  have commentEnd : Text.size (front ++ (gap ++ '/' :: '*' :: ['x'])) = 27 := by decide +kernel
  have templateEnd : Text.size (front ++ (gap ++ '\x60' :: ['x'])) = 26 := by decide +kernel
  rw [place, commentEnd] at commentFails
  rw [place, templateEnd] at templateFails
  refine ⟨⟨by decide +kernel, plain, ?_⟩, ⟨closed, trivia, plainGap⟩, ⟨noEnd, commentFails⟩,
    by decide, by decide, by decide, templateFails⟩
  rw [lexed plain]
  decide +kernel

/-- A fault behind a vertical tab is located in front of it, where no comment begins. -/
example : Statement.split ('\x0b' :: "/*".toList) = .error ⟨.invalidToken, ⟨0, 3⟩, none⟩ := by
  decide +kernel

end Relink
