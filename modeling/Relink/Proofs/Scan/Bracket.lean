import Relink.Proofs.Scan.Notes
import Relink.Proofs.Scan.Spelling
import Relink.Proofs.Scan.Units

/-!
# Expressions in parentheses

An expression that a statement ends behind is read in parentheses unit by unit as it is read there. The two
scans note otherwise only behind a brace group that follows a unit without an operand, so they go apart only
where such a group is divided or compared.
-/

set_option autoImplicit false

namespace Relink

open Scan

/-! ## Where brackets matter -/

/-- In the expression that a reader stands before, up to its semicolon, a slash or a `<` follows a brace
group that is no operand of the unit before it and no body of an arrow. -/
inductive Disputed : Reader → Prop where
  | here {depth : Nat} {reader after past : Reader} {body next : Token} :
      unit depth reader = .ok (body, after) → body.kind = .punctuator .braceOpen →
      reader.previous ≠ .punctuator .equalsChevronRight → reader.previous.takesOperand = false →
      unit depth { after with operand := false } = .ok (next, past) → beginsOperand next.kind = true →
      Disputed reader
  | later {depth : Nat} {reader after : Reader} {token : Token} :
      unit depth reader = .ok (token, after) → token.kind ≠ .punctuator .semicolon →
      Disputed { after with operand := bracedOperand reader.previous token after.operand } →
      Disputed reader

theorem unit_deepen {depth otherDepth : Nat} (deeper : depth ≤ otherDepth) {reader after : Reader}
    {token : Token} (read : unit depth reader = .ok (token, after)) :
    unit otherDepth reader = .ok (token, after) := by
  have units : (Seam.later 0).Follows (unit depth) (unit otherDepth) (·.shift 0) := .unit deeper
  exact units.again read

theorem unit_unique {depth otherDepth : Nat} {reader after otherAfter : Reader} {token other : Token}
    (read : unit depth reader = .ok (token, after))
    (again : unit otherDepth reader = .ok (other, otherAfter)) : other = token ∧ otherAfter = after := by
  have one := unit_deepen (Nat.le_max_left depth otherDepth) read
  have two := unit_deepen (Nat.le_max_right depth otherDepth) again
  cases one.symm.trans two
  exact ⟨rfl, rfl⟩

/-- Whether a brace group ends here behind which a slash or a `<` is disputed. -/
def disputesAfter (depth : Nat) (previous : Kind) (body : Token) (after : Reader) : Bool :=
  body.isPunctuator .braceOpen && previous != .punctuator .equalsChevronRight &&
    !previous.takesOperand &&
      match unit depth { after with operand := false } with
      | .ok (next, _) => beginsOperand next.kind
      | .error _ => true

/-- Whether the units up to the semicolon are read within bounds on the steps, and nothing is disputed. -/
def isUndisputed (depth : Nat) : Nat → Reader → Bool
  | 0, _ => false
  | fuel + 1, reader =>
    match unit depth reader with
    | .error _ => false
    | .ok (token, after) =>
      !disputesAfter depth reader.previous token after && (token.isPunctuator .semicolon ||
        isUndisputed depth fuel
          { after with operand := bracedOperand reader.previous token after.operand })

theorem isUndisputed_step {depth otherDepth fuel : Nat} {reader after : Reader} {token : Token}
    (undisputed : isUndisputed depth fuel reader = true)
    (read : unit otherDepth reader = .ok (token, after)) :
    disputesAfter depth reader.previous token after = false ∧
      (token.kind ≠ .punctuator .semicolon → ∃ less, isUndisputed depth less
        { after with operand := bracedOperand reader.previous token after.operand } = true) := by
  cases fuel with
  | zero => cases undisputed
  | succ fuel =>
      rw [isUndisputed] at undisputed
      split at undisputed
      · cases undisputed
      · rename_i other otherAfter again
        obtain ⟨rfl, rfl⟩ := unit_unique read again
        simp only [Bool.and_eq_true, Bool.not_eq_true', Bool.or_eq_true, Token.isPunctuator_iff] at undisputed
        exact ⟨undisputed.1, fun noSemicolon => ⟨fuel, undisputed.2.resolve_left noSemicolon⟩⟩

theorem not_disputed {depth fuel : Nat} {reader : Reader}
    (undisputed : isUndisputed depth fuel reader = true) : ¬ Disputed reader := by
  intro disputed
  induction disputed generalizing fuel with
  | here read isBrace noArrow noOperand readNext begins =>
      have free := (isUndisputed_step undisputed read).1
      rw [disputesAfter, (Token.isPunctuator_iff _ _).mpr isBrace, bne_iff_ne.mpr noArrow, noOperand] at free
      split at free
      · rename_i next again
        obtain ⟨rfl, -⟩ := unit_unique readNext again
        rw [begins] at free
        cases free
      · cases free
  | later read noSemicolon _ ih =>
      obtain ⟨less, later⟩ := (isUndisputed_step undisputed read).2 noSemicolon
      exact ih later

theorem bracedOperand_trace (kind : Kind) (token : Token) (operand : Bool) :
    bracedOperand (trace kind) token operand = bracedOperand kind token operand := by
  have same : (trace kind == .punctuator .equalsChevronRight) =
      (kind == .punctuator .equalsChevronRight) := by
    rw [Bool.eq_iff_iff, beq_iff_eq, beq_iff_eq]
    refine ⟨fun arrow => eq_of_trace arrow rfl, fun arrow => ?_⟩
    rw [arrow]
    rfl
  rw [bracedOperand, bracedOperand, same]

/-- The next unit is read with the note of the group as it is with that of the statement. -/
theorem agrees_noted {depth : Nat} {reader after past : Reader} {token next : Token}
    (read : unit depth reader = .ok (token, after)) (undisputed : ¬ Disputed reader)
    (readNext : unit depth { after with operand := bracedOperand reader.previous token after.operand } =
      .ok (next, past)) :
    Reader.Agrees { after with operand := bracedOperand reader.previous token after.operand } after
      next.kind := by
  refine ⟨⟨rfl, rfl⟩, rfl, rfl, rfl, ?_⟩
  obtain ⟨body, lies⟩ := unit_at read
  by_cases brace : token.isPunctuator .braceOpen = true
  · have isBrace := (token.isPunctuator_iff .braceOpen).mp brace
    have due : after.operand = !reader.previous.takesOperand := by
      rw [lies.operand, isBrace]
      rfl
    simp only [bracedOperand, brace, if_true] at readNext ⊢
    by_cases arrow : reader.previous = .punctuator .equalsChevronRight
    · left
      rw [due, arrow]
      rfl
    · rw [beq_eq_false_iff_ne.mpr arrow] at readNext ⊢
      cases takes : reader.previous.takesOperand with
      | true =>
          left
          rw [due, takes]
          rfl
      | false =>
          refine .inr ⟨rfl, Bool.eq_false_iff.mpr fun begins => undisputed ?_⟩
          exact .here read isBrace arrow takes readNext begins
  · left
    simp only [bracedOperand, brace, Bool.false_eq_true, if_false]

/-! ## The closing bracket -/

namespace Token

theorem lex_closing (bracket : Bracket) (mode : Mode) {gap : Text} (trivia : Trivia.IsTrivia false gap) (rest : Text) :
    ∃ newline, lex mode (gap ++ (bracket.close.spelling ++ rest)) =
      .ok ⟨gap, newline, .plain (.punctuator bracket.close) bracket.close.spelling rest⟩ := by
  have solid : Trivia.Solid (bracket.close.spelling ++ rest) := by
    cases bracket
    all_goals exact Trivia.solid_cons (by decide) fun slash => absurd slash (by decide)
  have read : Lexeme.read mode (bracket.close.spelling ++ rest) =
      .ok (.plain (.punctuator bracket.close) bracket.close.spelling rest) := by
    cases bracket
    all_goals cases mode <;> rfl
  obtain ⟨newline, skipped⟩ := trivia.skip_append solid nofun
  refine ⟨newline, ?_⟩
  simp only [lex, skipped, read, Except.map]

end Token

/-- The text behind an expression, at the end of its statement and in parentheses. -/
def bracketSeam : Seam := ⟨[';'], [')', ';'], 1, nofun⟩

/-- Where the expression of a statement ends with its semicolon, the parentheses around it close. -/
theorem group_closes {depth otherDepth fuel : Nat} (deeper : depth ≤ otherDepth)
    {reader other twin after : Reader} {token : Token}
    (read : unit depth reader = .ok (token, after)) (isKind : token.kind = .punctuator .semicolon)
    (ended : after.rest = []) (abreast : reader.Abreast other) (twins : bracketSeam.Twins other twin) :
    ∃ close last, group (unit otherDepth) .parenthesis (fuel + 1) twin = .ok (close, last) ∧
      close.stop = last.position ∧ last.rest = [';'] ∧ last.position = reader.finish + 1 := by
  obtain ⟨otherDepth, rfl⟩ := exists_succ_of_unit deeper read
  have whole := (unit_semicolon (Nat.le_refl depth) read isKind).1
  rw [ended] at whole
  -- Only trivia stands before the semicolon, and so it does before the parenthesis in its place.
  obtain ⟨before, otherRest, twinRest, -⟩ := twins.rest
  have sameRest : before ++ [';'] = reader.gap ++ [';'] :=
    otherRest.symm.trans (abreast.rest.trans whole)
  obtain rfl := List.append_cancel_right sameRest
  have behind : (Trivia.skip reader.rest).rest = [';'] := by
    have skipped : reader.gap ++ (Trivia.skip reader.rest).rest = reader.gap ++ [';'] :=
      (Trivia.skip_append reader.rest).trans whole
    exact List.append_cancel_left skipped
  have trivia : Trivia.IsTrivia false reader.gap := by
    have isTrivia := Trivia.skip_isTrivia reader.rest
    rwa [behind] at isTrivia
  obtain ⟨newline, lexed⟩ := Token.lex_closing .parenthesis twin.mode trivia [';']
  obtain ⟨close, last, twinRead, isClose, rest⟩ : ∃ close last,
      unit (otherDepth + 1) twin = .ok (close, last) ∧
        close.kind = .punctuator .parenthesisClose ∧ last.rest = [';'] :=
    ⟨_, _, unit_alone otherDepth (twinRest ▸ lexed) rfl, rfl, rfl⟩
  obtain ⟨body, lies⟩ := unit_at twinRead
  refine ⟨close.span, last, ?_, lies.stop, rest, ?_⟩
  · refine (bind_of_ok twinRead _).trans ?_
    have closes : close.kind = .punctuator Bracket.parenthesis.close := isClose
    rw [closeOrGoOn, if_pos closes]
    rfl
  · have finish := (unit_leads twinRead).finish_eq
    have position : twin.position = other.position + 1 := twins.position
    have sizes : Text.size [';'] = 1 ∧ Text.size [')', ';'] = 2 := by decide
    simp only [Reader.finish, rest, twinRest, whole, bracketSeam, Text.size_append, position, sizes,
      abreast.position] at finish ⊢
    omega

/-! ## The expression -/

/-- Only a semicolon takes the semicolon at the end of a text. -/
theorem rest_of_unit {depth : Nat} {reader after : Reader} {token : Token} {back : Text}
    (read : unit depth reader = .ok (token, after)) (noEnd : token.kind ≠ .eof)
    (noSemicolon : token.kind ≠ .punctuator .semicolon) (semicolon : reader.rest = back ++ [';']) :
    ∃ more, after.rest = more ++ [';'] := by
  obtain ⟨body, lies⟩ := unit_at read
  have whole : reader.gap ++ body ++ after.rest = back ++ [';'] := lies.passes.rest.symm.trans semicolon
  rcases List.eq_nil_or_concat after.rest with nothing | ⟨more, c, goesOn⟩
  · rcases List.eq_nil_or_concat body with empty | ⟨front, c, isBody⟩
    · exact absurd (lies.empty.mpr empty) noEnd
    · rw [nothing, List.append_nil, isBody, List.concat_eq_append, ← List.append_assoc] at whole
      obtain ⟨-, isLast⟩ := List.append_inj' whole rfl
      have passes := lies.passes
      rw [isBody, List.concat_eq_append, isLast] at passes
      exact absurd (unit_of_last_semicolon read passes) noSemicolon
  · rw [goesOn, List.concat_eq_append, ← List.append_assoc] at whole
    obtain ⟨-, isLast⟩ := List.append_inj' whole rfl
    exact ⟨more, by rw [goesOn, List.concat_eq_append, isLast]⟩

/-- The expression of a statement that ends with its semicolon is passed over in parentheses. -/
theorem group_of_simple {depth otherDepth : Nat} (deeper : depth ≤ otherDepth) {fuel otherFuel : Nat}
    (enough : fuel ≤ otherFuel) {reader other twin last : Reader} {back : Text} {stop : Nat}
    {kind : Kind} {ending : Ending}
    (run : simple (unit depth) fuel stop kind none reader = .ok (ending, last))
    (ends : ending.stop = reader.finish) (behind : stop ≤ reader.position)
    (semicolon : reader.rest = back ++ [';']) (follows : reader.previous = trace kind)
    (undisputed : ¬ Disputed reader)
    (agrees : ∀ token after, unit depth reader = .ok (token, after) → reader.Agrees other token.kind)
    (twins : bracketSeam.Twins other twin) :
    ∃ close after, group (unit otherDepth) .parenthesis otherFuel twin = .ok (close, after) ∧
      close.stop = after.position ∧ after.rest = [';'] ∧ after.position = reader.finish + 1 := by
  induction fuel generalizing otherFuel reader other twin back stop kind with
  | zero => cases run
  | succ fuel ih =>
      obtain ⟨otherFuel, rfl⟩ := Nat.exists_eq_add_one_of_ne_zero (by omega : otherFuel ≠ 0)
      have early : stop < reader.finish := by
        have one : Text.size [';'] = 1 := by decide
        rw [Reader.finish, semicolon, Text.size_append, one]
        omega
      cases simple_round run with
      | @semicolon token read isSemicolon isEnding =>
          obtain rfl := isEnding
          obtain ⟨body, lies⟩ := unit_at read
          have atEnd : token.span.stop = reader.finish := ends
          rw [lies.stop, ← (unit_leads read).finish_eq, Reader.finish] at atEnd
          have none : last.rest = [] := (Text.size_eq_zero_iff _).mp (by omega)
          exact group_closes deeper read isSemicolon none (agrees token last read).toAbreast twins
      | behind _ _ isEnding =>
          rw [isEnding] at ends
          exact absurd ends (Nat.ne_of_lt early)
      | @goesOn token behindUnit read noSemicolon noEnd noClose run =>
          obtain ⟨body, lies⟩ := unit_at read
          obtain ⟨more, rest⟩ := rest_of_unit read noEnd noSemicolon semicolon
          have units : bracketSeam.Follows (unit depth) (unit otherDepth) (·.shift 1) := .unit deeper
          obtain ⟨twinAfter, twinRead, twinsAfter⟩ :=
            (units other token behindUnit (unit_agrees read (agrees token behindUnit read))).2 twin twins
              ⟨more, rest.symm⟩
          rw [← bracedOperand_trace, ← follows] at run
          let noted := { behindUnit with operand := bracedOperand reader.previous token behindUnit.operand }
          have finish : noted.finish = reader.finish := (unit_leads read).finish_eq
          obtain ⟨close, final, grouped, stops, closed, position⟩ :=
            ih (show fuel ≤ otherFuel by omega) run (ends.trans finish.symm) (Nat.le_of_eq lies.stop) rest
              lies.previous (fun disputed => undisputed (.later read noSemicolon disputed))
              (fun next past readNext => agrees_noted read undisputed readNext) twinsAfter
          refine ⟨close, final, ?_, stops, closed, position.trans (by rw [finish])⟩
          refine (bind_of_ok twinRead _).trans ?_
          have goesOn : token.kind ≠ .punctuator Bracket.parenthesis.close := by
            intro isClose
            rw [isClose] at noClose
            cases noClose
          rw [closeOrGoOn, Token.kind_shift, if_neg goesOn, if_neg noEnd, noClose]
          exact grouped

end Relink
