import Mathlib.Data.List.Infix
import Relink.Proofs.Scan.Bracket
import Relink.Proofs.Scan.Preamble

/-!
# Values in parentheses

The value of an assignment may be put in parentheses: the assignment stays one statement. The one exception
is a brace group that is divided or compared behind a unit without an operand, the body of a function or a
class among them. Behind such a group parentheses hide that an operator is due.
-/

set_option autoImplicit false

namespace Relink

open Scan

/-! ## Assignments -/

def assignedName : Token := ⟨.identifier, ⟨0, 1⟩, ['x'], false⟩

def equalsSign : Token := ⟨.punctuator .equals, ⟨2, 3⟩, ['='], false⟩

theorem unit_assignedName (depth : Nat) (rest : Text) :
    unit (depth + 1) ⟨'x' :: ' ' :: rest, 0, true, .punctuator .semicolon⟩ =
      .ok (assignedName, ⟨' ' :: rest, 1, false, .identifier⟩) := by
  have isWord : Token.IsWord .identifier ['x'] := .name rfl rfl (by decide)
  have parted : Token.Parted ['x'] (' ' :: rest) := by
    rintro _ ⟨⟩ _ ⟨⟩
    rfl
  have read : Token.Lexeme.read .operand ('x' :: ' ' :: rest) = .ok (.plain .identifier ['x'] (' ' :: rest)) :=
    (Token.Spelled.word isWord).read nofun (.inl parted)
  have solid : Trivia.Solid ('x' :: ' ' :: rest) := (Token.Spelled.word isWord).solid (' ' :: rest)
  let reader : Reader := ⟨'x' :: ' ' :: rest, 0, true, .punctuator .semicolon⟩
  have lexed : Token.lex reader.mode reader.rest =
      .ok ⟨[], false, .plain .identifier ['x'] (' ' :: rest)⟩ := by
    show Token.lex .operand ('x' :: ' ' :: rest) = _
    rw [Token.lex, show Trivia.skip _ = _ from solid]
    simp only [read, Except.map]
  exact unit_alone depth lexed rfl

theorem unit_equalsSign (depth : Nat) (rest : Text) :
    unit (depth + 1) ⟨' ' :: '=' :: ' ' :: rest, 1, false, .identifier⟩ =
      .ok (equalsSign, ⟨' ' :: rest, 3, true, .punctuator .equals⟩) := by
  have solid : Trivia.Solid ('=' :: ' ' :: rest) :=
    Trivia.solid_cons (by decide) fun slash => absurd slash (by decide)
  have read : Token.Lexeme.read .operator ('=' :: ' ' :: rest) =
      .ok (.plain (.punctuator .equals) ['='] (' ' :: rest)) := rfl
  let reader : Reader := ⟨' ' :: '=' :: ' ' :: rest, 1, false, .identifier⟩
  have lexed : Token.lex reader.mode reader.rest =
      .ok ⟨[' '], false, .plain (.punctuator .equals) ['='] (' ' :: rest)⟩ := by
    show Token.lex .operator (' ' :: '=' :: ' ' :: rest) = _
    rw [Token.lex, Trivia.skip_space (by decide), show Trivia.skip _ = _ from solid]
    simp only [Trivia.Gap.extend, read, Except.map]
    rfl
  exact unit_alone depth lexed rfl

/-- An assignment is scanned as its value is, behind the sign. -/
theorem statement_assigned (depth fuel : Nat) (rest : Text) :
    resumeScanned (unit (depth + 1)) (statement (unit (depth + 1)) (fuel + 1) assignedName)
        ⟨' ' :: '=' :: ' ' :: rest, 1, false, .identifier⟩ =
      (resume (unit (depth + 1)) (simple (unit (depth + 1)) fuel 3 (.punctuator .equals) none) >>=
        fun parts => pure (.other ⟨0, parts.1⟩, parts.2))
          ⟨' ' :: rest, 3, true, .punctuator .equals⟩ := by
  let nested := nestedIn (unit (depth + 1)) (statement (unit (depth + 1)) fuel)
  have isBody : statement (unit (depth + 1)) (fuel + 1) assignedName =
      named (unit (depth + 1)) (fuel + 1) nested assignedName >>= fun ending => pure (.of none 0 ending) :=
    rfl
  have goesOn : named (unit (depth + 1)) (fuel + 1) nested assignedName
        ⟨' ' :: '=' :: ' ' :: rest, 1, false, .identifier⟩ =
      simple (unit (depth + 1)) fuel 3 (.punctuator .equals) none
        ⟨' ' :: rest, 3, true, .punctuator .equals⟩ := by
    refine (bind_of_ok (unit_equalsSign depth rest) _).trans ?_
    rfl
  rw [isBody, resumeScanned_of]
  exact bind_run_congr (bind_run_congr goesOn _) _

/-! ## The value -/

abbrev Reader.atValue (value : Text) : Reader := ⟨value, 4, true, .punctuator .equals⟩

theorem simple_space (inner fuel stop : Nat) (last : Kind) (value : Text) :
    simple (unit inner) fuel stop last none ⟨' ' :: value, 3, true, .punctuator .equals⟩ =
      simple (unit inner) fuel stop last none (.atValue value) := by
  cases fuel with
  | zero => rfl
  | succ fuel => exact bind_run_congr (unit_space_alone inner _ value rfl) _

theorem moduleRun_assigned (value : Text) :
    Scan.moduleRun ("x = ".toList ++ value) =
      (resume (unit (value.length + 6)) (simple (unit (value.length + 6)) (value.length + 5) 3
          (.punctuator .equals) none) >>= fun parts =>
        statements (unit (value.length + 6)) (value.length + 6) (value.length + 5) (some parts.2) >>=
          fun others => pure (.other ⟨0, parts.1⟩ :: others)) (.atValue value) := by
  have noPreamble : Preamble.cut ("x = ".toList ++ value) = ([], "x = ".toList ++ value) :=
    Preamble.cut_none (show some 'x' ≠ _ by decide) rfl
  have place : Reader.behindPreamble ("x = ".toList ++ value) =
      ⟨'x' :: ' ' :: '=' :: ' ' :: value, 0, true, .punctuator .semicolon⟩ := by
    rw [Reader.behindPreamble, noPreamble]
    rfl
  have length : (Preamble.mask ("x = ".toList ++ value)).length = value.length + 4 := by
    rw [Preamble.mask_eq, noPreamble]
    rfl
  rw [Scan.moduleRun, length, place, moduleStatements, statements_next]
  refine (bind_of_ok (unit_assignedName _ _) _).trans ?_
  rw [statements_more _ _ _ (show assignedName.kind ≠ .eof by decide)]
  refine (bind_run_congr (statement_assigned _ _ _) _).trans ?_
  rw [bind_assoc]
  simp only [pure_bind]
  exact bind_run_congr (bind_run_congr (simple_space _ _ _ _ value) _) _

/-- An assignment is one statement where the module ends behind its value. -/
theorem split_assigned_iff {value : Text} {size : Nat} :
    Statement.split ("x = ".toList ++ value) = .ok [.other ⟨0, size⟩] ↔ ∃ next after,
      resume (unit (value.length + 6)) (simple (unit (value.length + 6)) (value.length + 5) 3
          (.punctuator .equals) none) (.atValue value) = .ok ((size, next), after) ∧
        next.kind = .eof := by
  rw [split_eq_ok_iff, moduleRun_assigned]
  constructor
  · rintro ⟨last, run⟩
    obtain ⟨⟨stop, next⟩, after, valueRun, run⟩ := bind_eq_ok run
    obtain ⟨others, final, rest, run⟩ := bind_eq_ok run
    cases run
    rcases statements_cases rest with ⟨ended, -⟩ | ⟨-, _, _, _, _, _, -, -, -, some⟩
    · exact ⟨next, after, valueRun, ended⟩
    · cases some
  · rintro ⟨next, after, run, ended⟩
    refine ⟨after, (bind_of_ok run _).trans ?_⟩
    rw [statements_done _ _ _ ended]
    rfl

/-! ## Parentheses -/

/-- A parenthesis that closes makes one unit of what stands in it. -/
theorem unit_parenthesis {depth position : Nat} {operand : Bool} {previous : Kind} {inner : Text}
    {close : Span} {after : Reader}
    (grouped : group (unit depth) .parenthesis depth
      ⟨inner, position + 1, true, .punctuator .parenthesisOpen⟩ = .ok (close, after)) :
    ∃ token last, unit (depth + 1) ⟨'(' :: inner, position, operand, previous⟩ = .ok (token, last) ∧
      token.kind = .punctuator .parenthesisOpen ∧ token.onNewLine = false ∧ last.rest = after.rest ∧
        last.position = after.position := by
  let reader : Reader := ⟨'(' :: inner, position, operand, previous⟩
  have lexed : Token.lex reader.mode reader.rest =
      .ok ⟨[], false, .plain (.punctuator .parenthesisOpen) ['('] inner⟩ := by
    have solid : Trivia.Solid ('(' :: inner) :=
      Trivia.solid_cons (by decide) fun slash => absurd slash (by decide)
    have read (mode : Token.Mode) : Token.Lexeme.read mode ('(' :: inner) =
        .ok (.plain (.punctuator .parenthesisOpen) ['('] inner) := by
      cases mode <;> rfl
    show Token.lex reader.mode ('(' :: inner) = _
    rw [Token.lex, show Trivia.skip _ = _ from solid]
    simp only [read, Except.map]
  let folded : Token := ⟨.punctuator .parenthesisOpen, ⟨position, close.stop⟩, ['('], false⟩
  let last : Reader :=
    { after with operand := previous.takesHeader, previous := .punctuator .parenthesisClose }
  refine ⟨folded, last, ?_, rfl, rfl, rfl, rfl⟩
  let first : Token := ⟨.punctuator .parenthesisOpen, ⟨position, position + 1⟩, ['('], false⟩
  have folds : foldGroup (unit depth) depth first ⟨inner, position + 1, operand, previous⟩ =
      .ok (folded, after) := by
    have isGroup : foldGroup (unit depth) depth first = follow true first.kind >>= fun _ =>
        group (unit depth) .parenthesis depth >>= fun stop => pure (first.upTo stop) := rfl
    rw [isGroup]
    let inside : Reader := ⟨inner, position + 1, true, .punctuator .parenthesisOpen⟩
    have noted : follow true first.kind ⟨inner, position + 1, operand, previous⟩ = .ok ((), inside) := rfl
    exact (bind_of_ok noted _).trans (bind_of_ok grouped _)
  have whole : foldUnit (unit depth) depth previous operand first =
      foldGroup (unit depth) depth first >>= fun unit =>
        follow previous.takesHeader (.punctuator .parenthesisClose) >>= fun _ => pure unit := rfl
  have run : foldUnit (unit depth) depth previous operand first ⟨inner, position + 1, operand, previous⟩ =
      .ok (folded, last) := by
    rw [whole]
    exact bind_of_ok folds _
  rw [unit, unitOver_run]
  exact (bind_of_ok (token_of_lex lexed) _).trans run

/-- Units that are a whole value: a parenthesis and an element. -/
def Kind.isValue (kind : Kind) : Bool := kind == .punctuator .parenthesisOpen || kind == .jsx

/-- A statement ends with the semicolon behind a value. -/
theorem simple_value {depth fuel stop : Nat} {kind : Kind} {reader last : Reader} {token : Token}
    (read : unit depth reader = .ok (token, last)) (isValue : token.kind.isValue = true)
    (noBreak : token.onNewLine = false) (rest : last.rest = [';']) :
    ∃ after, simple (unit depth) (fuel + 2) stop kind none reader = .ok (⟨last.position + 1, none⟩, after) ∧
      after.rest = [] := by
  have some : 0 < depth := by
    refine Nat.pos_of_ne_zero fun zero => ?_
    rw [zero] at read
    cases read
  have isKind : token.kind = .punctuator .parenthesisOpen ∨ token.kind = .jsx := by
    simpa [Kind.isValue] using isValue
  have noMember : last.previous.accessesMember = false := by
    obtain ⟨body, lies⟩ := unit_at read
    rw [lies.previous]
    rcases isKind with isKind | isKind <;> rw [isKind] <;> rfl
  have split : last.rest = [] ++ (Punctuator.semicolon.spelling ++ []) := rest
  obtain ⟨semicolon, after, is⟩ := ((Token.Spelled.mark .semicolon).readable rfl some).reads .nil
    (.inl (by decide)) split noMember
  refine ⟨after, ?_, is.rest⟩
  have isSemicolon : semicolon.isPunctuator .semicolon = true :=
    (semicolon.isPunctuator_iff .semicolon).mpr is.isKind
  have stops : semicolon.span.stop = last.position + 1 := by
    rw [(is.span split).1]
    rfl
  have noBrace : bracedOperand kind token last.operand = last.operand := by
    rcases isKind with isKind | isKind <;> simp [bracedOperand, Token.isPunctuator, isKind]
  have noted : noteBrace kind token last = .ok ((), last) := by rw [noteBrace_run, noBrace]
  have goesOn : endsBefore kind token = false := by rw [endsBefore, noBreak, Bool.false_and, Bool.false_and]
  have others : token.isPunctuator .semicolon = false ∧ token.kind ≠ .eof ∧
      token.kind.closes?.isSome = false := by
    rcases isKind with isKind | isKind <;> rw [Token.isPunctuator, isKind] <;> decide
  -- The loop takes two rounds: the value goes on, and the semicolon behind it ends the statement.
  refine (bind_of_ok read _).trans ?_
  simp only [others, if_false, Bool.false_eq_true, goesOn]
  refine (bind_of_ok noted _).trans ?_
  refine (bind_of_ok is.read _).trans ?_
  simp only [isSemicolon, if_true, stops]
  rfl

theorem size_assigned (value : Text) :
    Text.size ("x = ".toList ++ value) = (Reader.atValue value).finish := by
  have four : Text.size "x = ".toList = 4 := by decide
  rw [Text.size_append, four, Reader.finish]

/-- The value of an assignment may be put in parentheses, unless that hides that an operator is due. -/
theorem split_parenthesized {value : Text}
    (single : Statement.split ("x = ".toList ++ value ++ ";".toList) =
      .ok [.other ⟨0, Text.size ("x = ".toList ++ value ++ ";".toList)⟩])
    (undisputed : ¬ Disputed (.atValue (value ++ ";".toList))) :
    Statement.split ("x = (".toList ++ value ++ ");".toList) =
      .ok [.other ⟨0, Text.size ("x = (".toList ++ value ++ ");".toList)⟩] := by
  rw [List.append_assoc, size_assigned] at single
  obtain ⟨_, _, run, -⟩ := split_assigned_iff.mp single
  obtain ⟨ending, last, valueRun, run⟩ := bind_eq_ok run
  obtain ⟨_, _, -, run⟩ := bind_eq_ok run
  have ends : ending.stop = (Reader.atValue (value ++ ";".toList)).finish :=
    (congrArg Prod.fst (pure_eq_ok run).1).symm
  -- The value is passed over behind the parenthesis as it was behind the sign.
  let bare : Reader := ⟨value ++ [';'], 4, true, .punctuator .parenthesisOpen⟩
  have agrees (kind : Kind) : (Reader.atValue (value ++ ";".toList)).Agrees bare kind :=
    ⟨⟨rfl, rfl⟩, rfl, rfl, rfl, .inl rfl⟩
  let inside : Reader := ⟨value ++ [')', ';'], 5, true, .punctuator .parenthesisOpen⟩
  have twins : bracketSeam.Twins bare inside :=
    ⟨⟨value, rfl, rfl, .inr (.inl (Text.alike_stop rfl rfl _ _))⟩, rfl, rfl, rfl⟩
  have deeper : (value ++ ";".toList).length + 6 ≤ value.length + 8 := by
    rw [List.length_append]
    exact Nat.le_succ _
  obtain ⟨close, after, grouped, -, rest, position⟩ :=
    group_of_simple deeper (Nat.le_of_succ_le deeper) valueRun ends (Nat.le_succ 3) rfl rfl undisputed
      (fun token _ _ => agrees token.kind) twins
  obtain ⟨token, behind, read, isKind, noBreak, rest', position'⟩ := unit_parenthesis grouped
  obtain ⟨final, whole, ended⟩ := simple_value read (by rw [isKind]; rfl) noBreak (rest'.trans rest)
  have parts : "x = (".toList ++ value ++ ");".toList =
      "x = ".toList ++ '(' :: (value ++ [')', ';']) := by
    simp
  obtain ⟨next, past, readEnd, isEnd⟩ := @unit_end (value.length + 9) (Nat.succ_pos _) final
    (ended ▸ .nil)
  rw [parts, size_assigned]
  refine split_assigned_iff.mpr ⟨next, past, ?_, isEnd⟩
  have length : ('(' :: (value ++ [')', ';'])).length = value.length + 3 := by simp
  rw [length]
  have finish : (Reader.atValue ('(' :: (value ++ [')', ';']))).finish = behind.position + 1 := by
    have open_ : Text.size ('(' :: (value ++ [')', ';'])) = 1 + (value.size + 2) :=
      congrArg (1 + ·) (Text.size_append value [')', ';'])
    have bare_ : Text.size (value ++ ";".toList) = value.size + 1 := Text.size_append value [';']
    rw [position', position, Reader.finish, Reader.finish, open_, bare_]
    show 4 + (1 + (value.size + 2)) = 4 + (value.size + 1) + 1 + 1
    omega
  rw [finish]
  exact (bind_of_ok whole _).trans (bind_of_ok readEnd _)

/-- An object literal is divided, and a function is added to. -/
theorem split_parenthesized_object :
    Statement.split ("x = (".toList ++ "{a: 1} / function () {} + 1".toList ++ ");".toList) =
      .ok [.other ⟨0, Text.size ("x = (".toList ++ "{a: 1} / function () {} + 1".toList ++ ");".toList)⟩] := by
  have single : Statement.split ("x = ".toList ++ "{a: 1} / function () {} + 1".toList ++ ";".toList) =
      .ok [.other ⟨0, Text.size ("x = ".toList ++ "{a: 1} / function () {} + 1".toList ++ ";".toList)⟩] := by
    decide +kernel
  have undisputed : isUndisputed 30 30 (.atValue ("{a: 1} / function () {} + 1".toList ++ ";".toList)) = true := by
    decide +kernel
  exact split_parenthesized single (not_disputed undisputed)

/-- A function is divided at the level of the statement alone. -/
example : Statement.split "x = function () {} / 2;".toList = .ok [.other ⟨0, 23⟩] ∧
    (Statement.split "x = (function () {} / 2);".toList).isOk = false := by
  decide +kernel

end Relink
