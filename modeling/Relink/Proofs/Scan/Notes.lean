import Relink.Proofs.Scan.Semicolon

/-!
# What a unit takes from the notes

Templates, elements and groups are passed over without a look at what was noted before them, so a unit
depends on it in its first token and in the table of kinds alone. Where an operand is due, a slash and a
`<` are read otherwise; no other unit is.
-/

set_option autoImplicit false

namespace Relink

/-- Readers at the same place, whatever they have noted there. -/
structure Reader.Abreast (reader other : Reader) : Prop where
  rest : other.rest = reader.rest
  position : other.position = reader.position

namespace Scan

/-- What an action finds does not depend on what was noted before it. -/
def Heedless {α : Type} (action : Scan α) : Prop :=
  ∀ reader other value after, reader.Abreast other → action reader = .ok (value, after) →
    ∃ otherAfter, action other = .ok (value, otherAfter) ∧ after.Abreast otherAfter

namespace Heedless

variable {α β : Type}

theorem pure (value : α) : Heedless (Pure.pure value : Scan α) := by
  intro reader other result after abreast run
  cases run
  exact ⟨other, rfl, abreast⟩

theorem of_failing {action : Scan α} (fails : ∀ reader result, action reader ≠ .ok result) :
    Heedless action :=
  fun reader _ value after _ run => absurd run (fails reader (value, after))

theorem fail (fault : SyntaxFault) : Heedless (Scan.fail fault : Scan α) :=
  of_failing fun _ _ run => by cases run

theorem outOfFuel : Heedless (Scan.outOfFuel : Scan α) := of_failing fun _ _ run => by cases run

theorem bind {action : Scan α} {next : α → Scan β} (first : Heedless action)
    (second : ∀ value, Heedless (next value)) : Heedless (action >>= next) := by
  intro reader other result after abreast run
  obtain ⟨value, middle, firstRun, secondRun⟩ := bind_eq_ok run
  obtain ⟨otherMiddle, otherFirst, between⟩ := first reader other value middle abreast firstRun
  obtain ⟨otherAfter, otherSecond, last⟩ :=
    second value middle otherMiddle result after between secondRun
  exact ⟨otherAfter, (bind_of_ok otherFirst next).trans otherSecond, last⟩

theorem ite {condition : Prop} [Decidable condition] {yes no : Scan α} (holds : Heedless yes)
    (fails : Heedless no) : Heedless (if condition then yes else no) := by
  split
  · exact holds
  · exact fails

/-- What begins with a note of its own finds nothing else noted. -/
theorem of_follow (operand : Bool) (previous : Kind) (next : Unit → Scan α) :
    Heedless (follow operand previous >>= next) := by
  intro reader other value after abreast run
  refine ⟨after, ?_, ⟨rfl, rfl⟩⟩
  rw [← run]
  show next () { other with operand := operand, previous := previous } =
    next () { reader with operand := operand, previous := previous }
  rw [abreast.rest, abreast.position]

end Heedless

/-! ## Actions of the reader -/

theorem token_heedless (mode : Token.Mode) : Heedless (token mode) := by
  intro reader other value after abreast run
  obtain ⟨found, lexed, rfl, rfl⟩ := token_eq_ok run
  rw [← abreast.rest] at lexed
  refine ⟨other.past found, ?_, ⟨rfl, ?_⟩⟩
  · rw [token_of_lex lexed, Reader.tokenOf, Reader.tokenOf, abreast.position]
  · simp only [Reader.past, Reader.advance, abreast.position]

theorem templatePart_heedless (opening : Nat) : Heedless (templatePart opening) := by
  intro reader other ending after abreast run
  cases part : Token.templatePart reader.rest with
  | error fault => simp [templatePart, part] at run
  | ok parts =>
      obtain ⟨chars, found, closing, rest⟩ := parts
      simp only [templatePart, part, Except.ok.injEq, Prod.mk.injEq] at run
      obtain ⟨rfl, rfl⟩ := run
      refine ⟨other.advance (chars ++ closing) rest, ?_, ⟨rfl, ?_⟩⟩
      · simp only [templatePart, abreast.rest, part]
      · simp only [Reader.advance, abreast.position]

theorem elementText_heedless (opening : Nat) : Heedless (elementText opening) := by
  intro reader other value after abreast run
  obtain ⟨more, rfl⟩ := elementText_eq_ok run
  refine ⟨other.advance (reader.rest.takeWhile isElementText) (reader.rest.dropWhile isElementText),
    ?_, ⟨rfl, ?_⟩⟩
  · simp only [elementText, abreast.rest, List.isEmpty_iff, more, if_false]
  · simp only [Reader.advance, abreast.position]

theorem position_heedless : Heedless position := by
  intro reader other value after abreast run
  cases run
  exact ⟨other, by rw [position, abreast.position], abreast⟩

theorem require_heedless (kind : Kind) (token : Token) : Heedless (require kind token) :=
  .ite (.pure ()) (.fail _)

/-! ## Templates and elements -/

section Fold

variable {substitution : Scan Unit} (substitutions : Heedless substitution)

include substitutions

theorem templateRest_heedless (opening fuel : Nat) (ending : Literal) :
    Heedless (templateRest substitution opening fuel ending) := by
  induction fuel generalizing ending with
  | zero => exact .outOfFuel
  | succ fuel ih =>
      refine .ite ?_ (.pure ())
      exact .bind substitutions fun _ => .bind (templatePart_heedless opening) ih

theorem template_heedless (fuel : Nat) (first : Token) (ending : Literal) :
    Heedless (template substitution fuel first ending) :=
  .bind (templateRest_heedless substitutions _ fuel ending) fun _ =>
    .bind position_heedless fun _ => .pure _

omit substitutions

theorem tagToken_heedless : Heedless tagToken :=
  .bind (token_heedless .tag) fun _ => .ite (.fail _) (.pure _)

theorem elementName_heedless (fuel : Nat) (token : Token) : Heedless (elementName fuel token) := by
  induction fuel generalizing token with
  | zero => exact .outOfFuel
  | succ fuel ih =>
      refine .ite (.bind tagToken_heedless fun next => .ite ?_ (.pure _)) (.fail _)
      exact .bind tagToken_heedless fun part => .bind (ih part) fun _ => .pure _

theorem tagName_heedless (fuel : Nat) (token : Token) : Heedless (tagName fuel token) :=
  .ite (.pure _) (elementName_heedless fuel token)

theorem closingTag_heedless (name : Text) (fuel : Nat) (opening : Token) :
    Heedless (closingTag name fuel opening) := by
  refine .bind tagToken_heedless fun first => .bind (tagName_heedless fuel first) fun named => ?_
  exact .bind (require_heedless _ named.2) fun _ => .ite (.pure _) (.fail _)

section Element

variable {elementIn : Token → Scan Token} (elements : ∀ token, Heedless (elementIn token))

include substitutions elements

theorem attributes_heedless (fuel : Nat) (token : Token) :
    Heedless (attributes substitution elementIn fuel token) := by
  induction fuel generalizing token with
  | zero => exact .outOfFuel
  | succ fuel ih =>
      have goesOn : Heedless (tagToken >>= attributes substitution elementIn fuel) :=
        .bind tagToken_heedless ih
      refine .ite (.pure _) (.ite ?_ (.ite ?_ (.ite ?_ (.ite goesOn (.fail _)))))
      · exact .bind tagToken_heedless fun close => .bind (require_heedless _ close) fun _ => .pure _
      · exact .bind substitutions fun _ => goesOn
      · exact .bind (elements token) fun _ => goesOn

theorem children_heedless (name : Text) (opening fuel : Nat) :
    Heedless (children substitution elementIn name opening fuel) := by
  induction fuel with
  | zero => exact .outOfFuel
  | succ fuel ih =>
      refine .bind (elementText_heedless opening) fun _ => .bind tagToken_heedless fun child => ?_
      refine .ite (.bind substitutions fun _ => ih) (.ite (closingTag_heedless name fuel child) ?_)
      exact .ite (.bind (elements child) fun _ => ih) (.fail _)

theorem elementRest_heedless (fuel : Nat) (opening : Token) (named : Text × Token) :
    Heedless (elementRest substitution elementIn fuel opening named) := by
  refine .bind (attributes_heedless substitutions elements fuel named.2) fun ending => ?_
  cases ending with
  | selfClosed stop => exact .pure stop
  | opened => exact children_heedless substitutions elements named.1 opening.span.start fuel

end Element

include substitutions in
theorem element_heedless (fuel : Nat) (opening : Token) :
    Heedless (element substitution fuel opening) := by
  induction fuel generalizing opening with
  | zero => exact .outOfFuel
  | succ fuel ih =>
      refine .bind tagToken_heedless fun first => .bind (tagName_heedless (fuel + 1) first) fun named => ?_
      exact .bind (elementRest_heedless substitutions ih (fuel + 1) opening named) fun _ => .pure _

end Fold

/-! ## Units -/

theorem foldOperand_heedless (inner : Scan Token) (fuel : Nat) (operand : Bool) (token : Token) :
    Heedless (foldOperand inner fuel operand token) := by
  have substitutions : Heedless (substitution inner fuel) := .of_follow _ _ _
  rcases foldOperand_cases inner fuel operand token with
    ⟨-, ending, -, folds⟩ | ⟨-, folds⟩ | ⟨-, folds⟩
  · rw [folds]
    exact template_heedless substitutions fuel token ending
  · rw [folds]
    exact element_heedless substitutions fuel token
  · rw [folds]
    exact .pure token

theorem foldGroup_heedless (inner : Scan Token) (fuel : Nat) (token : Token) :
    Heedless (foldGroup inner fuel token) := by
  unfold foldGroup
  split
  · exact .of_follow _ _ _
  · exact .pure token

/-- Kinds that are read otherwise where an operand is due: a regular expression begins with a slash and
an element with a `<`. -/
def beginsOperand : Kind → Bool
  | .punctuator .slash | .punctuator .slashEquals | .punctuator .chevronLeft => true
  | _ => false

end Scan

open Scan

theorem Token.slash_of_read {rest : Text} {lexeme : Lexeme}
    (found : Lexeme.read .operator ('/' :: rest) = .ok lexeme) :
    lexeme.kind = .punctuator .slash ∨ lexeme.kind = .punctuator .slashEquals := by
  have only : ∀ p ∈ Punctuator.longestFirst, p.spelling.head? = some '/' →
      p = .slash ∨ p = .slashEquals := by
    decide
  rw [Lexeme.read_cons] at found
  by_cases comment : rest.head? = some '*'
  · rw [comment] at found
    cases found
  · have isClass : LexemeClass.of .operator '/' rest.head? = .punctuator := by
      have noStar : (rest.head? == some '*') = false := beq_eq_false_iff_ne.mpr comment
      have foreign : isForeign '/' = false := by decide
      have start : isWordStart '/' = false := by decide
      simp [LexemeClass.of, noStar, foreign, start]
    rw [isClass, Lexeme.readAs] at found
    split at found
    · rename_i p stands
      cases found
      have starts : p.spelling.head? = some '/' := by
        obtain ⟨behind, whole⟩ := punctuator?_stands stands
        have nonempty := spelling_ne_nil p
        cases shape : p.spelling with
        | nil => exact absurd shape nonempty
        | cons d chars =>
            rw [shape] at whole
            rw [List.head?_cons, (List.cons.inj whole).1]
      rcases only p (mem_longestFirst p) starts with rfl | rfl
      · exact .inl rfl
      · exact .inr rfl
    · cases found

/-- Modes in which a token is of the same class read it the same. -/
theorem Token.lex_mode_congr {mode other : Mode} {text : Text} {found : Lexed}
    (lexed : lex mode text = .ok found) (tag : (other == .tag) = (mode == .tag))
    (same : ∀ c rest, Lexeme.read mode (c :: rest) = .ok found.lexeme →
      LexemeClass.of other c rest.head? = LexemeClass.of mode c rest.head?) :
    lex other text = .ok found := by
  unfold lex at lexed ⊢
  cases inner : Lexeme.read mode (Trivia.skip text).rest with
  | error fault => simp [inner, Except.map] at lexed
  | ok lexeme =>
      simp only [inner, Except.map, Except.ok.injEq] at lexed
      subst lexed
      suffices again : Lexeme.read other (Trivia.skip text).rest = .ok lexeme by
        simp only [again, Except.map]
      cases rest : (Trivia.skip text).rest with
      | nil =>
          rw [rest] at inner
          exact inner
      | cons c behind =>
          rw [rest] at inner
          have sameClass := same c behind inner
          rw [Lexeme.read_cons] at inner ⊢
          rw [sameClass, ← inner]
          cases LexemeClass.of mode c behind.head? with
          | word => simp only [Lexeme.readAs, tag]
          | _ => rfl

/-- What is read where a slash divides is read where an operand is due, slashes excepted. -/
theorem Token.lex_operand {text : Text} {found : Lexed} (lexed : lex .operator text = .ok found)
    (other : beginsOperand found.lexeme.kind = false) : lex .operand text = .ok found := by
  refine lex_mode_congr lexed rfl fun c rest read => ?_
  have noSlash : c ≠ '/' := by
    rintro rfl
    rcases slash_of_read read with isSlash | isSlash
    · rw [isSlash] at other
      cases other
    · rw [isSlash] at other
      cases other
  simp [LexemeClass.of, noSlash]

theorem Token.regex_of_read {rest : Text} {lexeme : Lexeme}
    (found : Lexeme.read .operand ('/' :: rest) = .ok lexeme) : lexeme.kind = .literal .regex := by
  rw [Lexeme.read_cons] at found
  by_cases comment : rest.head? = some '*'
  · rw [comment] at found
    cases found
  · have isClass : LexemeClass.of .operand '/' rest.head? = .regex := by
      have noStar : (rest.head? == some '*') = false := beq_eq_false_iff_ne.mpr comment
      have foreign : isForeign '/' = false := by decide
      have start : isWordStart '/' = false := by decide
      simp [LexemeClass.of, noStar, foreign, start]
    rw [isClass, Lexeme.readAs] at found
    cases body : regex rest with
    | error fault =>
        rw [body] at found
        cases found
    | ok parts =>
        rw [body] at found
        cases found
        rfl

/-- What is read where an operand is due is read where a slash divides, regular expressions excepted. -/
theorem Token.lex_operator {text : Text} {found : Lexed} (lexed : lex .operand text = .ok found)
    (noRegex : found.lexeme.kind ≠ .literal .regex) : lex .operator text = .ok found := by
  refine lex_mode_congr lexed rfl fun c rest read => ?_
  have noSlash : c ≠ '/' := by
    rintro rfl
    exact noRegex (regex_of_read read)
  simp [LexemeClass.of, noSlash]

/-- Notes that lead a unit of kind `kind` to the same reading. -/
structure Reader.Agrees (reader other : Reader) (kind : Kind) : Prop extends reader.Abreast other where
  member : other.previous.accessesMember = reader.previous.accessesMember
  header : other.previous.takesHeader = reader.previous.takesHeader
  takes : other.previous.takesOperand = reader.previous.takesOperand
  operand : other.operand = reader.operand ∨ reader.operand = false ∧ beginsOperand kind = false

namespace Scan

theorem plainKind_congr {before other : Kind} (member : other.accessesMember = before.accessesMember)
    (kind : Kind) : plainKind other kind = plainKind before kind := by
  cases kind with
  | keyword word => simp only [plainKind, member]
  | _ => rfl

theorem operandAfter_congr {before other : Kind} (header : other.takesHeader = before.takesHeader)
    (takes : other.takesOperand = before.takesOperand) (kind : Kind) :
    operandAfter other kind = operandAfter before kind := by
  unfold operandAfter
  rw [header, takes]

theorem foldOperand_of_dividing {inner : Scan Token} {fuel : Nat} {first : Token}
    (other : beginsOperand first.kind = false) (operand : Bool) :
    foldOperand inner fuel operand first = foldOperand inner fuel false first := by
  have noElement : first.kind ≠ .punctuator .chevronLeft := by
    intro isChevron
    rw [isChevron] at other
    cases other
  unfold foldOperand
  split
  · rfl
  · rfl
  · exact absurd (by assumption) noElement
  · rfl

/-- Behind an operand the first token of a unit begins another one only if the unit does. -/
theorem beginsOperand_first {inner : Scan Token} {fuel : Nat} {before : Kind} {first token : Token}
    {reader after : Reader}
    (run : foldUnit inner fuel before false first reader = .ok (token, after))
    (other : beginsOperand token.kind = false) : beginsOperand first.kind = false := by
  refine Bool.eq_false_iff.mpr fun begins => ?_
  obtain ⟨p, isKind⟩ : ∃ p, first.kind = .punctuator p := by
    unfold beginsOperand at begins
    split at begins
    · exact ⟨_, by assumption⟩
    · exact ⟨_, by assumption⟩
    · exact ⟨_, by assumption⟩
    · cases begins
  have folds : foldOperand inner fuel false first = pure first := by
    unfold foldOperand
    rw [isKind]
    split
    · rename_i isTemplate
      cases isTemplate
    · rename_i isTemplate
      cases isTemplate
    · rfl
    · rfl
  simp only [foldUnit, folds, pure_bind, isKind, plainKind] at run
  obtain ⟨folded, last, groupRun, run⟩ := bind_eq_ok run
  obtain ⟨⟨⟩, noted, -, run⟩ := bind_eq_ok run
  cases run
  rw [foldGroup_kind groupRun, ← isKind, begins] at other
  cases other

/-- What is done with the first token of a unit is done elsewhere too. -/
theorem foldUnit_elsewhere {inner : Scan Token} {fuel : Nat} {before otherBefore : Kind}
    {operand otherOperand : Bool} {first token : Token} {reader other after : Reader}
    (run : foldUnit inner fuel before operand first reader = .ok (token, after))
    (abreast : reader.Abreast other) (member : otherBefore.accessesMember = before.accessesMember)
    (same : foldOperand inner fuel otherOperand first = foldOperand inner fuel operand first) :
    foldUnit inner fuel otherBefore otherOperand first other =
      .ok (token, { after with operand := operandAfter otherBefore token.kind }) := by
  obtain ⟨whole, behind, operandRun, run⟩ := bind_eq_ok run
  obtain ⟨folded, last, groupRun, run⟩ := bind_eq_ok run
  obtain ⟨otherBehind, otherOperand, abreast⟩ :=
    foldOperand_heedless _ _ _ _ _ _ _ _ abreast operandRun
  obtain ⟨otherLast, otherGroup, abreast⟩ :=
    foldGroup_heedless _ _ _ _ _ _ _ abreast groupRun
  rw [foldUnit, same, bind_of_ok otherOperand, plainKind_congr member]
  refine (bind_of_ok otherGroup _).trans ?_
  have kind := foldGroup_kind groupRun
  cases run
  rw [kind]
  show Except.ok (token, { otherLast with operand := _, previous := _ }) = _
  rw [abreast.rest, abreast.position]

/-- A unit is read the same where as little an operand is due; only what is noted behind it may differ. -/
theorem unit_elsewhere {depth : Nat} {reader other after : Reader} {token : Token}
    (read : unit depth reader = .ok (token, after)) (abreast : reader.Abreast other)
    (member : other.previous.accessesMember = reader.previous.accessesMember)
    (operand : other.operand = reader.operand ∨
      reader.operand = false ∧ beginsOperand token.kind = false) :
    unit depth other =
      .ok (token, { after with operand := operandAfter other.previous token.kind }) := by
  cases depth with
  | zero => cases read
  | succ depth =>
      rw [unit, unitOver_run] at read ⊢
      obtain ⟨first, middle, tokenRun, read⟩ := bind_eq_ok read
      -- Where only one of the readers expects an operand, the unit begins none.
      have sameFirst : ∃ otherMiddle, Scan.token other.mode other = .ok (first, otherMiddle) ∧
          middle.Abreast otherMiddle ∧
          foldOperand (unit depth) depth other.operand first =
            foldOperand (unit depth) depth reader.operand first := by
        rcases operand with same | ⟨dividing, noOperand⟩
        · obtain ⟨otherMiddle, again, abreast⟩ :=
            token_heedless reader.mode reader other first middle abreast tokenRun
          exact ⟨otherMiddle, by rw [Reader.mode, same]; exact again, abreast, by rw [same]⟩
        · rw [dividing] at read
          have noFirst := beginsOperand_first read noOperand
          rw [Reader.mode, dividing] at tokenRun
          obtain ⟨otherMiddle, again, abreast⟩ :=
            token_heedless .operator reader other first middle abreast tokenRun
          refine ⟨otherMiddle, ?_, abreast, by rw [dividing, foldOperand_of_dividing noFirst]⟩
          cases due : other.operand with
          | false => rw [Reader.mode, due]; exact again
          | true =>
              obtain ⟨found, lexed, rfl, rfl⟩ := token_eq_ok again
              rw [Reader.mode, due]
              exact token_of_lex (Token.lex_operand lexed noFirst)
      obtain ⟨otherMiddle, otherToken, abreast, sameFold⟩ := sameFirst
      rw [bind_of_ok otherToken]
      exact foldUnit_elsewhere read abreast member sameFold

/-- A unit is read the same where other notes agree on it. -/
theorem unit_agrees {depth : Nat} {reader other after : Reader} {token : Token}
    (read : unit depth reader = .ok (token, after)) (agrees : reader.Agrees other token.kind) :
    unit depth other = .ok (token, after) := by
  obtain ⟨body, lies⟩ := unit_at read
  rw [unit_elsewhere read agrees.toAbreast agrees.member agrees.operand,
    operandAfter_congr agrees.header agrees.takes, ← lies.operand]

/-- A unit that begins with no regular expression and no `<` is read as well where a slash divides. -/
theorem unit_dividing {depth : Nat} {reader after : Reader} {token : Token} {found : Token.Lexed}
    (read : unit depth reader = .ok (token, after)) (due : reader.operand = true)
    (lexed : Token.lex .operand reader.rest = .ok found) (noRegex : found.lexeme.kind ≠ .literal .regex)
    (noElement : found.lexeme.kind ≠ .punctuator .chevronLeft) :
    unit depth { reader with operand := false } = .ok (token, after) := by
  cases depth with
  | zero => cases read
  | succ depth =>
      obtain ⟨body, lies⟩ := unit_at read
      have operand := lies.operand
      rw [unit, unitOver_run] at read ⊢
      rw [Reader.mode, due, if_pos rfl] at read
      rw [bind_of_ok (token_of_lex lexed)] at read
      let other : Reader := { reader with operand := false }
      have first : Scan.token other.mode other = .ok (other.tokenOf found, other.past found) :=
        token_of_lex (Token.lex_operator lexed noRegex)
      refine (bind_of_ok first _).trans ?_
      have same : foldOperand (unit depth) depth false (reader.tokenOf found) =
          foldOperand (unit depth) depth true (reader.tokenOf found) := by
        unfold foldOperand
        split
        · rfl
        · rfl
        · rename_i isElement
          exact absurd isElement noElement
        · rfl
      have abreast : (reader.past found).Abreast (other.past found) := ⟨rfl, rfl⟩
      exact (foldUnit_elsewhere read abreast rfl same).trans (by rw [← operand])

end Scan

end Relink
