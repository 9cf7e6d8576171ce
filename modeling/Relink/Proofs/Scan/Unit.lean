import Relink.Proofs.Scan.Group
import Relink.Scan.Unit

/-!
# Units beside a seam

A unit that ends before a seam is followed, and how it lies in the text is said: behind the gap that
is skipped before it, through the end of its last token.
-/

set_option autoImplicit false

namespace Relink

open Scan

/-! ## Tokens -/

/-- Templates are the tokens whose span is not all of them. -/
def Kind.isTemplate : Kind → Bool
  | .literal .template | .literal .templateHead => true
  | _ => false

/-- The trivia that a reader stands before. -/
abbrev Reader.gap (reader : Reader) : Text := (Trivia.skip reader.rest).chars

/-- How a token lies in the text that a reader stands before. -/
structure TokenAt (reader : Reader) (token : Token) (body : Text) (after : Reader) : Prop where
  passes : reader.Passes (reader.gap ++ body) after
  onNewLine : token.onNewLine = (Trivia.skip reader.rest).newline
  empty : token.kind = .eof ↔ body = []
  ended : token.kind = .eof → after.rest = []
  start : token.kind.isTemplate = false →
    token.span.start = reader.position + reader.gap.size
  stop : token.kind.isTemplate = false → token.span.stop = after.position
  template : token.kind.isTemplate = true →
    token.span.start = reader.position + reader.gap.size + 1
  punctuator : ∀ p, token.kind = .punctuator p → body = p.spelling
  string : token.kind = .literal .string → token.lexeme = body ∧
    ∃ quote content, (quote = '\x22' ∨ quote = '\x27') ∧ body = quote :: content ++ [quote] ∧
      Token.IsContent quote content

theorem isTemplate_of_isRunKind {kind : Kind} (isRun : Token.isRunKind kind = true) :
    kind.isTemplate = false := by
  cases kind with
  | literal value => cases value <;> first | rfl | cases isRun
  | _ => rfl

namespace TokenAt

variable {mode : Token.Mode} {reader : Reader} {gap chars closing rest : Text} {newline : Bool}

/-- A token without delimiters spans all that lies behind its gap. -/
theorem of_plain {kind : Kind}
    (lexed : Token.lex mode reader.rest = .ok ⟨gap, newline, .plain kind chars rest⟩)
    (noTemplate : kind.isTemplate = false) (punctuator : ∀ p, kind = .punctuator p → chars = p.spelling)
    (string : kind = .literal .string → ∃ quote content, (quote = '\x22' ∨ quote = '\x27') ∧
      chars = quote :: content ++ [quote] ∧ Token.IsContent quote content) :
    TokenAt reader (reader.tokenOf ⟨gap, newline, .plain kind chars rest⟩) chars
      (reader.past ⟨gap, newline, .plain kind chars rest⟩) := by
  obtain ⟨rfl, rfl⟩ : gap = reader.gap ∧ newline = (Trivia.skip reader.rest).newline := Token.lex_gap lexed
  have whole := Token.Lexeme.whole_plain kind chars rest
  have passes := Reader.passes_past lexed
  have empty := Token.lex_eof_iff lexed
  rw [whole] at passes empty
  refine ⟨passes, rfl, empty, fun eof => Token.lex_rest_of_empty lexed (whole.trans (empty.mp eof)),
    fun _ => ?_, fun _ => ?_, fun template => ?_, punctuator, fun isString => ⟨rfl, string isString⟩⟩
  · simp [Reader.tokenOf, Token.Lexeme.plain]
  · simp [Reader.tokenOf, Reader.past, Reader.advance, Token.Lexeme.plain, Nat.add_assoc]
  · exact absurd template (Bool.eq_false_iff.mp noTemplate)

/-- The span of a part of a template begins behind its backtick. -/
theorem of_template {ending : Literal}
    (lexed : Token.lex mode reader.rest = .ok ⟨gap, newline, .literal ending, ['\x60'], chars, closing, rest⟩)
    (isTemplate : Kind.isTemplate (.literal ending) = true) :
    ∃ body, TokenAt reader (reader.tokenOf ⟨gap, newline, .literal ending, ['\x60'], chars, closing, rest⟩) body
      (reader.past ⟨gap, newline, .literal ending, ['\x60'], chars, closing, rest⟩) := by
  obtain ⟨rfl, rfl⟩ : gap = reader.gap ∧ newline = (Trivia.skip reader.rest).newline := Token.lex_gap lexed
  have empty := Token.lex_eof_iff lexed
  refine ⟨_, Reader.passes_past lexed, rfl, empty, fun eof => Token.lex_rest_of_empty lexed (empty.mp eof),
    fun plain => ?_, fun plain => ?_, fun _ => rfl, ?_, fun string => ?_⟩
  · exact absurd isTemplate (Bool.eq_false_iff.mp plain)
  · exact absurd isTemplate (Bool.eq_false_iff.mp plain)
  · rintro p ⟨⟩
  · cases string
    cases isTemplate

end TokenAt

theorem token_at {mode : Token.Mode} {reader after : Reader} {token : Token}
    (run : Scan.token mode reader = .ok (token, after)) :
    ∃ body, TokenAt reader token body after := by
  obtain ⟨⟨gap, newline, lexeme⟩, lexed, rfl, rfl⟩ := token_eq_ok run
  rcases Token.lex_form lexed with rfl | form
  · exact ⟨_, .of_plain lexed rfl (by rintro p ⟨⟩) (by rintro ⟨⟩)⟩
  cases form with
  | run isRun =>
      refine ⟨_, .of_plain lexed (isTemplate_of_isRunKind isRun) ?_ ?_⟩
      · rintro p rfl
        cases isRun
      · rintro rfl
        cases isRun
  | string isQuote clean =>
      exact ⟨_, .of_plain lexed rfl (by rintro p ⟨⟩) fun _ => ⟨_, _, isQuote, rfl, clean⟩⟩
  | template marks => exact TokenAt.of_template lexed (by rcases marks with ⟨rfl, -⟩ | rfl <;> rfl)
  | punctuator =>
      refine ⟨_, .of_plain lexed rfl ?_ (by rintro ⟨⟩)⟩
      rintro p ⟨⟩
      rfl

theorem foldOperand_cases (inner : Scan Token) (fuel : Nat) (operand : Bool) (token : Token) :
    (token.kind.isTemplate = true ∧ ∃ ending, token.kind = .literal ending ∧
        foldOperand inner fuel operand token =
          template (substitution inner fuel) fuel token ending) ∨
      (token.kind = .punctuator .chevronLeft ∧ foldOperand inner fuel operand token =
        element (substitution inner fuel) fuel token) ∨
      (token.kind.isTemplate = false ∧ foldOperand inner fuel operand token = pure token) := by
  unfold foldOperand
  split
  · rename_i isTemplate
    rw [isTemplate]
    exact .inl ⟨rfl, _, rfl, rfl⟩
  · rename_i isTemplate
    rw [isTemplate]
    exact .inl ⟨rfl, _, rfl, rfl⟩
  · rename_i isOpening
    rw [isOpening]
    cases operand with
    | true => exact .inr (.inl ⟨rfl, rfl⟩)
    | false => exact .inr (.inr ⟨rfl, rfl⟩)
  · rename_i noTemplate noHead noOpening
    refine .inr (.inr ⟨?_, rfl⟩)
    unfold Kind.isTemplate
    split
    · rename_i isTemplate
      exact absurd isTemplate noTemplate
    · rename_i isHead
      exact absurd isHead noHead
    · rfl

/-! ## Following units -/

namespace Seam

variable {seam : Seam} {inner otherInner : Scan Token}

section Fold

variable (inners : seam.Follows inner otherInner (·.shift seam.shift)) {fuel otherFuel : Nat}
  (enough : fuel ≤ otherFuel)

include inners enough

theorem Follows.foldGroup (token : Token) :
    seam.Follows (foldGroup inner fuel token) (foldGroup otherInner otherFuel (token.shift seam.shift))
      (·.shift seam.shift) := by
  simp only [Scan.foldGroup, Token.kind_shift]
  cases token.kind.opens? with
  | none => exact .pure rfl
  | some bracket =>
      exact .seq (.follow _ _) fun _ => .seq (.group inners bracket enough) fun stop => .pure rfl

theorem Follows.foldOperand (operand : Bool) {token : Token}
    (behindTick : token.kind.isTemplate = true → 1 ≤ token.span.start) :
    seam.Follows (foldOperand inner fuel operand token)
      (foldOperand otherInner otherFuel operand (token.shift seam.shift)) (·.shift seam.shift) := by
  have substitutions := Follows.substitution inners enough
  unfold Scan.foldOperand
  rw [Token.kind_shift]
  split
  · rename_i isTemplate
    exact .template substitutions enough (behindTick (by rw [isTemplate]; rfl)) _
  · rename_i isTemplate
    exact .template substitutions enough (behindTick (by rw [isTemplate]; rfl)) _
  · exact .ite (fun _ => .element substitutions enough token) fun _ => .pure rfl
  · exact .pure rfl

theorem Follows.unitOver :
    seam.Follows (unitOver inner fuel) (unitOver otherInner otherFuel) (·.shift seam.shift) := by
  refine .seq .previous fun before => .seq .operandDue fun operand => ?_
  apply Seam.Follows.bind (.token _)
  intro reader first after run
  have behindTick : first.kind.isTemplate = true → 1 ≤ first.span.start := by
    obtain ⟨body, lies⟩ := token_at run
    intro template
    rw [lies.template template]
    exact Nat.le_add_left ..
  apply Seam.Follows.seq (.foldOperand inners enough operand behindTick)
  intro whole
  apply Seam.Follows.seq (.foldGroup inners enough _)
  intro unit
  exact .seq (.follow _ _) fun _ => .pure rfl

end Fold

theorem Follows.unit {fuel otherFuel : Nat} (enough : fuel ≤ otherFuel) :
    seam.Follows (unit fuel) (unit otherFuel) (·.shift seam.shift) := by
  induction fuel generalizing otherFuel with
  | zero => exact .outOfFuel _ _
  | succ fuel ih =>
      obtain ⟨otherFuel, rfl⟩ := Nat.exists_eq_add_one_of_ne_zero (by omega : otherFuel ≠ 0)
      exact .unitOver (ih (by omega)) (by omega)

end Seam

/-- No unit is read without a bound on the depth of the units in it. -/
theorem exists_succ_of_unit {depth otherDepth : Nat} (deeper : depth ≤ otherDepth) {reader after : Reader} {token : Token}
    (read : unit depth reader = .ok (token, after)) : ∃ less, otherDepth = less + 1 := by
  cases depth with
  | zero => cases read
  | succ depth => exact ⟨otherDepth - 1, by omega⟩

end Relink
