import Relink.Proofs.Token.Gap

/-!
# What the lexer sees

The lexer sees a token, the gap before it and how the text behind it begins. A text that goes on
otherwise is read the same.
-/

set_option autoImplicit false

namespace Relink.Token

/-- No comment starts with a token, also when the text behind the token changes. -/
theorem Lexeme.Extent.solid {mode : Mode} {text other : Text} {lexeme : Lexeme}
    (extent : Lexeme.Extent mode text lexeme) (solid : Trivia.Solid text)
    (fits : Text.Alike lexeme.rest other ∨ Text.Sealed lexeme.whole) :
    Trivia.Solid (lexeme.whole ++ other) := by
  have split := extent.split
  have again := extent.congr _ (.inl (Text.Alike.refl lexeme.rest))
  rw [split] at again
  cases whole : lexeme.whole with
  | nil => exact absurd whole extent.nonempty
  | cons c chars =>
      rw [whole, List.cons_append] at split
      subst split
      apply Trivia.solid_cons solid.noSpace
      rintro rfl
      have noBlock : (chars ++ lexeme.rest).head? ≠ some '*' := by
        intro star
        rw [Lexeme.read_cons, star] at again
        have comment : LexemeClass.of mode '/' (some '*') = .comment := by cases mode <;> rfl
        rw [comment] at again
        cases again
      cases chars with
      | cons d chars => exact ⟨solid.noLineComment, noBlock⟩
      | nil =>
          rw [whole] at fits
          have alike := fits.resolve_right (Text.Unsealed.not_sealed (by simp [Text.Unsealed]; decide))
          have before {d : Char} (noStop : Text.isStop d = false) (first : other.head? = some d) :
              lexeme.rest.head? = some d := alike.1.head?_eq_some noStop first
          exact ⟨fun slash => solid.noLineComment (before (by decide) slash),
            fun star => noBlock (before (by decide) star)⟩

/-! ## Gap and token -/

/-- What is read from the front of a text: the end of the text behind its last gap, or a token. -/
inductive Lexed.Read (mode : Mode) (text : Text) : Lexed → Prop where
  | eof {gap : Text} {newline : Bool} : gap = text → Trivia.skip text = ⟨gap, newline, []⟩ →
      Read mode text ⟨gap, newline, .plain .eof [] []⟩
  | token {gap : Text} {newline : Bool} {lexeme : Lexeme} :
      Trivia.skip text = ⟨gap, newline, lexeme.whole ++ lexeme.rest⟩ →
      Lexeme.Extent mode (lexeme.whole ++ lexeme.rest) lexeme → Read mode text ⟨gap, newline, lexeme⟩

/-- The same gap and token, with another text behind them. -/
def Lexed.before (found : Lexed) (other : Text) : Lexed :=
  { found with lexeme := { found.lexeme with rest := other } }

theorem Lexed.before_rest (found : Lexed) : found.before found.lexeme.rest = found := rfl

theorem lex_read {mode : Mode} {text : Text} {found : Lexed} (result : lex mode text = .ok found) :
    found.Read mode text := by
  unfold lex at result
  cases inner : Lexeme.read mode (Trivia.skip text).rest with
  | error fault => simp [inner, Except.map] at result
  | ok lexeme =>
      simp only [inner, Except.map, Except.ok.injEq] at result
      subst result
      have whole := Trivia.skip_append text
      rcases Lexeme.read_extent inner with ⟨empty, rfl⟩ | extent
      · rw [empty, List.append_nil] at whole
        exact .eof whole (by rw [← empty])
      · refine .token ?_ (by rw [extent.split]; exact extent)
        rw [extent.split]

theorem lex_append {mode : Mode} {text : Text} {found : Lexed} (result : lex mode text = .ok found) :
    found.gap ++ found.lexeme.whole ++ found.lexeme.rest = text := by
  have whole := Trivia.skip_append text
  cases lex_read result with
  | eof same skipped => simp [same]
  | token skipped extent =>
      rw [skipped] at whole
      simpa using whole

theorem lex_gap {mode : Mode} {text : Text} {found : Lexed} (result : lex mode text = .ok found) :
    found.gap = (Trivia.skip text).chars ∧ found.newline = (Trivia.skip text).newline := by
  cases lex_read result with
  | eof same skipped => simp [skipped]
  | token skipped extent => simp [skipped]

/-- Every lexeme but the end of the text has one of the forms. -/
theorem lex_form {mode : Mode} {text : Text} {found : Lexed} (result : lex mode text = .ok found) :
    found.lexeme = .plain .eof [] [] ∨ found.lexeme.Form := by
  cases lex_read result with
  | eof => exact .inl rfl
  | token skipped extent => exact .inr extent.form

theorem lex_rest_of_empty {mode : Mode} {text : Text} {found : Lexed}
    (result : lex mode text = .ok found) (empty : found.lexeme.whole = []) :
    found.lexeme.rest = [] := by
  cases lex_read result with
  | eof => rfl
  | token skipped extent => exact absurd empty extent.nonempty

/-- The text behind a token may change where the token does not see it. -/
theorem lex_congr {mode : Mode} {text other : Text} {found : Lexed}
    (result : lex mode text = .ok found) (nonempty : found.lexeme.whole ≠ [])
    (fits : Text.Alike found.lexeme.rest other ∨ Text.Sealed found.lexeme.whole) :
    lex mode (found.gap ++ found.lexeme.whole ++ other) = .ok (found.before other) := by
  cases lex_read result with
  | eof => exact absurd rfl nonempty
  | token skipped extent =>
      rename_i gap newline lexeme
      have start : Trivia.Solid (lexeme.whole ++ lexeme.rest) := by
        have solid := Trivia.solid_skip text
        rwa [skipped] at solid
      have goesOn : (Trivia.skip text).rest ≠ [] := by simp [skipped, extent.nonempty]
      have skippedAgain := Trivia.skip_congr goesOn (extent.solid start fits)
      rw [skipped] at skippedAgain
      simp only at skippedAgain
      rw [List.append_assoc, lex, skippedAgain]
      simp only [extent.congr other fits, Except.map, Lexed.before]

theorem lex_space {c : Char} (space : Trivia.isSpace c = true) (mode : Mode) (text : Text) :
    lex mode (c :: text) = (lex mode text).map fun found =>
      { found with gap := c :: found.gap, newline := c == '\n' || found.newline } := by
  simp only [lex, Trivia.skip_space space, Trivia.Gap.extend]
  cases Lexeme.read mode (Trivia.skip text).rest <;> rfl

/-- The end of a text is its only empty token. -/
theorem lex_eof_iff {mode : Mode} {text : Text} {found : Lexed}
    (result : lex mode text = .ok found) : found.lexeme.kind = .eof ↔ found.lexeme.whole = [] := by
  cases lex_read result with
  | eof => simp
  | token skipped extent =>
      have nonempty := extent.nonempty
      simp only [nonempty, iff_false]
      cases extent.form with
      | run isRun =>
          rintro rfl
          cases isRun
      | string => simp
      | template => simp
      | punctuator => simp

end Relink.Token
