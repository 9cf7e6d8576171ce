import Relink.Proofs.Token.Lexeme

/-!
# Gaps

The trivia before a token do not depend on what stands behind them, as long as something does that
is no trivia itself. With the extent of lexemes this says what a token and its gap depend on.
-/

set_option autoImplicit false

namespace Relink.Trivia

/-! ## Texts without leading trivia -/

/-- A text that starts with a token, or with nothing. -/
def Solid (text : Text) : Prop := skip text = ⟨[], false, text⟩

theorem solid_nil : Solid [] := by
  simp [Solid, skip]

/-- Only a space, a slash before a slash and a slash before a star can start trivia. -/
theorem solid_cons {c : Char} {text : Text} (noSpace : isSpace c = false)
    (noComment : c = '/' → text.head? ≠ some '/' ∧ text.head? ≠ some '*') : Solid (c :: text) := by
  unfold Solid
  rw [skip]
  · simp [noSpace]
  · rintro rest rfl rfl
    exact (noComment rfl).1 rfl
  · rintro rest rfl rfl
    exact (noComment rfl).2 rfl

theorem Solid.noSpace {c : Char} {text : Text} (solid : Solid (c :: text)) : isSpace c = false := by
  cases space : isSpace c with
  | false => rfl
  | true =>
      have chars : (skip (c :: text)).chars = [] := by rw [solid]
      rw [skip] at chars
      · simp [space, Gap.extend] at chars
      · rintro rest rfl
        exact absurd space (by decide)
      · rintro rest rfl
        exact absurd space (by decide)

theorem Solid.noLineComment {text : Text} (solid : Solid ('/' :: text)) :
    text.head? ≠ some '/' := by
  intro slash
  obtain ⟨rest, rfl⟩ := Token.eq_cons_of_head? slash
  have chars : (skip ('/' :: '/' :: rest)).chars = [] := by rw [solid]
  rw [skip] at chars
  simp [Gap.extend] at chars

/-- Skipping stops at a token. -/
theorem solid_skip (text : Text) : Solid (skip text).rest := by
  fun_induction skip text with
  | case1 => exact solid_nil
  | case2 rest ih => exact ih
  | case3 rest body after found ih => exact ih
  | case4 rest missing =>
      unfold Solid
      rw [skip]
      split
      · rename_i body after found
        rw [missing] at found
        cases found
      · rfl
  | case5 c rest noLine noBlock space ih => exact ih
  | case6 c rest noLine noBlock noSpace =>
      unfold Solid
      rw [skip]
      · simp [noSpace]
      · exact noLine
      · exact noBlock

/-! ## Other texts behind a gap -/

theorem throughLine_congr {text : Text} (goesOn : (throughLine text).2 ≠ []) (other : Text) :
    throughLine ((throughLine text).1 ++ other) = ((throughLine text).1, other) := by
  fun_induction throughLine text with
  | case1 => exact absurd rfl goesOn
  | case2 rest => simp [throughLine]
  | case3 c rest noBreak parts ih => simp [throughLine, noBreak, parts, ih goesOn]

theorem throughBlock?_ne_nil {text body after : Text}
    (found : throughBlock? text = some (body, after)) : body ≠ [] := by
  fun_cases throughBlock? text with
  | case1 => cases found
  | case2 rest =>
      cases found
      simp
  | case3 c rest noEnd =>
      simp only [throughBlock?, Option.map_eq_some_iff, Prod.mk.injEq] at found
      obtain ⟨inner, part, rfl, rfl⟩ := found
      simp

theorem throughBlock?_congr {text body after : Text}
    (found : throughBlock? text = some (body, after)) (other : Text) :
    throughBlock? (body ++ other) = some (body, other) := by
  fun_induction throughBlock? text generalizing body after with
  | case1 => cases found
  | case2 rest =>
      cases found
      rfl
  | case3 c rest noEnd ih =>
      simp only [Option.map_eq_some_iff, Prod.mk.injEq] at found
      obtain ⟨⟨inner, behind⟩, part, rfl, rfl⟩ := found
      have again := ih part
      rw [List.cons_append, throughBlock?]
      · simp [again]
      · rintro rest rfl same
        -- A slash behind the star would have ended the comment in the first text too.
        cases inner with
        | nil => exact absurd rfl (throughBlock?_ne_nil part)
        | cons d inner =>
            obtain ⟨rfl, -⟩ := List.cons.inj same
            have whole := throughBlock?_append part
            exact noEnd (inner ++ behind) rfl whole.symm

/-- A gap is the same before any text that starts with a token. -/
theorem skip_congr {text : Text} (goesOn : (skip text).rest ≠ []) {other : Text}
    (solid : Solid other) :
    skip ((skip text).chars ++ other) = ⟨(skip text).chars, (skip text).newline, other⟩ := by
  fun_induction skip text with
  | case1 => exact absurd rfl goesOn
  | case2 rest ih =>
      have lineEnds : (throughLine rest).2 ≠ [] := by
        intro none
        rw [none, skip] at goesOn
        exact goesOn rfl
      simp only [Gap.extend, List.cons_append, List.append_assoc]
      rw [skip]
      simp only [throughLine_congr lineEnds, ih goesOn, Gap.extend]
      rfl
  | case3 rest body after found ih =>
      simp only [Gap.extend, List.cons_append, List.append_assoc]
      rw [skip]
      split
      · rename_i again later same
        rw [throughBlock?_congr found] at same
        cases same
        simp [ih goesOn, Gap.extend]
      · rename_i none
        rw [throughBlock?_congr found] at none
        cases none
  | case4 => exact solid
  | case5 c rest noLine noBlock space ih =>
      have later := ih goesOn
      simp only [Gap.extend, List.cons_append, List.nil_append]
      rw [skip]
      · simp [space, later, Gap.extend]
      · rintro rest rfl
        exact absurd space (by decide)
      · rintro rest rfl
        exact absurd space (by decide)
  | case6 => exact solid

theorem skip_space {c : Char} (space : isSpace c = true) (text : Text) :
    skip (c :: text) = (skip text).extend [c] (c == '\n') := by
  rw [skip]
  · simp [space]
  · rintro rest rfl
    exact absurd space (by decide)
  · rintro rest rfl
    exact absurd space (by decide)

/-- No gap before a token starts with a point. -/
theorem skip_chars_ne_point (text : Text) : (skip text).chars ≠ ['.'] := by
  fun_cases skip text with
  | case1 => simp
  | case2 => simp [Gap.extend]
  | case3 => simp [Gap.extend]
  | case4 => simp
  | case5 c rest noLine noBlock space =>
      intro point
      simp only [Gap.extend, List.cons_append, List.nil_append, List.cons.injEq] at point
      rw [point.1] at space
      exact absurd space (by decide)
  | case6 => simp

theorem skip_chars_ne_nil {text : Text} (newline : (skip text).newline = true) :
    (skip text).chars ≠ [] := by
  intro empty
  have whole := skip_append text
  rw [empty, List.nil_append] at whole
  have solid := solid_skip text
  rw [whole] at solid
  rw [solid] at newline
  cases newline

end Relink.Trivia
