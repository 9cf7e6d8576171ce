import Relink.Proofs.Scan.Space
import Relink.Proofs.Token.Trivia

/-!
# Trivia before faults

A fault is located behind the same trivia that the lexer passes over, unless a vertical tab is among the
whitespace: there the lexer goes on and the place of the fault does not.
-/

set_option autoImplicit false

namespace Relink.Trivia

/-- Trivia with a vertical tab between its comments, among the whitespace. -/
def Tabbed (gap : Text) : Prop :=
  ∃ front back, IsTrivia false front ∧ gap = front ++ '\x0b' :: back

theorem IsTrivia.append {ended : Bool} {front gap : Text} (first : IsTrivia false front)
    (second : IsTrivia ended gap) : IsTrivia ended (front ++ gap) := by
  induction first with
  | nil => exact second
  | space space _ ih => exact .space space ih
  | line noBreak _ ih =>
      simp only [List.cons_append, List.append_assoc]
      exact .line noBreak ih
  | block noEnd _ ih =>
      simp only [List.cons_append, List.append_assoc]
      exact .block noEnd ih
  | last isEnd => cases isEnd

theorem Tabbed.behind {front gap : Text} (first : IsTrivia false front) (tabbed : Tabbed gap) :
    Tabbed (front ++ gap) := by
  obtain ⟨middle, back, second, rfl⟩ := tabbed
  exact ⟨front ++ middle, back, first.append second, (List.append_assoc ..).symm⟩

/-! ## One piece of trivia -/

theorem isFaultSpace_of_isSpace {c : Char} (space : isSpace c = true) (noTab : c ≠ '\x0b') :
    isFaultSpace c = true := by
  simpa [isSpace, isFaultSpace, noTab] using space

theorem beforeFault_tab (text : Text) : beforeFault ('\x0b' :: text) = ([], '\x0b' :: text) := by
  rw [beforeFault] <;> simp [isFaultSpace]

theorem beforeFault_line {body : Text} (noBreak : '\n' ∉ body) (text : Text) :
    beforeFault ('/' :: '/' :: (body ++ '\n' :: text)) =
      ('/' :: '/' :: (body ++ '\n' :: (beforeFault text).1), (beforeFault text).2) := by
  have other : ∀ c ∈ body, (c != '\n') = true := by
    intro c member
    rw [bne_iff_ne]
    rintro rfl
    exact noBreak member
  rw [beforeFault, List.takeWhile_append_of_pos other, List.dropWhile_append_of_pos other,
    List.takeWhile_cons_of_neg (by simp), List.dropWhile_cons_of_neg (by simp), beforeFault_space rfl]
  simp

theorem beforeFault_block {body : Text} (noEnd : ¬ ['*', '/'] <:+: body) (text : Text) :
    beforeFault ('/' :: '*' :: (body ++ '*' :: '/' :: text)) =
      ('/' :: '*' :: (body ++ '*' :: '/' :: (beforeFault text).1), (beforeFault text).2) := by
  have found := throughBlock?_all noEnd text
  rw [beforeFault]
  split
  · rename_i same
    rw [found] at same
    cases same
    simp
  · rename_i missing
    rw [found] at missing
    cases missing

theorem beforeFault_last {body : Text} (noBreak : '\n' ∉ body) :
    beforeFault ('/' :: '/' :: body) = ('/' :: '/' :: body, []) := by
  have other : ∀ c ∈ body, (c != '\n') = true := by
    intro c member
    rw [bne_iff_ne]
    rintro rfl
    exact noBreak member
  have all : (body ++ []).takeWhile (· != '\n') = body ++ [] := List.takeWhile_append_of_pos other
  have none : (body ++ []).dropWhile (· != '\n') = [] := List.dropWhile_append_of_pos other
  rw [List.append_nil] at all none
  rw [beforeFault, all, none, beforeFault, List.append_nil]

/-- No fault is located behind the first characters of a token. -/
theorem beforeFault_solid {text : Text} (solid : Solid text) : beforeFault text = ([], text) := by
  fun_cases beforeFault text with
  | case1 => rfl
  | case2 rest => exact absurd rfl solid.noLineComment
  | case3 rest body after found =>
      have chars : (skip ('/' :: '*' :: rest)).chars = [] := by rw [solid]
      rw [skip] at chars
      split at chars
      · simp [Gap.extend] at chars
      · rename_i missing
        rw [found] at missing
        cases missing
  | case4 rest missing => rfl
  | case5 c rest noLine noBlock space =>
      have isSpace := isSpace_of_isFaultSpace space
      rw [solid.noSpace] at isSpace
      cases isSpace
  | case6 c rest noLine noBlock noSpace => rfl

/-! ## All trivia -/

/-- A fault is located behind trivia without a vertical tab among the whitespace. -/
theorem IsTrivia.beforeFault_append {ended : Bool} {gap : Text} (trivia : IsTrivia ended gap)
    (plain : ¬ Tabbed gap) {text : Text} (solid : Solid text) (nothing : ended = true → text = []) :
    beforeFault (gap ++ text) = (gap, text) := by
  induction trivia with
  | nil => exact beforeFault_solid solid
  | @space c rest space trivia ih =>
      have noTab : c ≠ '\x0b' := by
        rintro rfl
        exact plain ⟨[], rest, .nil, rfl⟩
      have later := ih fun tabbed => plain (tabbed.behind (.space space .nil))
      rw [List.cons_append, beforeFault_space (isFaultSpace_of_isSpace space noTab), later]
  | @line body rest noBreak trivia ih =>
      have first : IsTrivia false ('/' :: '/' :: (body ++ ['\n'])) := .line noBreak .nil
      have later := ih fun tabbed => plain (by simpa using tabbed.behind first)
      simp only [List.cons_append, List.append_assoc]
      rw [beforeFault_line noBreak, later]
  | @block body rest noEnd trivia ih =>
      have first : IsTrivia false ('/' :: '*' :: (body ++ ['*', '/'])) := .block noEnd .nil
      have later := ih fun tabbed => plain (by simpa using tabbed.behind first)
      simp only [List.cons_append, List.append_assoc]
      rw [beforeFault_block noEnd, later]
  | @last body isEnd noBreak =>
      rw [nothing isEnd, List.append_nil, beforeFault_last noBreak]

/-- No fault is located behind a vertical tab. -/
theorem IsTrivia.length_beforeFault_le {front : Text} (trivia : IsTrivia false front) (back : Text) :
    (beforeFault (front ++ '\x0b' :: back)).1.length ≤ front.length := by
  induction trivia with
  | nil => simp [beforeFault_tab]
  | @space c rest space trivia ih =>
      by_cases isTab : c = '\x0b'
      · simp [isTab, beforeFault_tab]
      · rw [List.cons_append, beforeFault_space (isFaultSpace_of_isSpace space isTab)]
        exact Nat.succ_le_succ ih
  | @line body rest noBreak trivia ih =>
      simp only [List.cons_append, List.append_assoc]
      rw [beforeFault_line noBreak]
      simpa using ih
  | @block body rest noEnd trivia ih =>
      simp only [List.cons_append, List.append_assoc]
      rw [beforeFault_block noEnd]
      simpa using ih
  | last isEnd => cases isEnd

/-- A fault is located where the lexer stands behind trivia, if and only if no vertical tab is among their
whitespace. -/
theorem beforeFault_eq_skip_iff (text : Text) :
    beforeFault text = ((skip text).chars, (skip text).rest) ↔ ¬ Tabbed (skip text).chars := by
  constructor
  · rintro same ⟨front, back, trivia, isGap⟩
    have short := trivia.length_beforeFault_le (back ++ (skip text).rest)
    have whole : front ++ '\x0b' :: (back ++ (skip text).rest) = text := by
      rw [← List.cons_append, ← List.append_assoc, ← isGap, skip_append]
    rw [whole, same, isGap, List.length_append, List.length_cons] at short
    omega
  · intro plain
    have located := (skip_isTrivia text).beforeFault_append plain (solid_skip text) List.isEmpty_iff.mp
    rwa [skip_append] at located

end Relink.Trivia
