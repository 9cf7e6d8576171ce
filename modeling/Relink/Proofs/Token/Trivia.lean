import Relink.Proofs.Token.Gap

/-!
# Trivia

What is skipped before a token is whitespace and complete comments. Only at the end of a text is a line
comment complete without its line feed.
-/

set_option autoImplicit false

namespace Relink.Trivia

/-- Whitespace and complete comments. `ended` says that nothing follows. -/
inductive IsTrivia (ended : Bool) : Text → Prop where
  | nil : IsTrivia ended []
  | space {c : Char} {rest : Text} : isSpace c = true → IsTrivia ended rest →
      IsTrivia ended (c :: rest)
  | line {body rest : Text} : '\n' ∉ body → IsTrivia ended rest →
      IsTrivia ended ('/' :: '/' :: (body ++ '\n' :: rest))
  | block {body rest : Text} : ¬ ['*', '/'] <:+: body → IsTrivia ended rest →
      IsTrivia ended ('/' :: '*' :: (body ++ '*' :: '/' :: rest))
  | last {body : Text} : ended = true → '\n' ∉ body → IsTrivia ended ('/' :: '/' :: body)

theorem throughLine_cases (text : Text) :
    (∃ body rest, '\n' ∉ body ∧ throughLine text = (body ++ ['\n'], rest)) ∨
      '\n' ∉ text ∧ throughLine text = (text, []) := by
  induction text with
  | nil => exact .inr ⟨List.not_mem_nil, rfl⟩
  | cons c text ih =>
      by_cases isBreak : c = '\n'
      · exact .inl ⟨[], text, List.not_mem_nil, by rw [throughLine, if_pos isBreak, isBreak]; rfl⟩
      · rw [throughLine, if_neg isBreak]
        rcases ih with ⟨body, rest, noBreak, found⟩ | ⟨noBreak, found⟩
        · exact .inl ⟨c :: body, rest, by simp [noBreak, Ne.symm isBreak], by rw [found]; rfl⟩
        · exact .inr ⟨by simp [noBreak, Ne.symm isBreak], by rw [found]⟩

theorem throughBlock?_body {text body after : Text}
    (found : throughBlock? text = some (body, after)) :
    ∃ inner, body = inner ++ ['*', '/'] ∧ ¬ ['*', '/'] <:+: inner := by
  fun_induction throughBlock? text generalizing body after with
  | case1 => cases found
  | case2 rest =>
      cases found
      exact ⟨[], rfl, by simp⟩
  | case3 c rest noEnd ih =>
      simp only [Option.map_eq_some_iff, Prod.mk.injEq] at found
      obtain ⟨⟨more, behind⟩, part, rfl, rfl⟩ := found
      obtain ⟨inner, rfl, noMark⟩ := ih part
      refine ⟨c :: inner, rfl, fun mark => ?_⟩
      rcases List.infix_cons_iff.mp mark with front | within
      · obtain ⟨star, slash⟩ := List.cons_prefix_cons.mp front
        obtain ⟨later, rfl⟩ := slash
        exact noEnd (later ++ ['*', '/'] ++ behind) star.symm (by
          rw [← throughBlock?_append part]
          simp only [List.append_assoc, List.cons_append, List.nil_append])
      · exact noMark within

/-- What is skipped is trivia, and a line comment at its end is complete. -/
theorem skip_isTrivia (text : Text) : IsTrivia (skip text).rest.isEmpty (skip text).chars := by
  fun_induction skip text with
  | case1 => exact .nil
  | case2 rest ih =>
      rcases throughLine_cases rest with ⟨body, behind, noBreak, found⟩ | ⟨noBreak, found⟩
      · rw [found] at ih ⊢
        simpa only [Gap.extend, List.cons_append, List.append_assoc, List.nil_append]
          using IsTrivia.line noBreak ih
      · rw [found, skip]
        simpa only [Gap.extend, List.append_nil, List.isEmpty_nil] using IsTrivia.last rfl noBreak
  | case3 rest body after found ih =>
      obtain ⟨inner, rfl, noMark⟩ := throughBlock?_body found
      simpa only [Gap.extend, List.cons_append, List.append_assoc, List.nil_append]
        using IsTrivia.block noMark ih
  | case4 => exact .nil
  | case5 c rest noLine noBlock space ih => exact .space space ih
  | case6 => exact .nil

/-- A gap that breaks the line before something holds a line feed: a line comment needs one to end. -/
theorem break_mem_of_newline {text : Text} (newline : (skip text).newline = true)
    (goesOn : (skip text).rest ≠ []) : '\n' ∈ (skip text).chars := by
  fun_induction skip text with
  | case1 => cases newline
  | case2 rest ih =>
      rcases throughLine_cases rest with ⟨body, behind, -, found⟩ | ⟨-, found⟩
      · simp [Gap.extend, found]
      · simp [Gap.extend, found, skip] at goesOn
  | case3 rest body after found ih =>
      have within := ih (by simpa [Gap.extend] using newline) goesOn
      simp [Gap.extend, within]
  | case4 => cases newline
  | case5 c rest noLine noBlock space ih =>
      simp only [Gap.extend, Bool.or_eq_true, beq_iff_eq] at newline
      rcases newline with rfl | later
      · simp [Gap.extend]
      · have within := ih later goesOn
        simp [Gap.extend, within]
  | case6 => cases newline

theorem IsTrivia.spaces {ended : Bool} {text : Text} (trivia : IsTrivia ended text) (count : Nat) :
    IsTrivia ended (List.replicate count ' ' ++ text) := by
  induction count with
  | zero => exact trivia
  | succ count ih => exact .space rfl ih

theorem skip_spaces (count : Nat) (text : Text) :
    (skip (List.replicate count ' ' ++ text)).rest = (skip text).rest := by
  induction count with
  | zero => rfl
  | succ count ih =>
      rw [List.replicate_succ, List.cons_append, skip_space rfl]
      exact ih

theorem isTrivia_of_skip {text : Text} (nothing : (skip text).rest = []) : IsTrivia true text := by
  have whole := skip_append text
  have trivia := skip_isTrivia text
  rw [nothing, List.append_nil] at whole
  rwa [nothing, whole] at trivia

/-! ## Gaps as they are written -/

theorem throughLine_break {line : Text} (noBreak : '\n' ∉ line) (text : Text) :
    throughLine (line ++ '\n' :: text) = (line ++ ['\n'], text) := by
  induction line with
  | nil => rfl
  | cons c line ih =>
      simp only [List.mem_cons, not_or] at noBreak
      rw [List.cons_append, throughLine, if_neg (Ne.symm noBreak.1), ih noBreak.2]
      rfl

theorem throughLine_all {line : Text} (noBreak : '\n' ∉ line) : throughLine line = (line, []) := by
  rcases throughLine_cases line with ⟨body, rest, -, found⟩ | ⟨-, found⟩
  · have whole := throughLine_append line
    rw [found] at whole
    exact absurd (by simp [← whole]) noBreak
  · exact found

theorem throughBlock?_all {body : Text} (noEnd : ¬ ['*', '/'] <:+: body) (rest : Text) :
    throughBlock? (body ++ '*' :: '/' :: rest) = some (body ++ ['*', '/'], rest) := by
  induction body with
  | nil => rfl
  | cons c body ih =>
      have later := ih fun mark => noEnd (mark.trans (List.suffix_cons c body).isInfix)
      rw [List.cons_append, throughBlock?]
      · rw [later]
        rfl
      · rintro after rfl same
        cases body with
        | nil => cases same
        | cons d body =>
            cases same
            exact noEnd (List.prefix_append ['*', '/'] body).isInfix

/-- Trivia are skipped before a token, and at the end of a text. -/
theorem IsTrivia.skip_append {ended : Bool} {gap text : Text} (trivia : IsTrivia ended gap)
    (solid : Solid text) (nothing : ended = true → text = []) :
    ∃ newline, skip (gap ++ text) = ⟨gap, newline, text⟩ := by
  induction trivia with
  | nil => exact ⟨false, solid⟩
  | @space c rest space trivia ih =>
      obtain ⟨newline, skipped⟩ := ih
      rw [List.cons_append, skip_space space, skipped]
      exact ⟨_, rfl⟩
  | @line body rest noBreak trivia ih =>
      obtain ⟨newline, skipped⟩ := ih
      simp only [List.cons_append, List.append_assoc]
      rw [skip, throughLine_break noBreak, skipped]
      exact ⟨true, by simp [Gap.extend]⟩
  | @block body rest noEnd trivia ih =>
      obtain ⟨newline, skipped⟩ := ih
      have found := throughBlock?_all noEnd (rest ++ text)
      simp only [List.cons_append, List.append_assoc]
      rw [skip]
      split
      · rename_i same
        rw [found] at same
        cases same
        rw [skipped]
        exact ⟨newline, by simp [Gap.extend]⟩
      · rename_i missing
        rw [found] at missing
        cases missing
  | @last body isEnd noBreak =>
      rw [nothing isEnd, List.append_nil, skip, throughLine_all noBreak, skip]
      exact ⟨true, by simp [Gap.extend]⟩

/-- Behind trivia a text begins with its own first character, a space or a slash. -/
theorem IsTrivia.head {ended : Bool} {gap : Text} (trivia : IsTrivia ended gap) (c : Char) (rest : Text) :
    ∃ d behind, gap ++ c :: rest = d :: behind ∧ (d = c ∨ isSpace d = true ∨ d = '/') := by
  cases trivia with
  | nil => exact ⟨c, rest, rfl, .inl rfl⟩
  | space space => exact ⟨_, _, rfl, .inr (.inl space)⟩
  | line => exact ⟨_, _, rfl, .inr (.inr rfl)⟩
  | block => exact ⟨_, _, rfl, .inr (.inr rfl)⟩
  | last => exact ⟨_, _, rfl, .inr (.inr rfl)⟩

/-! ## Joined texts -/

/-- Trivia that a line break ends belong to the gap of what stands behind them. -/
theorem skip_break {front : Text} (nothing : (skip front).rest = []) (text : Text) :
    skip (front ++ '\n' :: text) = (skip text).extend (front ++ ['\n']) true := by
  fun_induction skip front with
  | case1 => exact skip_space rfl text
  | case2 rest ih =>
      rw [List.cons_append, List.cons_append, skip]
      -- A line comment at the end of the text ends at the line break behind it.
      rcases throughLine_cases rest with ⟨body, behind, noBreak, found⟩ | ⟨noBreak, found⟩
      · have whole := throughLine_append rest
        rw [found] at whole ih nothing
        rw [← whole, List.append_assoc, List.append_assoc, List.singleton_append,
          throughLine_break noBreak, ih nothing]
        simp [Gap.extend]
      · rw [throughLine_break noBreak]
        rfl
  | case3 rest body after found ih =>
      have whole := throughBlock?_append found
      have again := throughBlock?_congr found (after ++ '\n' :: text)
      rw [← List.append_assoc, whole] at again
      rw [List.cons_append, List.cons_append, skip]
      split
      · rename_i sameBody behind same
        rw [again] at same
        cases same
        rw [ih nothing, ← whole]
        simp [Gap.extend]
      · rename_i missing
        rw [again] at missing
        cases missing
  | case4 => cases nothing
  | case5 c rest noLine noBlock space ih =>
      have later := ih nothing
      rw [List.cons_append, skip_space space, later]
      simp [Gap.extend]
  | case6 => cases nothing

end Relink.Trivia

namespace Relink.Token

theorem lex_break {front : Text} (nothing : (Trivia.skip front).rest = []) (mode : Mode) (text : Text) :
    lex mode (front ++ '\n' :: text) = (lex mode text).map fun found =>
      { found with gap := front ++ ['\n'] ++ found.gap, newline := true } := by
  simp only [lex, Trivia.skip_break nothing, Trivia.Gap.extend]
  cases Lexeme.read mode (Trivia.skip text).rest <;> rfl

end Relink.Token
