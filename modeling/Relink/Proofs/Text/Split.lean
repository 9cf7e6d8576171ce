import Relink.Text

/-!
# Parts of a text

Splitting a text at a separator and joining the parts again.
-/

set_option autoImplicit false

namespace Relink.Text

theorem splitOn_ne_nil (separator : Char) (text : Text) : splitOn separator text ≠ [] := by
  cases text with
  | nil => simp [splitOn]
  | cons c rest =>
      simp only [splitOn]
      split
      · simp
      · split <;> simp

theorem splitOn_separator (separator : Char) (text : Text) :
    splitOn separator (separator :: text) = [] :: splitOn separator text := by
  simp [splitOn]

theorem splitOn_cons {separator c : Char} (other : c ≠ separator) (text : Text) :
    ∃ part parts, splitOn separator text = part :: parts ∧
      splitOn separator (c :: text) = (c :: part) :: parts := by
  obtain ⟨part, parts, split⟩ := List.exists_cons_of_ne_nil (splitOn_ne_nil separator text)
  exact ⟨part, parts, split, by simp [splitOn, other, split]⟩

theorem not_mem_of_mem_splitOn {separator : Char} {text part : Text}
    (member : part ∈ splitOn separator text) : separator ∉ part := by
  induction text generalizing part with
  | nil =>
      rw [show splitOn separator [] = [[]] from rfl, List.mem_singleton] at member
      simp [member]
  | cons c rest ih =>
      by_cases same : c = separator
      · subst same
        rw [splitOn_separator] at member
        rcases List.mem_cons.mp member with rfl | later
        · simp
        · exact ih later
      · obtain ⟨first, parts, split, whole⟩ := splitOn_cons same rest
        rw [whole] at member
        rcases List.mem_cons.mp member with rfl | later
        · have noFirst : separator ∉ first := ih (by simp [split])
          simp [Ne.symm same, noFirst]
        · exact ih (by simp [split, later])

theorem splitOn_of_not_mem {separator : Char} {text : Text} (none : separator ∉ text) :
    splitOn separator text = [text] := by
  induction text with
  | nil => rfl
  | cons c rest ih =>
      rw [List.mem_cons, not_or] at none
      simp [splitOn, Ne.symm none.1, ih none.2]

theorem splitOn_append (separator : Char) (left right : Text) :
    splitOn separator (left ++ separator :: right) =
      splitOn separator left ++ splitOn separator right := by
  induction left with
  | nil => rw [List.nil_append, splitOn_separator]; rfl
  | cons c rest ih =>
      by_cases same : c = separator
      · subst same
        rw [List.cons_append, splitOn_separator, splitOn_separator, ih, List.cons_append]
      · obtain ⟨part, parts, split, whole⟩ := splitOn_cons same rest
        obtain ⟨_, _, splitBoth, wholeBoth⟩ := splitOn_cons same (rest ++ separator :: right)
        rw [ih, split, List.cons_append, List.cons.injEq] at splitBoth
        rw [List.cons_append, wholeBoth, whole, ← splitBoth.1, ← splitBoth.2, List.cons_append]

/-- Parts without a separator are found again where they are joined. -/
theorem splitOn_joinWith {separator : Char} {parts : List Text}
    (plain : ∀ part ∈ parts, separator ∉ part) (nonempty : parts ≠ []) :
    splitOn separator (joinWith [separator] parts) = parts := by
  induction parts with
  | nil => exact absurd rfl nonempty
  | cons part rest ih =>
      have noFirst := plain part (List.mem_cons_self ..)
      cases rest with
      | nil => exact splitOn_of_not_mem noFirst
      | cons next rest =>
          have others := ih (fun other member => plain other (List.mem_cons_of_mem _ member)) (by simp)
          rw [joinWith, List.append_assoc, List.singleton_append, splitOn_append, others,
            splitOn_of_not_mem noFirst, List.singleton_append]
          simp

theorem joinWith_cons (separator : Text) (part : Text) {rest : List Text} (goesOn : rest ≠ []) :
    joinWith separator (part :: rest) = part ++ separator ++ joinWith separator rest := by
  obtain ⟨next, more, rfl⟩ := List.exists_cons_of_ne_nil goesOn
  rw [joinWith]
  simp

theorem joinWith_splitOn (separator : Char) (text : Text) :
    joinWith [separator] (splitOn separator text) = text := by
  induction text with
  | nil => rfl
  | cons c rest ih =>
      by_cases same : c = separator
      · subst same
        rw [splitOn_separator, joinWith_cons _ _ (splitOn_ne_nil _ _), ih]
        rfl
      · obtain ⟨part, parts, split, whole⟩ := splitOn_cons same rest
        rw [split] at ih
        rw [whole]
        cases parts with
        | nil => exact congrArg (c :: ·) ih
        | cons next more =>
            rw [joinWith_cons _ _ (List.cons_ne_nil next more)] at ih ⊢
            exact congrArg (c :: ·) ih

/-- The first parts, joined, begin what all parts make. -/
theorem joinWith_within (separator : Text) {front parts : List Text} (within : front <+: parts) :
    joinWith separator front <+: joinWith separator parts := by
  induction front generalizing parts with
  | nil => exact List.nil_prefix
  | cons part rest ih =>
      obtain ⟨others, rfl⟩ := within
      cases rest with
      | nil =>
          cases others with
          | nil => exact List.prefix_rfl
          | cons next more =>
              rw [List.singleton_append, joinWith_cons _ _ (List.cons_ne_nil next more), List.append_assoc]
              exact List.prefix_append part _
      | cons next more =>
          have later := ih (List.prefix_append (next :: more) others)
          have whole : joinWith separator (part :: (next :: more ++ others)) =
              part ++ separator ++ joinWith separator (next :: more ++ others) :=
            joinWith_cons _ _ (List.cons_ne_nil next (more ++ others))
          have first := joinWith_cons separator part (List.cons_ne_nil next more)
          rw [List.cons_append, first, whole]
          exact (List.prefix_append_right_inj _).mpr later

theorem length_splitOn_le (separator : Char) (text : Text) :
    ((splitOn separator text).filter (· != [])).length ≤ text.length := by
  induction text with
  | nil => simp [splitOn]
  | cons c rest ih =>
      by_cases same : c = separator
      · subst same
        rw [splitOn_separator]
        simp only [bne_self_eq_false, Bool.false_eq_true, not_false_eq_true, List.filter_cons_of_neg, List.length_cons]
        omega
      · obtain ⟨part, parts, split, whole⟩ := splitOn_cons same rest
        rw [split] at ih
        rw [whole]
        by_cases empty : part = []
        · subst empty
          simp at ih ⊢
          omega
        · simp [empty] at ih ⊢
          omega

end Relink.Text
