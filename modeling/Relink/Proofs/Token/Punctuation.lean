import Relink.Proofs.Token.Number

/-!
# Longest punctuators

The longest punctuator at the front of a text is the same in every text that goes on alike behind
it, and closing marks are the longest ones whatever follows.
-/

set_option autoImplicit false

namespace Relink.Token

/-! ## Punctuators -/

/-- The longest punctuator at the front, a question mark before a point and a digit included. -/
def longest? (text : Text) : Option Punctuator :=
  Punctuator.longestFirst.find? fun p => p.spelling.isPrefixOf text

theorem mem_longestFirst (p : Punctuator) : p ∈ Punctuator.longestFirst := by
  cases p <;> decide

theorem longestFirst_sorted :
    Punctuator.longestFirst.Pairwise fun p q => q.spelling.length ≤ p.spelling.length := by
  decide +kernel

/-- A punctuator that another one continues ends with no closing mark and is continued by one that
is a single character longer and ends with none either. The only exception is the point, of which two
make no token. -/
theorem eq_or_continued : ∀ p ∈ Punctuator.longestFirst, ∀ q ∈ Punctuator.longestFirst,
    p.spelling <+: q.spelling → p = q ∨ (p.spelling.getLast?.any Text.isSeal) = false ∧
      ((∃ m ∈ Punctuator.longestFirst, m.spelling <+: q.spelling ∧
        m.spelling.length = p.spelling.length + 1 ∧
          (m.spelling.getLast?.any Text.isStop) = false) ∨ (p = .dot ∧ q = .dotDotDot)) := by
  decide +kernel

theorem spelling_injective {p q : Punctuator} (same : p.spelling = q.spelling) : p = q := by
  have continued : p.spelling <+: q.spelling := same ▸ List.prefix_refl _
  rcases eq_or_continued p (mem_longestFirst p) q (mem_longestFirst q) continued with
    equal | ⟨-, ⟨m, -, within, oneMore, -⟩ | ⟨rfl, rfl⟩⟩
  · exact equal
  · have atMost := within.length_le
    rw [← same] at atMost
    omega
  · exact absurd same (by decide)

theorem longest?_stands {text : Text} {p : Punctuator} (found : longest? text = some p) :
    p.spelling <+: text := by
  have passes := List.find?_some found
  exact List.isPrefixOf_iff_prefix.mp passes

theorem longest?_longest {text : Text} {p : Punctuator} (found : longest? text = some p)
    (q : Punctuator) (stands : q.spelling <+: text) : q.spelling.length ≤ p.spelling.length := by
  obtain ⟨-, before, after, split, none⟩ := List.find?_eq_some_iff_append.mp found
  have member := mem_longestFirst q
  have sorted := longestFirst_sorted
  rw [split] at member sorted
  rcases List.mem_append.mp member with earlier | later
  · have missing := none q earlier
    rw [List.isPrefixOf_iff_prefix.mpr stands] at missing
    cases missing
  · rcases List.mem_cons.mp later with rfl | behind
    · exact Nat.le_refl _
    · exact (List.pairwise_cons.mp (List.pairwise_append.mp sorted).2.1).1 q behind

theorem longest?_of_longest {text : Text} {p : Punctuator} (stands : p.spelling <+: text)
    (none : ∀ q : Punctuator, q.spelling <+: text → q.spelling.length ≤ p.spelling.length) :
    longest? text = some p := by
  cases found : longest? text with
  | none =>
      have missing := List.find?_eq_none.mp found p (mem_longestFirst p)
      exact absurd (List.isPrefixOf_iff_prefix.mpr stands) missing
  | some q =>
      have sameLength : q.spelling.length = p.spelling.length :=
        Nat.le_antisymm (none q (longest?_stands found)) (longest?_longest found p stands)
      have sameSpelling : q.spelling = p.spelling :=
        (List.prefix_of_prefix_length_le (longest?_stands found) stands
          (Nat.le_of_eq sameLength)).eq_of_length sameLength
      rw [spelling_injective sameSpelling]

/-- What reaches one character past a front, and that is no closing mark, stands in every text that goes
on alike. -/
theorem prefix_congr {front part rest other : Text} (same : Text.EndsLike rest other)
    (stands : part <+: front ++ other) (oneMore : part.length = front.length + 1)
    (open_ : (part.getLast?.any Text.isStop) = false) : part <+: front ++ rest := by
  have starts : front <+: part := List.prefix_of_prefix_length_le (List.prefix_append ..) stands (by omega)
  obtain ⟨more, rfl⟩ := starts
  obtain ⟨c, rfl⟩ : ∃ c, more = [c] := List.length_eq_one_iff.mp (by simpa using oneMore)
  obtain ⟨behind, rfl⟩ := (List.prefix_append_right_inj front).mp stands
  have noStop : Text.isStop c = false := by simpa using open_
  obtain ⟨after, rfl⟩ := eq_cons_of_head? (same.head?_eq_some noStop rfl)
  exact ⟨after, by simp⟩

theorem three_points_congr {rest other : Text} (alike : Text.Alike rest other)
    (stands : Punctuator.dotDotDot.spelling <+: Punctuator.dot.spelling ++ other) :
    Punctuator.dotDotDot.spelling <+: Punctuator.dot.spelling ++ rest := by
  obtain ⟨behind, shape⟩ := stands
  obtain rfl : other = '.' :: '.' :: behind := (List.cons.inj shape).2.symm
  obtain ⟨after, rfl⟩ := eq_cons_of_head? (alike.1.head?_eq_some (c := '.') (by decide) rfl)
  obtain ⟨final, rfl⟩ := eq_cons_of_head? ((alike.2 rfl).head?_eq_some (c := '.') (by decide) rfl)
  exact ⟨final, rfl⟩

/-- The longest punctuator at the front is the same in texts that go on alike behind it. -/
theorem longest?_congr {p : Punctuator} {rest other : Text}
    (found : longest? (p.spelling ++ rest) = some p)
    (fits : Text.Alike rest other ∨ Text.Sealed p.spelling) :
    longest? (p.spelling ++ other) = some p := by
  refine longest?_of_longest (List.prefix_append ..) fun q stands => ?_
  rcases Nat.lt_or_ge p.spelling.length q.spelling.length with longer | shorter
  · have continued : p.spelling <+: q.spelling :=
      List.prefix_of_prefix_length_le (List.prefix_append ..) stands (Nat.le_of_lt longer)
    rcases eq_or_continued p (mem_longestFirst p) q (mem_longestFirst q) continued with
      rfl | ⟨open_, further⟩
    · exact Nat.le_refl _
    · have alike : Text.Alike rest other := by
        refine fits.resolve_right fun ⟨front, c, shape, mark⟩ => ?_
        simp [shape, mark] at open_
      rcases further with ⟨m, -, within, oneMore, unstopped⟩ | ⟨rfl, rfl⟩
      · have again := prefix_congr alike.1 (within.trans stands) oneMore unstopped
        have atMost := longest?_longest found m again
        omega
      · exact longest?_longest found .dotDotDot (three_points_congr alike stands)
  · exact shorter

/-! ## Question marks before a number -/

/-- A question mark, a point and a digit, where the question mark stands alone. -/
def BeginsChoice (text : Text) : Prop :=
  ∃ d rest, text = '?' :: '.' :: d :: rest ∧ d.isDigit = true

theorem punctuator?_choice {text : Text} (choice : BeginsChoice text) :
    punctuator? text = some .question := by
  obtain ⟨d, rest, rfl, digit⟩ := choice
  simp [punctuator?, digit]

theorem punctuator?_eq_longest? {text : Text} (plain : ¬ BeginsChoice text) :
    punctuator? text = longest? text := by
  unfold punctuator?
  split
  · rename_i d rest
    have noDigit : d.isDigit = false :=
      Bool.eq_false_iff.mpr fun digit => plain ⟨d, rest, rfl, digit⟩
    simp [noDigit, longest?]
  · rfl

def BeginsDigit (text : Text) : Prop := ∃ d rest, text = d :: rest ∧ d.isDigit = true

theorem beginsDigit_congr {rest other : Text} (same : Text.EndsLike rest other) :
    BeginsDigit rest ↔ BeginsDigit other := by
  constructor
  · rintro ⟨d, after, rfl, digit⟩
    obtain ⟨e, behind, rfl, again⟩ := same.test excludesLimits_isDigit (c := d) rfl
    exact ⟨e, behind, rfl, again.trans digit⟩
  · rintro ⟨d, after, rfl, digit⟩
    obtain ⟨e, behind, rfl, again⟩ := same.test_left excludesLimits_isDigit (d := d) rfl
    exact ⟨e, behind, rfl, again.trans digit⟩

theorem beginsPoint_congr {rest other : Text} (alike : Text.Alike rest other) :
    (∃ after, rest = '.' :: after ∧ BeginsDigit after) ↔ ∃ after, other = '.' :: after ∧ BeginsDigit after := by
  constructor
  · rintro ⟨after, rfl, digit⟩
    obtain ⟨behind, rfl⟩ := eq_cons_of_head?
      (alike.1.head?_eq_some_right (c := '.') (by decide) (by decide) rfl)
    exact ⟨behind, rfl, (beginsDigit_congr (alike.2 rfl)).mp digit⟩
  · rintro ⟨after, rfl, digit⟩
    obtain ⟨behind, rfl⟩ := eq_cons_of_head? (alike.1.head?_eq_some (c := '.') (by decide) rfl)
    exact ⟨behind, rfl, (beginsDigit_congr (alike.2 rfl)).mpr digit⟩

theorem beginsChoice_cons (c : Char) (text : Text) :
    BeginsChoice (c :: text) ↔ c = '?' ∧ ∃ after, text = '.' :: after ∧ BeginsDigit after := by
  constructor
  · rintro ⟨d, rest, shape, digit⟩
    obtain ⟨rfl, rfl⟩ := List.cons.inj shape
    exact ⟨rfl, _, rfl, d, rest, rfl, digit⟩
  · rintro ⟨rfl, after, rfl, d, rest, rfl, digit⟩
    exact ⟨d, rest, rfl, digit⟩

theorem beginsChoice_congr {front rest other : Text} (nonempty : front ≠ [])
    (fits : Text.Alike rest other ∨ Text.Sealed front) :
    BeginsChoice (front ++ rest) ↔ BeginsChoice (front ++ other) := by
  -- The question mark, the point and the digit are looked for in the front or behind it, wherever it ends.
  match front with
  | [] => exact absurd rfl nonempty
  | [c] =>
      simp only [List.cons_append, List.nil_append, beginsChoice_cons, and_congr_right_iff]
      rintro rfl
      exact beginsPoint_congr
        (fits.resolve_right (Text.Unsealed.not_sealed (by simp [Text.Unsealed]; decide)))
  | [c, e] =>
      simp only [List.cons_append, List.nil_append, beginsChoice_cons, List.cons.injEq,
        and_congr_right_iff]
      rintro rfl
      constructor
      · rintro ⟨after, ⟨rfl, rfl⟩, digit⟩
        have alike : Text.Alike rest other :=
          fits.resolve_right (Text.Unsealed.not_sealed (by simp [Text.Unsealed]; decide))
        exact ⟨_, ⟨rfl, rfl⟩, (beginsDigit_congr alike.1).mp digit⟩
      · rintro ⟨after, ⟨rfl, rfl⟩, digit⟩
        have alike : Text.Alike rest other :=
          fits.resolve_right (Text.Unsealed.not_sealed (by simp [Text.Unsealed]; decide))
        exact ⟨_, ⟨rfl, rfl⟩, (beginsDigit_congr alike.1).mpr digit⟩
  | c :: e :: g :: more =>
      simp only [List.cons_append, beginsChoice_cons, BeginsDigit, List.cons.injEq]
      constructor
      · rintro ⟨rfl, after, ⟨rfl, rfl⟩, d, behind, shape, digit⟩
        cases shape
        exact ⟨rfl, _, ⟨rfl, rfl⟩, g, _, rfl, digit⟩
      · rintro ⟨rfl, after, ⟨rfl, rfl⟩, d, behind, shape, digit⟩
        cases shape
        exact ⟨rfl, _, ⟨rfl, rfl⟩, g, _, rfl, digit⟩

theorem spelling_ne_nil (p : Punctuator) : p.spelling ≠ [] := by
  cases p <;> decide

theorem punctuator?_stands {text : Text} {p : Punctuator} (found : punctuator? text = some p) :
    p.spelling <+: text := by
  by_cases choice : BeginsChoice text
  · rw [punctuator?_choice choice] at found
    cases found
    obtain ⟨d, rest, rfl, -⟩ := choice
    exact ⟨'.' :: d :: rest, rfl⟩
  · rw [punctuator?_eq_longest? choice] at found
    exact longest?_stands found

/-- The punctuator at the front is the same in texts that go on alike behind it. -/
theorem punctuator?_congr {p : Punctuator} {rest other : Text}
    (found : punctuator? (p.spelling ++ rest) = some p)
    (fits : Text.Alike rest other ∨ Text.Sealed p.spelling) :
    punctuator? (p.spelling ++ other) = some p := by
  have nonempty := spelling_ne_nil p
  by_cases choice : BeginsChoice (p.spelling ++ rest)
  · rw [punctuator?_choice choice] at found
    rw [punctuator?_choice ((beginsChoice_congr nonempty fits).mp choice)]
    exact found
  · rw [punctuator?_eq_longest? choice] at found
    rw [beginsChoice_congr nonempty fits] at choice
    rw [punctuator?_eq_longest? choice]
    exact longest?_congr found fits

/-! ## Punctuators that do not go on -/

/-- The characters with which longer punctuators go on behind a punctuator. -/
def continuations (p : Punctuator) : Text :=
  Punctuator.longestFirst.filterMap fun q =>
    if p.spelling.isPrefixOf q.spelling then (q.spelling.drop p.spelling.length).head? else none

/-- No longer punctuator than the given one begins before a text. -/
def Apart (p : Punctuator) (rest : Text) : Prop := ∀ d ∈ rest.head?, d ∉ continuations p

theorem longest?_apart {p : Punctuator} {rest : Text} (apart : Apart p rest) :
    longest? (p.spelling ++ rest) = some p := by
  refine longest?_of_longest (List.prefix_append ..) fun q stands => Nat.le_of_not_lt fun longer => ?_
  obtain ⟨more, whole⟩ : p.spelling <+: q.spelling :=
    List.prefix_of_prefix_length_le (List.prefix_append ..) stands (Nat.le_of_lt longer)
  obtain ⟨d, others, rfl⟩ : ∃ d others, more = d :: others := by
    cases more with
    | nil =>
        rw [List.append_nil] at whole
        rw [whole] at longer
        exact absurd longer (Nat.lt_irrefl _)
    | cons d others => exact ⟨d, others, rfl⟩
  obtain ⟨behind, rfl⟩ : d :: others <+: rest := by
    rw [← whole] at stands
    exact (List.prefix_append_right_inj _).mp stands
  refine apart d rfl (List.mem_filterMap.mpr ⟨q, mem_longestFirst q, ?_⟩)
  rw [if_pos (List.isPrefixOf_iff_prefix.mpr ⟨_, whole⟩), ← whole, List.drop_left]
  rfl

theorem punctuator?_apart {p : Punctuator} {rest : Text} (noChoice : ¬ BeginsChoice (p.spelling ++ rest))
    (apart : Apart p rest) : punctuator? (p.spelling ++ rest) = some p := by
  rw [punctuator?_eq_longest? noChoice]
  exact longest?_apart apart

end Relink.Token
