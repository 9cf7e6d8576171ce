import Relink.Text

/-!
# Character boundaries

Byte offsets that fall between two characters of a text, and the parts of a text that lie between
such offsets. Cutting at a boundary is exact: the two parts are the ones that the boundary divides.
-/

set_option autoImplicit false

namespace Relink.Text

theorem size_eq_zero_iff (text : Text) : size text = 0 ↔ text = [] := by
  cases text with
  | nil => simp
  | cons c rest =>
      have positive := c.utf8Size_pos
      simp only [size_cons, reduceCtorEq, iff_false]
      omega

theorem size_pos {text : Text} (nonempty : text ≠ []) : 0 < size text :=
  Nat.pos_of_ne_zero fun zero => nonempty ((size_eq_zero_iff text).mp zero)

theorem length_le_size (text : Text) : text.length ≤ size text := by
  induction text with
  | nil => exact Nat.le_refl 0
  | cons c rest ih =>
      have positive := c.utf8Size_pos
      rw [List.length_cons, size_cons]
      omega

/-- An offset between two characters, or at an end of the text. -/
def IsBoundary (text : Text) (offset : Nat) : Prop :=
  ∃ front back, text = front ++ back ∧ size front = offset

@[simp] theorem cut_size_append (front back : Text) :
    cut (size front) (front ++ back) = (front, back) := by
  induction front with
  | nil =>
      cases back with
      | nil => rfl
      | cons c rest =>
          have positive := c.utf8Size_pos
          simp only [size_nil, List.nil_append, cut]
          exact if_neg (by omega)
  | cons c rest ih => simp [cut, ih]

theorem slice?_append (front middle back : Text) :
    slice? (front ++ middle ++ back) (size front) (size front + size middle) = some middle := by
  simp [slice?]

theorem slice?_of_append {text : Text} (front middle back : Text)
    (split : text = front ++ middle ++ back) {start stop : Nat} (isStart : start = front.size)
    (isStop : stop = front.size + middle.size) : slice? text start stop = some middle := by
  rw [split, isStart, isStop]
  exact slice?_append front middle back

theorem isBoundary_append {text : Text} (front back : Text) (split : text = front ++ back)
    {offset : Nat} (size : offset = front.size) : IsBoundary text offset :=
  ⟨front, back, split, size.symm⟩

theorem append_inj_size {front back other rest : Text} (same : front ++ back = other ++ rest)
    (size : front.size = other.size) : front = other ∧ back = rest := by
  have parts := cut_size_append front back
  rw [size, same, cut_size_append, Prod.mk.injEq] at parts
  exact ⟨parts.1.symm, parts.2.symm⟩

theorem of_slice? {text middle : Text} {start stop : Nat} (slice : text.slice? start stop = some middle) :
    ∃ front back, text = front ++ middle ++ back ∧ front.size = start ∧
      start + middle.size = stop := by
  simp only [slice?, Option.ite_none_right_eq_some, Option.some.injEq] at slice
  obtain ⟨⟨ordered, first, second⟩, rfl⟩ := slice
  have split : text = (cut start text).1 ++ (cut (stop - start) (cut start text).2).1 ++
      (cut (stop - start) (cut start text).2).2 := by
    rw [List.append_assoc, cut_append, cut_append]
  exact ⟨_, _, split, first, by omega⟩

end Relink.Text
