import Relink.Proofs.Path
import Relink.Store

/-!
# Files of a store

A store holds one text for all paths with the same components. Putting a text in the place of another
changes neither the texts of other files nor which files there are.
-/

set_option autoImplicit false

namespace Relink

/-! ## Paths that name the same -/

theorem Path.same_refl (path : Path) : path.same path = true := Path.same_iff.mpr rfl

theorem Path.same_congr {left right : Path} (same : left.same right = true) (other : Path) :
    other.same left = other.same right := by
  simp only [Path.same, Path.same_iff.mp same]

namespace Store

variable {store : Store} {left right : Path}

theorem get?_congr (same : left.same right = true) : store.get? left = store.get? right := by
  simp only [get?, Path.same_congr same]

theorem contains_congr (same : left.same right = true) :
    store.contains left = store.contains right := by
  rw [contains, contains, get?_congr same]

theorem read_congr (same : left.same right = true) : store.read left = store.read right := by
  simp only [read, Path.same_congr same, get?_congr same]

theorem read_eq_ok_iff {path : Path} {text : Text} :
    store.read path = .ok text ↔
      store.unreadable.any (·.same path) = false ∧ store.get? path = some text := by
  unfold read
  cases store.unreadable.any (·.same path) with
  | true => simp
  | false =>
      cases store.get? path with
      | none => simp
      | some found => simp

/-! ## Putting a text -/

/-- Putting a text changes exactly what the paths that name its file give. -/
theorem get?_put (store : Store) (path : Path) (text : Text) (other : Path) :
    (store.put path text).get? other =
      if path.same other = true then some text else store.get? other := by
  simp only [get?, put]
  induction store.entries with
  | nil =>
      simp only [putEntry, List.find?_cons, List.find?_nil]
      cases path.same other <;> rfl
  | cons entry rest ih =>
      simp only [putEntry]
      cases here : entry.1.same path with
      | true =>
          have sameOther : entry.1.same other = path.same other := by
            simp only [Path.same, Path.same_iff.mp here]
          simp only [if_true, List.find?_cons, sameOther]
          cases path.same other <;> rfl
      | false =>
          simp only [Bool.false_eq_true, if_false, List.find?_cons]
          cases found : entry.1.same other with
          | true =>
              have apart : path.same other = false := by
                rw [Bool.eq_false_iff]
                intro isOther
                rw [Path.same_congr isOther, found] at here
                cases here
              rw [apart]
              rfl
          | false => exact ih

theorem get?_put_same (same : left.same right = true) (text : Text) :
    (store.put left text).get? right = some text := by
  rw [get?_put, if_pos same]

theorem get?_put_other (apart : left.same right = false) (text : Text) :
    (store.put left text).get? right = store.get? right := by
  rw [get?_put, if_neg (by rw [apart]; exact Bool.false_ne_true)]

/-- A text in the place of another changes nothing about which files there are. -/
theorem contains_put {path : Path} (present : store.contains path = true) (text : Text) :
    (store.put path text).contains = store.contains := by
  funext other
  rw [contains, get?_put]
  split
  · rename_i same
    rw [← contains_congr same, present]
    rfl
  · rfl

end Store

end Relink
