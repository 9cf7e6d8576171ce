import Mathlib.Data.List.DropRight
import Relink.Proofs.FileTree.Trail

/-!
# Own places of paths

A path that ends in a slash or a dot can only name a directory: a link at its end is followed. Where the path itself
is does not depend on that. The two differ only for links.
-/

set_option autoImplicit false

namespace Relink

/-- The steps of a path, less those at its end that stay where they are. -/
def Path.ownSteps (path : Path) : List Text := path.steps.rdropWhile (· == currentSegment)

/-- Whether a path is spelled so that it can only name a directory. -/
def Path.spellsDirectory (path : Path) : Bool := path.endsInSlash || path.steps.getLast? == some currentSegment

/-- The location of what is there or may be made there. -/
def Place.location : Place → Location
  | .found location _ => location
  | .absent directory name => directory ++ [name]

namespace FileTree

/-- Where a path itself is, however it is spelled. A link at its end is not followed. -/
def ownPlace (tree : FileTree) (path : Path) : Except SystemFault Place :=
  tree.journey ⟨false, false, false⟩ path path.ownSteps

/-- Whether a path is itself a link, but is spelled as the directory that the link leads to. -/
def isLinkSpelledDirectory (tree : FileTree) (path : Path) : Bool :=
  path.spellsDirectory && match tree.ownPlace path with
    | .ok (.found _ (.link _)) => true
    | _ => false

variable {tree : FileTree} {path : Path}

section Stays

variable {here : Location} {segments stays : List Text} {needsDirectory : Bool}
  (stay : ∀ segment ∈ stays, segment = Path.currentSegment)

include stay

theorem stride_stays (footing : Footing) (here : Location) :
    tree.stride footing here stays = tree.stride footing here [] := by
  induction stays with
  | nil => rfl
  | cons segment rest ih =>
      rw [List.forall_mem_cons] at stay
      rw [stay.1, stride_current, ih stay.2]

/-- A stride that stays where it has come to differs from one that does not only at a link that it has come to. -/
theorem stride_own {stride : Stride}
    (walked : tree.stride ⟨false, needsDirectory, false⟩ here (segments ++ stays) = .ok stride) :
    (∃ place, stride = .arrived place ∧ tree.stride ⟨false, false, false⟩ here segments = .ok (.arrived place)) ∨
      (∃ directory target rest, stride = .detour directory target (rest ++ stays) ∧ rest ≠ [] ∧
        tree.stride ⟨false, false, false⟩ here segments = .ok (.detour directory target rest)) ∨
      ∃ location target,
        tree.stride ⟨false, false, false⟩ here segments = .ok (.arrived (.found location (.link target))) := by
  induction segments generalizing here with
  | nil =>
      rw [List.nil_append, stride_stays stay] at walked
      cases strides_iff.mp walked with
      | arrived there => exact .inl ⟨_, rfl, stride_nil there⟩
  | cons segment rest ih =>
      rw [List.cons_append] at walked
      generalize behind : rest ++ stays = others at walked
      -- Where nothing is behind a name with what stays, nothing is behind it without.
      have last : others = [] → rest = [] := by
        rintro rfl
        exact (List.append_eq_nil_iff.mp behind).1
      have again {found : Option Node}
          (finds : tree.Finds ⟨false, needsDirectory, false⟩ here segment others found) :
          tree.Finds ⟨false, false, false⟩ here segment rest found :=
        ⟨finds.current, finds.parent, by simp, finds.looked⟩
      cases strides_iff.mp walked with
      | current strides =>
          rw [stride_current]
          exact ih (behind ▸ strides_iff.mpr strides)
      | parent strides =>
          rw [stride_parent]
          exact ih (behind ▸ strides_iff.mpr strides)
      | absent finds =>
          obtain rfl := last rfl
          exact .inl ⟨_, rfl, strides_iff.mpr (.absent (again finds))⟩
      | down finds strides =>
          rw [(again finds).stride_down]
          exact ih (behind ▸ strides_iff.mpr strides)
      | file finds =>
          obtain rfl := last rfl
          exact .inl ⟨_, rfl, strides_iff.mpr (.file (again finds) rfl)⟩
      | @link _ _ target finds =>
          obtain rfl := last rfl
          exact .inr (.inr ⟨_, target, strides_iff.mpr (.link (again finds) rfl rfl)⟩)
      | @detour _ _ _ target finds =>
          by_cases atEnd : rest = []
          · subst atEnd
            exact .inr (.inr ⟨_, target, strides_iff.mpr (.link (again finds) rfl rfl)⟩)
          · exact .inr (.inl ⟨here, target, rest, by rw [behind], atEnd,
              strides_iff.mpr (.detour (again finds) (by simp [atEnd]))⟩)

theorem travel_own {links : Nat} {location : Location} {node : Node}
    (walked : tree.travel links ⟨false, needsDirectory, false⟩ here (segments ++ stays) = .ok (.found location node)) :
    tree.travel links ⟨false, false, false⟩ here segments = .ok (.found location node) ∨
      ∃ other target, tree.travel links ⟨false, false, false⟩ here segments = .ok (.found other (.link target)) := by
  induction links generalizing here segments with
  | zero => cases walked
  | succ links ih =>
      cases travels_iff.mp walked with
      | arrives strode =>
          rcases stride_own stay strode with ⟨place, is, same⟩ | ⟨_, _, _, is, -⟩ | ⟨other, target, isLink⟩
          · cases is
            exact .inl (travels_iff.mpr (.arrives same))
          · cases is
          · exact .inr ⟨other, target, travels_iff.mpr (.arrives isLink)⟩
      | follows strode named travels =>
          rcases stride_own stay strode with
            ⟨_, is, -⟩ | ⟨directory, target, rest, is, nonempty, detour⟩ | ⟨other, target, isLink⟩
          · cases is
          · cases is
            have notLast : (rest ++ stays).isEmpty = false ∧ rest.isEmpty = false := by simp [nonempty]
            simp only [notLast.1, Bool.false_and, Bool.or_false, ← List.append_assoc] at travels
            rw [travel, detour]
            simp only [if_neg named, notLast.2]
            exact ih (travels_iff.mpr travels)
          · exact .inr ⟨other, target, travels_iff.mpr (.arrives isLink)⟩

end Stays

/-- Where the entry of a path is found, the path is itself, unless it is a link. -/
theorem ownPlace_of_entryOf {location : Location} {node : Node}
    (found : tree.entryOf path = .ok (.found location node)) :
    tree.ownPlace path = .ok (.found location node) ∨
      ∃ other target, tree.ownPlace path = .ok (.found other (.link target)) := by
  unfold entryOf place at found
  split at found
  · cases found
  have split : path.ownSteps ++ path.steps.rtakeWhile (· == Path.currentSegment) = path.steps :=
    List.rdropWhile_append_rtakeWhile
  rw [journey, ← split] at found
  refine travel_own (fun segment member => ?_) found
  exact beq_iff_eq.mp (List.mem_rtakeWhile_imp (p := (· == Path.currentSegment)) member)

/-- Where a path is not a link that is spelled as a directory, its entry is found where the path is itself. -/
theorem ownPlace_eq (apart : tree.isLinkSpelledDirectory path = false) {location : Location} {node : Node}
    (found : tree.entryOf path = .ok (.found location node)) : tree.ownPlace path = .ok (.found location node) := by
  rcases ownPlace_of_entryOf found with same | ⟨other, target, isLink⟩
  · exact same
  simp only [isLinkSpelledDirectory, isLink, Bool.and_true, Path.spellsDirectory, Bool.or_eq_false_iff] at apart
  have own : path.ownSteps = path.steps := by
    refine List.rdropWhile_eq_self_iff.mpr fun nonempty isCurrent => ?_
    rw [List.getLast?_eq_getLast_of_ne_nil nonempty] at apart
    simp [beq_iff_eq.mp isCurrent] at apart
  unfold entryOf place at found
  split at found
  · cases found
  · rwa [apart.1, ← own] at found

end FileTree

end Relink
