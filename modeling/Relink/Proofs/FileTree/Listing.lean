import Relink.FileTree.Listing
import Relink.Proofs.FileTree.Node
import Relink.Proofs.Path.Moves

/-!
# Listed files

The listing of a node holds the locations of its regular files and no others. As a path, each leads down by its
names.
-/

set_option autoImplicit false

namespace Relink

namespace Listing

theorem insertByName_perm {α : Type} (entry : Text × α) (sorted : List (Text × α)) :
    (insertByName entry sorted).Perm (entry :: sorted) := by
  induction sorted with
  | nil => exact .refl _
  | cons other rest ih =>
      rw [insertByName]
      split
      · exact (ih.cons other).trans (.swap entry other rest)
      · exact .refl _

theorem sortByName_perm {α : Type} (entries : List (Text × α)) : (sortByName entries).Perm entries := by
  induction entries with
  | nil => exact .refl _
  | cons entry rest ih => exact (insertByName_perm entry _).trans (ih.cons entry)

theorem mem_gather {listed : List (Text × List Location)} {location : Location} :
    location ∈ gather listed ↔ ∃ entry ∈ listed, ∃ below ∈ entry.2, entry.1 :: below = location := by
  simp only [gather, List.mem_flatMap, (sortByName_perm listed).mem_iff, List.mem_map]

end Listing

namespace Node

theorem filesOfEntries_eq (entries : List (Text × Node)) :
    filesOfEntries entries = entries.map fun entry => (entry.1, entry.2.files) := by
  induction entries with
  | nil => rfl
  | cons entry rest ih => rw [filesOfEntries, ih, List.map_cons]

theorem mem_files_directory {entries : List (Text × Node)} {location : Location} :
    location ∈ (directory entries).files ↔
      ∃ entry ∈ entries, ∃ below ∈ entry.2.files, entry.1 :: below = location := by
  rw [files, Listing.mem_gather, filesOfEntries_eq]
  simp only [List.mem_map, exists_exists_and_eq_and]

theorem mem_files {node : Node} (orderly : node.isOrderly = true) {location : Location} :
    location ∈ node.files ↔ ∃ content executable, node.get? location = some (.file content executable) := by
  induction location generalizing node with
  | nil =>
      cases node with
      | file content executable => simp [files]
      | link target => simp [files]
      | directory entries => simp [mem_files_directory]
  | cons name rest ih =>
      cases node with
      | file content executable => simp [files, get?, Node.entries, Entries.get?]
      | link target => simp [files, get?, Node.entries, Entries.get?]
      | directory entries =>
          obtain ⟨distinct, each⟩ := isOrderly_directory.mp orderly
          rw [mem_files_directory, get?, Node.entries]
          constructor
          · rintro ⟨⟨other, child⟩, member, below, isFile, split⟩
            rw [List.cons.injEq] at split
            obtain ⟨rfl, rfl⟩ := split
            rw [Entries.get?_of_mem distinct member, Option.bind_some]
            exact (ih (each _ member).2).mp isFile
          · rintro ⟨content, executable, is⟩
            obtain ⟨child, first, later⟩ := Option.bind_eq_some_iff.mp is
            have member := Entries.mem_of_get? first
            exact ⟨_, member, rest, (ih (each _ member).2).mpr ⟨content, executable, later⟩, rfl⟩

end Node

/-! ## Locations as paths -/

namespace Path

open Text

theorem isName_iff {name : Text} : isName name = true ↔
    isVoid name = false ∧ name ≠ parentSegment ∧ '/' ∉ name := by
  simp [isName, and_assoc]

variable {names : Location} (each : ∀ name ∈ names, isName name = true)

include each

theorem lead_location : lead (Location.path names) = [] := by
  cases names with
  | nil => rfl
  | cons name rest =>
      obtain ⟨solid, -, noSlash⟩ := isName_iff.mp (each name (List.mem_cons_self ..))
      cases rest with
      | nil =>
          have noLead := lead_segment solid noSlash []
          rwa [List.append_nil] at noLead
      | cons next rest =>
          have noLead := lead_segment solid noSlash (['/'] ++ joinWith ['/'] (next :: rest))
          rwa [← List.append_assoc] at noLead

theorem splitOn_location (nonempty : names ≠ []) : splitOn '/' (Location.path names).spelling = names :=
  splitOn_joinWith (fun name member => (isName_iff.mp (each name member)).2.2) nonempty

theorem moves_location : (Location.path names).moves = names := by
  cases names with
  | nil => rfl
  | cons name rest =>
      rw [moves, steps, splitOn_location each (List.cons_ne_nil name rest), movesOf, List.filter_filter,
        List.filter_eq_self]
      intro other member
      have solid := (isName_iff.mp (each other member)).1
      rw [isVoid, Bool.or_eq_false_iff] at solid
      simp only [bne, solid, Bool.not_false, Bool.and_self]

theorem steps_location (nonempty : names ≠ []) : (Location.path names).steps = names := by
  rw [steps, splitOn_location each nonempty, List.filter_eq_self]
  exact fun name member => bne_iff_ne.mpr (isVoid_ne_nil (isName_iff.mp (each name member)).1)

theorem isAbsolute_location : (Location.path names).isAbsolute = false := by
  rw [isAbsolute, lead_location each]
  rfl

end Path

end Relink
