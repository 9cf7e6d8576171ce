import Relink.Proofs.Build.Discovery

/-!
# Distinct files

Where every directory has entries of different names, a listing holds each file once, whether or not there are
links. What a path names is a node of the tree, so the files below any directory are distinct.
-/

set_option autoImplicit false

namespace Relink

namespace Node

theorem isName_of_mem_files {node : Node} {location : Location} (orderly : node.isOrderly = true)
    (listed : location ∈ node.files) : ∀ name ∈ location, Path.isName name = true := by
  induction location generalizing node with
  | nil => exact fun _ member => absurd member List.not_mem_nil
  | cons name rest ih =>
      cases node with
      | file content executable => simp [files] at listed
      | link target => simp [files] at listed
      | directory entries =>
          obtain ⟨entry, member, below, isFile, split⟩ := mem_files_directory.mp listed
          rw [List.cons.injEq] at split
          obtain ⟨rfl, rfl⟩ := split
          obtain ⟨isName, child⟩ := (isOrderly_directory.mp orderly).2 entry member
          exact List.forall_mem_cons.mpr ⟨isName, ih child isFile⟩

theorem gather_nodup {listed : List (Text × List Location)} (distinct : (listed.map Prod.fst).Nodup)
    (each : ∀ entry ∈ listed, entry.2.Nodup) : (Listing.gather listed).Nodup := by
  have perm := Listing.sortByName_perm listed
  rw [Listing.gather, List.nodup_flatMap]
  refine ⟨fun entry member => ?_, ?_⟩
  · exact (each entry (perm.mem_iff.mp member)).map fun _ _ same => (List.cons.inj same).2
  · refine (List.pairwise_map.mp ((perm.map Prod.fst).nodup_iff.mpr distinct)).imp fun {one other} apart => ?_
    -- The locations of different entries begin with different names.
    intro location inOne inOther
    obtain ⟨below, -, rfl⟩ := List.mem_map.mp inOne
    obtain ⟨otherBelow, -, same⟩ := List.mem_map.mp inOther
    exact apart (List.cons.inj same).1.symm

mutual

theorem files_nodup : ∀ {node : Node}, node.isOrderly = true → node.files.Nodup
  | .file _ _, _ => List.nodup_singleton []
  | .link _, _ => List.nodup_nil
  | .directory entries, orderly => by
      obtain ⟨distinct, each⟩ := isOrderly_directory.mp orderly
      rw [files]
      refine gather_nodup ?_ (filesOfEntries_nodup fun entry member => (each entry member).2)
      rwa [filesOfEntries_eq, List.map_map]

theorem filesOfEntries_nodup : ∀ {entries : List (Text × Node)}, (∀ entry ∈ entries, entry.2.isOrderly = true) →
    ∀ listed ∈ filesOfEntries entries, listed.2.Nodup
  | [], _ => nofun
  | (name, node) :: rest, orderly => by
      rw [List.forall_mem_cons] at orderly
      rw [filesOfEntries, List.forall_mem_cons]
      exact ⟨files_nodup orderly.1, filesOfEntries_nodup orderly.2⟩

end

end Node

/-! ## What a path names -/

theorem Location.path_injective {one other : Location} (names : ∀ name ∈ one, Path.isName name = true)
    (otherNames : ∀ name ∈ other, Path.isName name = true) (same : one.path = other.path) : one = other := by
  rw [← Path.moves_location names, same, Path.moves_location otherNames]

namespace Node

variable {node : Node} (orderly : node.isOrderly = true)

include orderly

theorem paths_nodup : (node.files.map Location.path).Nodup :=
  (files_nodup orderly).map_on fun _ isOne _ isOther =>
    Location.path_injective (isName_of_mem_files orderly isOne) (isName_of_mem_files orderly isOther)

theorem isBelow_of_mem_paths (isDirectory : node.isDirectory = true) {file : Path}
    (member : file ∈ node.files.map Location.path) : ∃ names, Location.IsBelow names ∧ file = Location.path names := by
  obtain ⟨names, listed, rfl⟩ := List.mem_map.mp member
  refine ⟨names, ⟨?_, isName_of_mem_files orderly listed⟩, rfl⟩
  rintro rfl
  cases node with
  | file content executable => cases isDirectory
  | link target => cases isDirectory
  | directory entries => simp [mem_files_directory] at listed

end Node

namespace FileTree

variable {tree : FileTree} {footing : Footing} {location : Location} {node : Node}

theorem Strides.get? {here : Location} {segments : List Text} {stride : Stride}
    (strides : tree.Strides footing here segments stride) (reached : stride = .arrived (.found location node)) :
    tree.get? location = some node := by
  induction strides with
  | arrived there =>
      cases reached
      exact there
  | current _ ih | parent _ ih | down _ _ ih => exact ih reached
  | absent | detour => cases reached
  | file finds | link finds =>
      cases reached
      exact (lookUp_ok finds.looked).2.2.symm

theorem Travels.get? {links : Nat} {here : Location} {segments : List Text} {place : Place}
    (travels : tree.Travels links footing here segments place) (reached : place = .found location node) :
    tree.get? location = some node := by
  induction travels with
  | arrives walked => exact (strides_iff.mp walked).get? (congrArg Stride.arrived reached)
  | follows _ _ _ ih => exact ih reached

theorem get?_of_travel {links : Nat} {here : Location} {segments : List Text}
    (ok : tree.travel links footing here segments = .ok (.found location node)) : tree.get? location = some node :=
  (travels_iff.mp ok).get? rfl

theorem get?_of_place {path : Path} (ok : tree.place footing path = .ok (.found location node)) :
    tree.get? location = some node := by
  unfold place at ok
  split at ok
  · cases ok
  · exact get?_of_travel ok

/-- What a path names is where it leads. -/
theorem placeOf_of_node? {path : Path} (is : tree.node? path = some node) :
    ∃ location, tree.placeOf path = .ok (.found location node) := by
  unfold node? resolve at is
  cases placed : tree.placeOf path with
  | error fault =>
      rw [placed] at is
      cases is
  | ok place =>
      rw [placed] at is
      cases place with
      | absent directory name => cases is
      | found location found =>
          cases is
          exact ⟨location, rfl⟩

theorem get?_of_node? {path : Path} (is : tree.node? path = some node) : ∃ location, tree.get? location = some node := by
  obtain ⟨location, placed⟩ := placeOf_of_node? is
  exact ⟨location, get?_of_place placed⟩

variable (orderly : tree.root.isOrderly = true) (directory : Path)

include orderly

theorem filesBelow_nodup : (tree.filesBelow directory).Nodup := by
  unfold filesBelow
  split
  · rename_i node is
    obtain ⟨location, there⟩ := get?_of_node? is
    exact Node.paths_nodup (Node.isOrderly_get? orderly there)
  · exact List.nodup_nil

/-- The files below a directory are listed by the names that lead to them. -/
theorem isBelow_of_mem_filesBelow (isDirectory : tree.isDirectory directory = true) {file : Path}
    (member : file ∈ tree.filesBelow directory) : ∃ names, Location.IsBelow names ∧ file = Location.path names := by
  obtain ⟨node, is, shape⟩ := (Option.any_eq_true _ _).mp isDirectory
  obtain ⟨location, there⟩ := get?_of_node? is
  rw [filesBelow, is] at member
  exact Node.isBelow_of_mem_paths (Node.isOrderly_get? orderly there) shape member

end FileTree

end Relink
