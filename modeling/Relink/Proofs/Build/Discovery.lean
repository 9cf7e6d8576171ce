import Relink.Build.Discovery
import Relink.Build.Job
import Relink.Proofs.FileTree.Listing
import Relink.Proofs.FileTree.Outside

/-!
# Discovered files

On a tree without links the files of a directory are found under paths that lead down by names, and so do the
paths of the modules that are emitted for them.
-/

set_option autoImplicit false

namespace Relink

namespace Path

open Text

/-! ## Another extension -/

theorem component?_name {segment : Text} (is : isName segment = true) : component? segment = some (.name segment) := by
  obtain ⟨solid, parent, -⟩ := isName_iff.mp is
  simp [component?, solid, parent]

section Extension

variable {front : Location} {name : Text} (each : ∀ segment ∈ front ++ [name], isName segment = true)

include each

theorem fileName?_location : (Location.path (front ++ [name])).fileName? = some name := by
  rw [fileName?, components_eq, splitOn_location each (by simp), List.filterMap_append, List.filterMap_cons_some
    (component?_name (each name (by simp))), List.filterMap_nil, ← List.append_assoc, List.getLast?_concat]

theorem segments_location : (Location.path (front ++ [name])).segments = front ++ [name] := by
  rw [segments, lead_location each, List.length_nil, List.drop_zero, splitOn_location each (by simp)]

theorem solid_location : solid (front ++ [name]) = front ++ [name] := by
  have last := (isName_iff.mp (each name (by simp))).1
  simp [solid, last]

theorem withExtension_location (extension : Text) : (Location.path (front ++ [name])).withExtension extension =
    Location.path (front ++ [(splitName name).1 ++ '.' :: extension]) := by
  rw [withExtension, fileName?_location each]
  simp only
  rw [segments_location each, solid_location each, List.dropLast_concat, lead_location each]
  rfl

end Extension

theorem stem_within (name : Text) : (splitName name).1 <+: name := by
  unfold splitName
  simp only
  split
  · exact List.take_prefix _ name
  · exact List.prefix_rfl

theorem isName_emitted {name : Text} (is : isName name = true) (extension : ModuleExtension) :
    isName ((splitName name).1 ++ '.' :: extension.spelling) = true := by
  have noSlash : '/' ∉ (splitName name).1 ++ '.' :: extension.spelling := by
    rw [List.mem_append, not_or]
    refine ⟨fun member => (isName_iff.mp is).2.2 ((stem_within name).subset member), ?_⟩
    cases extension <;> decide
  have long : 2 < ((splitName name).1 ++ '.' :: extension.spelling).length := by
    have extensionLong : 2 ≤ extension.spelling.length := by cases extension <;> decide
    rw [List.length_append, List.length_cons]
    omega
  generalize (splitName name).1 ++ '.' :: extension.spelling = emitted at noSlash long
  refine isName_iff.mpr ⟨?_, ?_, noSlash⟩
  · rw [isVoid, Bool.or_eq_false_iff, beq_eq_false_iff_ne, beq_eq_false_iff_ne]
    constructor <;> rintro rfl <;> simp [currentSegment] at long
  · rintro rfl
    simp [parentSegment] at long

end Path

/-- Names that lead to an entry. -/
def Location.IsBelow (names : Location) : Prop := names ≠ [] ∧ ∀ name ∈ names, Path.isName name = true

theorem Location.IsBelow.leadsDown {names : Location} (below : names.IsBelow) : (Location.path names).LeadsDown := by
  refine ⟨Path.isAbsolute_location below.2, ?_, ?_⟩
  · rw [Path.moves_location below.2]
    exact below.1
  · rw [Path.moves_location below.2]
    exact fun name member => Path.ne_parent_of_isName (below.2 name member)

namespace Build

/-- The location of the module that is emitted for an entry point. -/
def emittedLocation (extension : ModuleExtension) (names : Location) : Location :=
  names.dropLast ++ (names.getLast?.map fun name =>
    (Path.splitName name).1 ++ '.' :: extension.spelling).toList

variable {names : Location} (below : names.IsBelow)

include below

theorem emittedPath_location (extension : ModuleExtension) :
    emittedPath (Location.path names) extension = Location.path (emittedLocation extension names) := by
  obtain ⟨nonempty, each⟩ := below
  rcases List.eq_nil_or_concat names with rfl | ⟨front, name, rfl⟩
  · exact absurd rfl nonempty
  · rw [List.concat_eq_append] at each ⊢
    rw [emittedPath, Path.withExtension_location each, emittedLocation, List.dropLast_concat, List.getLast?_concat]
    rfl

theorem emittedLocation_isBelow (extension : ModuleExtension) : (emittedLocation extension names).IsBelow := by
  obtain ⟨nonempty, each⟩ := below
  rcases List.eq_nil_or_concat names with rfl | ⟨front, name, rfl⟩
  · exact absurd rfl nonempty
  · rw [List.concat_eq_append] at each ⊢
    rw [emittedLocation, List.dropLast_concat, List.getLast?_concat]
    refine ⟨by simp, fun segment member => ?_⟩
    rcases List.mem_append.mp member with inFront | last
    · exact each segment (List.mem_append_left _ inFront)
    · rw [Option.map_some, Option.toList_some, List.mem_singleton] at last
      rw [last]
      exact Path.isName_emitted (each name (by simp)) extension

end Build

/-! ## The files of a directory -/

namespace FileTree

variable {tree : FileTree} {directory : Path}

theorem node?_eq (enters : tree.Enters directory) :
    tree.node? directory = tree.get? (directory.locationFrom tree.workingDirectory) := by
  obtain ⟨entries, there, placed⟩ := enters.place_eq ⟨true, directory.endsInSlash, false⟩ rfl
  rw [node?, resolve, placeOf, placed, there]
  rfl

theorem filesBelow_eq (enters : tree.Enters directory) : ∃ entries,
    tree.get? (directory.locationFrom tree.workingDirectory) = some (.directory entries) ∧
      tree.filesBelow directory = (Node.directory entries).files.map Location.path := by
  obtain ⟨entries, there⟩ := hasDirectory_iff.mp enters.hasDirectory
  refine ⟨entries, there, ?_⟩
  rw [filesBelow, node?_eq enters, there]

theorem of_mem_filesBelow (plain : tree.root.isPlain = true) (enters : tree.Enters directory) {file : Path}
    (member : file ∈ tree.filesBelow directory) : ∃ names, Location.IsBelow names ∧ file = Location.path names ∧
      ∃ content executable, tree.get? (directory.locationFrom tree.workingDirectory ++ names) =
        some (.file content executable) := by
  obtain ⟨entries, there, files⟩ := filesBelow_eq enters
  rw [files, List.mem_map] at member
  obtain ⟨names, listed, rfl⟩ := member
  have directoryPlain := (Node.isPlain_get? plain there).1
  obtain ⟨content, executable, is⟩ := (Node.mem_files (Node.isOrderly_of_isPlain directoryPlain)).mp listed
  have nonempty : names ≠ [] := by
    rintro rfl
    rw [Node.get?_nil] at is
    cases is
  refine ⟨names, ⟨nonempty, (Node.isPlain_get? directoryPlain is).2⟩, rfl, content, executable, ?_⟩
  rw [get?, Node.get?_append, ← get?, there, Option.bind_some, is]

end FileTree

end Relink
