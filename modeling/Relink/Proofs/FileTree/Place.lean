import Relink.Proofs.FileTree.Slot

/-!
# Places that paths name

On a tree without links a path names a directory where it is spelled as a path may be and its moves lead
through directories only; a file, or nothing, where that holds of the moves before its last name.
-/

set_option autoImplicit false

namespace Relink

theorem Path.isName_of_mem_steps {path : Path} {segment : Text} (member : segment ∈ path.steps)
    (current : segment ≠ currentSegment) (parent : segment ≠ parentSegment) : isName segment = true := by
  rw [steps, List.mem_filter, bne_iff_ne] at member
  have noSlash := Text.not_mem_of_mem_splitOn member.1
  simp [isName, isVoid, member.2, current, parent, noSlash]

theorem Path.ne_parent_of_isName {name : Text} (is : isName name = true) : name ≠ parentSegment := by
  simp only [isName, Bool.and_eq_true, bne_iff_ne] at is
  exact is.1.2

theorem Path.ne_current_of_isName {name : Text} (is : isName name = true) : name ≠ currentSegment := by
  rintro rfl
  cases is

/-- Whether a path is spelled with the name of an entry at its end. -/
def Path.EndsInName (path : Path) : Prop := ∃ front name, path.steps = front ++ [name] ∧ isName name = true

theorem Path.EndsInName.spelling_ne_nil {path : Path} (named : path.EndsInName) : path.spelling ≠ [] := by
  obtain ⟨front, name, split, -⟩ := named
  intro empty
  rw [steps, empty] at split
  have none := congrArg List.length split
  simp [Text.splitOn] at none

/-- Whether the way to what a path names does not lead through it. -/
def Path.IsDirect (home : Location) (path : Path) : Prop :=
  ∀ location ∈ Location.trail (FileTree.startOf home path) path.moves.dropLast,
    ¬ path.locationFrom home <+: location

instance (home : Location) (path : Path) : Decidable (path.IsDirect home) :=
  inferInstanceAs (Decidable (∀ _ ∈ _, _))

namespace FileTree

variable {tree : FileTree} {path : Path} {footing : Footing}

/-- Whether a path names a directory and leads there through directories only. -/
def Enters (tree : FileTree) (path : Path) : Prop :=
  path.spellingFault? = none ∧ tree.Leads (startOf tree.workingDirectory path) path.moves

instance (tree : FileTree) (path : Path) : Decidable (tree.Enters path) := inferInstanceAs (Decidable (_ ∧ _))

/-- Whether a path leads through directories to one and ends in a name there. -/
structure EndsAt (tree : FileTree) (path : Path) (directory : Location) (name : Text) : Prop where
  spelled : path.spellingFault? = none
  ends : ∃ front, path.steps = front ++ [name] ∧
    tree.Leads (startOf tree.workingDirectory path) (Path.movesOf front) ∧
    directory = Location.along (startOf tree.workingDirectory path) (Path.movesOf front)
  isName : Path.isName name = true

theorem Enters.hasDirectory (enters : tree.Enters path) :
    tree.hasDirectory (path.locationFrom tree.workingDirectory) = true := enters.2.finish

theorem Enters.start (enters : tree.Enters path) :
    tree.hasDirectory (startOf tree.workingDirectory path) = true := enters.2.start

/-- A path that is spelled with a name at its end names an entry of the directory before it. -/
theorem Enters.endsAt (enters : tree.Enters path) (named : path.EndsInName) :
    ∃ directory name, tree.EndsAt path directory name := by
  obtain ⟨front, name, split, isName⟩ := named
  have leads := enters.2
  rw [Path.moves, split, Path.movesOf_append] at leads
  exact ⟨_, name, enters.1, ⟨front, split, (Leads.append_iff.mp leads).1, rfl⟩, isName⟩

theorem hasDirectory_startOf (home : tree.hasDirectory tree.workingDirectory = true) (path : Path) :
    tree.hasDirectory (startOf tree.workingDirectory path) = true := by
  unfold startOf
  split
  · exact hasDirectory_within List.nil_prefix home
  · exact home

namespace EndsAt

variable {directory : Location} {name : Text} (ends : tree.EndsAt path directory name)

include ends

theorem hasDirectory : tree.hasDirectory directory = true := by
  obtain ⟨front, -, leads, rfl⟩ := ends.ends
  exact leads.finish

theorem hasSlot : tree.HasSlot (directory ++ [name]) := ⟨directory, name, rfl, ends.isName, ends.hasDirectory⟩

theorem moves_eq : ∃ front, path.moves = front ++ [name] ∧
    tree.Leads (startOf tree.workingDirectory path) front ∧
    directory = Location.along (startOf tree.workingDirectory path) front := by
  obtain ⟨front, split, leads, is⟩ := ends.ends
  exact ⟨_, Path.moves_concat split (Path.ne_current_of_isName ends.isName), leads, is⟩

theorem mono {other : FileTree} (home : other.workingDirectory = tree.workingDirectory)
    (kept : ∀ location ∈ Location.trail (startOf tree.workingDirectory path) path.moves.dropLast,
      tree.hasDirectory location = true → other.hasDirectory location = true) :
    other.EndsAt path directory name := by
  obtain ⟨front, split, leads, is⟩ := ends.ends
  rw [Path.moves_concat split (Path.ne_current_of_isName ends.isName), List.dropLast_concat] at kept
  exact ⟨ends.spelled, ⟨front, split, home ▸ leads.mono kept, home ▸ is⟩, ends.isName⟩

theorem short (enters : tree.Enters path) : Octet.size name ≤ maxNameSize := by
  obtain ⟨front, moves, -, -⟩ := ends.moves_eq
  exact enters.2.1 name (by simp [moves])

theorem location_eq : path.locationFrom tree.workingDirectory = directory ++ [name] := by
  obtain ⟨front, moves, -, rfl⟩ := ends.moves_eq
  rw [Path.locationFrom, moves, Location.along_concat _ _ (Path.ne_parent_of_isName ends.isName)]

theorem mem_trail {location : Location} : location ∈ path.trailFrom tree.workingDirectory ↔
    location ∈ Location.trail (startOf tree.workingDirectory path) path.moves.dropLast ∨
      location = directory ++ [name] := by
  obtain ⟨front, moves, -, -⟩ := ends.moves_eq
  rw [← ends.location_eq, Path.trailFrom, Path.locationFrom, moves, List.dropLast_concat,
    Location.mem_trail_concat]

theorem stride_eq : tree.stride footing (startOf tree.workingDirectory path) path.steps =
    tree.stride footing directory [name] := by
  obtain ⟨front, split, leads, rfl⟩ := ends.ends
  rw [split, stride_append leads (.inl (List.cons_ne_nil name []))]

end EndsAt

/-! ## Places -/

theorem resolve_ok {location : Location} {node : Node} (ok : tree.resolve path = .ok (location, node)) :
    tree.placeOf path = .ok (.found location node) := by
  unfold resolve at ok
  cases placed : tree.placeOf path with
  | error fault =>
      rw [placed] at ok
      cases ok
  | ok place =>
      rw [placed] at ok
      cases place with
      | absent directory name => cases ok
      | found found there =>
          cases ok
          rfl

theorem journey_of_stride {segments : List Text} {place : Place}
    (arrived : tree.stride footing (startOf tree.workingDirectory path) segments = .ok (.arrived place)) :
    tree.journey footing path segments = .ok place := by
  rw [journey, travel, arrived]

theorem place_of_stride {place : Place} (spelled : path.spellingFault? = none)
    (arrived : tree.stride footing (startOf tree.workingDirectory path) path.steps = .ok (.arrived place)) :
    tree.place footing path = .ok place := by
  rw [FileTree.place, spelled, journey_of_stride arrived]

theorem arrives_of_journey (plain : tree.root.isPlain = true)
    (start : tree.hasDirectory (startOf tree.workingDirectory path) = true) {segments : List Text} {place : Place}
    (ok : tree.journey footing path segments = .ok place) :
    Arrives tree footing (startOf tree.workingDirectory path) segments place := by
  rw [journey, travel] at ok
  split at ok
  · cases ok
  · rename_i other walked
    rw [Except.ok.injEq] at ok
    subst ok
    obtain ⟨place, is, arrives⟩ := arrives_of_stride plain start walked
    cases is
    exact arrives
  · rename_i walked
    obtain ⟨_, is, -⟩ := arrives_of_stride plain start walked
    cases is

theorem arrives_of_place (plain : tree.root.isPlain = true)
    (start : tree.hasDirectory (startOf tree.workingDirectory path) = true) {place : Place}
    (ok : tree.place footing path = .ok place) : path.spellingFault? = none ∧
      Arrives tree footing (startOf tree.workingDirectory path) path.steps place := by
  rw [FileTree.place] at ok
  split at ok
  · cases ok
  · exact ⟨‹_›, arrives_of_journey plain start ok⟩

theorem EndsAt.place_absent {directory : Location} {name : Text} (ends : tree.EndsAt path directory name)
    (short : Octet.size name ≤ maxNameSize) (nothing : tree.get? (directory ++ [name]) = none)
    (fits : (footing.makesFile && footing.needsDirectory) = false) :
    tree.place footing path = .ok (.absent directory name) := by
  refine place_of_stride ends.spelled ?_
  rw [ends.stride_eq]
  refine strides_iff.mpr (.absent ⟨Path.ne_current_of_isName ends.isName, Path.ne_parent_of_isName ends.isName, ?_, ?_⟩)
  · rw [Bool.and_assoc, fits, Bool.and_false]
  · rw [lookUp_of_directory ends.hasDirectory short, nothing]

theorem EndsAt.place_file {directory : Location} {name : Text} (ends : tree.EndsAt path directory name)
    (short : Octet.size name ≤ maxNameSize) {content : Content} {executable : Bool}
    (there : tree.get? (directory ++ [name]) = some (.file content executable))
    (fits : footing.needsDirectory = false) :
    tree.place footing path = .ok (.found (directory ++ [name]) (.file content executable)) := by
  refine place_of_stride ends.spelled ?_
  rw [ends.stride_eq]
  refine strides_iff.mpr (.file ⟨Path.ne_current_of_isName ends.isName, Path.ne_parent_of_isName ends.isName, ?_, ?_⟩ fits)
  · rw [fits, Bool.and_false]
  · rw [lookUp_of_directory ends.hasDirectory short, there]

theorem Enters.place_eq (enters : tree.Enters path) (footing : Footing)
    (fits : (footing.makesFile && footing.needsDirectory) = false) :
    ∃ entries, tree.get? (path.locationFrom tree.workingDirectory) = some (.directory entries) ∧
      tree.place footing path =
        .ok (.found (path.locationFrom tree.workingDirectory) (.directory entries)) := by
  obtain ⟨entries, there⟩ := hasDirectory_iff.mp enters.hasDirectory
  have walked : tree.stride footing (startOf tree.workingDirectory path) (path.steps ++ []) = _ :=
    stride_append enters.2 (.inr fits)
  rw [List.append_nil] at walked
  exact ⟨entries, there, place_of_stride enters.1 (walked.trans (stride_nil there))⟩

theorem enters_of_place (plain : tree.root.isPlain = true)
    (start : tree.hasDirectory (startOf tree.workingDirectory path) = true) {location : Location}
    {entries : List (Text × Node)} (ok : tree.place footing path = .ok (.found location (.directory entries))) :
    tree.Enters path ∧ location = path.locationFrom tree.workingDirectory := by
  obtain ⟨spelled, arrives⟩ := arrives_of_place plain start ok
  cases arrives with
  | directory leads there => exact ⟨⟨spelled, leads⟩, rfl⟩

theorem isDirectory_iff (plain : tree.root.isPlain = true)
    (start : tree.hasDirectory (startOf tree.workingDirectory path) = true) :
    tree.isDirectory path = true ↔ tree.Enters path := by
  constructor
  · intro is
    rw [isDirectory, node?, resolve, placeOf] at is
    cases walked : tree.place ⟨true, path.endsInSlash, false⟩ path with
    | error fault =>
        rw [walked] at is
        cases is
    | ok place =>
        rw [walked] at is
        cases place with
        | absent directory name => cases is
        | found location node =>
            cases node with
            | file content executable => cases is
            | link target => cases is
            | directory entries => exact (enters_of_place plain start walked).1
  · intro enters
    obtain ⟨entries, there, walked⟩ := enters.place_eq ⟨true, path.endsInSlash, false⟩ rfl
    rw [isDirectory, node?, resolve, placeOf, walked]
    rfl

theorem contains_of_enters (enters : tree.Enters path) : tree.contains path = true := by
  obtain ⟨entries, there, walked⟩ := enters.place_eq ⟨true, path.endsInSlash, false⟩ rfl
  rw [contains, node?, resolve, placeOf, walked]
  rfl

/-- Where nothing is, nothing is found, unless the path is a way through directories. -/
theorem not_contains (plain : tree.root.isPlain = true)
    (start : tree.hasDirectory (startOf tree.workingDirectory path) = true) (notThere : ¬ tree.Enters path)
    (nothing : tree.get? (path.locationFrom tree.workingDirectory) = none) : tree.contains path = false := by
  rw [contains, node?, resolve, placeOf]
  cases walked : tree.place ⟨true, path.endsInSlash, false⟩ path with
  | error fault => rfl
  | ok place =>
      obtain ⟨spelled, arrives⟩ := arrives_of_place plain start walked
      cases arrives with
      | directory leads there => exact absurd ⟨spelled, leads⟩ notThere
      | file allowed split current parent leads short there =>
          rw [Path.locationFrom, Path.moves_concat split current, Location.along_concat _ _ parent, there] at nothing
          cases nothing
      | absent split current parent leads short nothing => rfl

theorem canonical_of_enters (enters : tree.Enters path) :
    tree.canonical path = .ok (path.locationFrom tree.workingDirectory) := by
  obtain ⟨entries, there, walked⟩ := enters.place_eq ⟨true, path.endsInSlash, false⟩ rfl
  rw [FileTree.place, enters.1] at walked
  simp only at walked
  rw [canonical, enters.1, walked]
  rfl

end FileTree

end Relink
