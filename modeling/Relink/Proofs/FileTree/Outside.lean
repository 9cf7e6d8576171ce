import Relink.Proofs.FileTree.Change

/-!
# Changes inside a directory

Two trees are the same outside a directory where they are equal once it is emptied in both. Whatever is made,
written or copied at paths below the directory leaves the tree the same outside it.
-/

set_option autoImplicit false

namespace Relink

/-- Whether a path leads down only: it is not absolute, takes some name and never goes up. -/
def Path.LeadsDown (path : Path) : Prop :=
  path.isAbsolute = false ∧ path.moves ≠ [] ∧ ∀ move ∈ path.moves, move ≠ Path.parentSegment

instance (path : Path) : Decidable path.LeadsDown := inferInstanceAs (Decidable (_ ∧ _))

namespace FileTree

/-- Whether a tree without links is another one but for what is in a directory of both. -/
structure SameOutside (output : Location) (tree other : FileTree) : Prop where
  plain : other.root.isPlain = true
  workingDirectory : other.workingDirectory = tree.workingDirectory
  hasDirectory : other.hasDirectory output = true
  emptied : other.put output Node.emptyDirectory = tree.put output Node.emptyDirectory

namespace SameOutside

variable {output : Location} {tree other later : FileTree}

theorem refl (plain : tree.root.isPlain = true) (there : tree.hasDirectory output = true) :
    SameOutside output tree tree := ⟨plain, rfl, there, rfl⟩

theorem trans (first : SameOutside output tree other) (second : SameOutside output other later) :
    SameOutside output tree later :=
  ⟨second.plain, second.workingDirectory.trans first.workingDirectory, second.hasDirectory,
    second.emptied.trans first.emptied⟩

section Slot

variable (slot : tree.HasSlot output) (same : SameOutside output tree other)

include slot same

theorem hasSlot : other.HasSlot output := by
  obtain ⟨directory, name, rfl, isName, -⟩ := slot
  exact ⟨directory, name, rfl, isName, hasDirectory_above same.hasDirectory⟩

theorem get?_eq {location : Location} (noPrefix : ¬ output <+: location) (noSuffix : ¬ location <+: output) :
    other.get? location = tree.get? location := by
  rw [← get?_put_apart (same.hasSlot slot) Node.emptyDirectory noPrefix noSuffix, same.emptied,
    get?_put_apart slot _ noPrefix noSuffix]

theorem hasDirectory_outside {location : Location} (outside : ¬ output <+: location)
    (is : tree.hasDirectory location = true) : other.hasDirectory location = true := by
  by_cases above : location <+: output
  · exact hasDirectory_within above same.hasDirectory
  · rwa [FileTree.hasDirectory, same.get?_eq slot outside above]

/-- A path that does not lead through the directory still leads where it led. -/
theorem enters {path : Path} (is : tree.Enters path)
    (apart : ∀ location ∈ path.trailFrom tree.workingDirectory, output <+: location → location = output) :
    other.Enters path := by
  refine ⟨is.1, same.workingDirectory ▸ is.2.mono fun location member there => ?_⟩
  by_cases within : output <+: location
  · rw [apart location member within]
    exact same.hasDirectory
  · exact same.hasDirectory_outside slot within there

theorem erase_eq : other.erase output = tree.erase output := by
  rw [← erase_put (same.hasSlot slot) Node.emptyDirectory, same.emptied, erase_put slot]

end Slot

/-- What is put below the directory is not outside it. -/
theorem put {below : Location} {new : Node} (plain : tree.root.isPlain = true)
    (there : tree.hasDirectory output = true) (goesOn : below ≠ []) (slot : tree.HasSlot (output ++ below))
    (newPlain : new.isPlain = true) : SameOutside output tree (tree.put (output ++ below) new) := by
  obtain ⟨entries, isDirectory⟩ := hasDirectory_iff.mp there
  refine ⟨isPlain_put slot plain newPlain, rfl, ?_, put_put_below isDirectory below new _⟩
  refine hasDirectory_put slot new there fun within => goesOn ?_
  have shorter := within.length_le
  rw [List.length_append] at shorter
  exact List.length_eq_zero_iff.mp (by omega)

theorem grows {way : List Location} (plain : tree.root.isPlain = true) (there : tree.hasDirectory output = true)
    (within : ∀ location ∈ way, output <+: location ∨ tree.hasDirectory location = true)
    (grows : Grows way tree other) : SameOutside output tree other := by
  induction grows with
  | same => exact .refl plain there
  | @make grown location grows onWay slot nothing ih =>
      refine ih.trans ?_
      rcases within _ onWay with ⟨below, rfl⟩ | is
      · refine .put ih.plain ih.hasDirectory ?_ slot rfl
        rintro rfl
        rw [List.append_nil] at nothing
        exact not_hasDirectory_below nothing List.prefix_rfl ih.hasDirectory
      · exact absurd (grows.hasDirectory is) (not_hasDirectory_below nothing List.prefix_rfl)

end SameOutside

/-! ## An output directory -/

/-- Whether a tree without links has a directory under a path that ends in its name, and the way there does not
lead through it. -/
structure IsReady (tree : FileTree) (output : Path) : Prop where
  plain : tree.root.isPlain = true
  enters : tree.Enters output
  named : output.EndsInName
  direct : output.IsDirect tree.workingDirectory

section Ready

variable {tree other : FileTree} {output : Path} (ready : tree.IsReady output)

include ready

theorem IsReady.hasSlot : tree.HasSlot (output.locationFrom tree.workingDirectory) := by
  obtain ⟨directory, name, ends⟩ := ready.enters.endsAt ready.named
  rw [ends.location_eq]
  exact ends.hasSlot

theorem IsReady.refl : SameOutside (output.locationFrom tree.workingDirectory) tree tree :=
  .refl ready.plain ready.enters.hasDirectory

theorem SameOutside.isReady (same : SameOutside (output.locationFrom tree.workingDirectory) tree other) :
    other.IsReady output := by
  refine ⟨same.plain, same.enters ready.hasSlot ready.enters fun location member within => ?_, ready.named, ?_⟩
  · obtain ⟨directory, name, ends⟩ := ready.enters.endsAt ready.named
    rcases ends.mem_trail.mp member with before | last
    · exact absurd within (ready.direct location before)
    · rw [last, ends.location_eq]
  · rw [same.workingDirectory]
    exact ready.direct

end Ready

/-! ## Paths below a directory -/

section Below

variable {tree : FileTree} {output next : Path}

theorem startOf_join (relative : next.isAbsolute = false) (home : Location) (output : Path) :
    startOf home (output.join next) = startOf home output := by
  rw [startOf, startOf, Path.isAbsolute_join relative]

theorem locationFrom_join (down : next.LeadsDown) (home : Location) (output : Path) :
    (output.join next).locationFrom home = output.locationFrom home ++ next.moves := by
  rw [Path.locationFrom, Path.moves_join down.1, startOf_join down.1, Location.along_append,
    Location.along_names down.2.2, ← Path.locationFrom]

theorem mem_trailFrom_join (down : next.LeadsDown) {home location : Location}
    (member : location ∈ (output.join next).trailFrom home) :
    output.locationFrom home <+: location ∨ location ∈ output.trailFrom home := by
  rw [Path.trailFrom, Path.moves_join down.1, startOf_join down.1, Location.mem_trail_append] at member
  rcases member with before | behind
  · exact .inr before
  · exact .inl (Location.prefix_of_mem_trail down.2.2 behind)

theorem start_join (enters : tree.Enters output) (down : next.LeadsDown) :
    tree.hasDirectory (startOf tree.workingDirectory (output.join next)) = true := by
  rw [startOf_join down.1]
  exact enters.start

variable (plain : tree.root.isPlain = true) (enters : tree.Enters output) (down : next.LeadsDown)

include plain enters down

/-- What is written under a path below a directory that is there. -/
theorem EndsAt.same_put {directory : Location} {name : Text} (ends : tree.EndsAt (output.join next) directory name)
    {new : Node} (newPlain : new.isPlain = true) : SameOutside (output.locationFrom tree.workingDirectory) tree
      (tree.put (directory ++ [name]) new) := by
  have place : directory ++ [name] = output.locationFrom tree.workingDirectory ++ next.moves := by
    rw [← ends.location_eq, locationFrom_join down]
  have slot := ends.hasSlot
  rw [place] at slot ⊢
  exact .put plain enters.hasDirectory down.2.1 slot newPlain

theorem writeText_same {text : Text} {made : FileTree} (ok : tree.writeText (output.join next) text = .ok made) :
    SameOutside (output.locationFrom tree.workingDirectory) tree made := by
  obtain ⟨directory, name, mark, ends, -, rfl⟩ := writeText_ok plain (start_join enters down) ok
  exact ends.same_put plain enters down rfl

theorem copyFile_same {source : Path} {made : FileTree} (ok : tree.copyFile source (output.join next) = .ok made) :
    SameOutside (output.locationFrom tree.workingDirectory) tree made := by
  obtain ⟨directory, name, content, mark, ends, -, rfl⟩ := copyFile_ok plain (start_join enters down) ok
  exact ends.same_put plain enters down rfl

theorem makeDirectories_same {parent : Path} (isParent : (output.join next).parent? = some parent) :
    SameOutside (output.locationFrom tree.workingDirectory) tree (makeDirectories parent tree).2 := by
  have starts : startOf tree.workingDirectory parent = startOf tree.workingDirectory (output.join next) := by
    rw [startOf, startOf, Path.isAbsolute_above isParent]
  have start := start_join enters down
  rw [← starts] at start
  refine .grows plain enters.hasDirectory (fun location member => ?_) (makeDirectories_grows plain start)
  have onWay : location ∈ (output.join next).trailFrom tree.workingDirectory := by
    rw [Path.trailFrom, starts, Path.moves_above isParent] at member
    exact Location.mem_trail_dropLast member
  exact (mem_trailFrom_join down onWay).imp_right (enters.2.2 location)

end Below

end FileTree

end Relink
