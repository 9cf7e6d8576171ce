import Relink.Proofs.Build.Preparation

/-!
# Sources of a build

A build finds the files of its source directory. Where the output directory stays clear of it, preparing and
filling the output leaves them.
-/

set_option autoImplicit false

namespace Relink

/-! ## Kept directories -/

namespace FileTree

/-- Changes in a directory leave another one, the way to which does not lead through it. -/
theorem SameOutside.source_kept {tree after : FileTree} {source output : Path} (ready : tree.IsReady output)
    (sourceEnters : tree.Enters source)
    (sourceWay : ∀ location ∈ source.trailFrom tree.workingDirectory,
      ¬ output.locationFrom tree.workingDirectory <+: location)
    (notInside : ¬ source.locationFrom tree.workingDirectory <+: output.locationFrom tree.workingDirectory)
    (same : SameOutside (output.locationFrom tree.workingDirectory) tree after) : after.Enters source ∧
      after.get? (source.locationFrom tree.workingDirectory) =
        tree.get? (source.locationFrom tree.workingDirectory) := by
  refine ⟨⟨sourceEnters.1, same.workingDirectory ▸ sourceEnters.2.mono fun location member is => ?_⟩, ?_⟩
  · exact same.hasDirectory_outside ready.hasSlot (sourceWay location member) is
  · exact same.get?_eq ready.hasSlot (sourceWay _ (Path.locationFrom_mem_trailFrom _ _)) notInside

end FileTree

namespace Build

/-! ## Sources -/

section Sources

variable {tree : FileTree} {directory : Path} {extensions : List Text} {sources : SourceListing}

theorem discoverSources_ok (plain : tree.root.isPlain = true)
    (start : tree.hasDirectory (FileTree.startOf tree.workingDirectory directory) = true)
    (ok : discoverSources tree directory extensions = .ok sources) :
    tree.Enters directory ∧ sources = .ofFiles extensions (tree.filesBelow directory) := by
  unfold discoverSources at ok
  split at ok
  · rename_i isDirectory
    cases ok
    exact ⟨(FileTree.isDirectory_iff plain start).mp isDirectory, rfl⟩
  · cases ok

theorem discoverSources_eq (plain : tree.root.isPlain = true) (enters : tree.Enters directory)
    (extensions : List Text) :
    discoverSources tree directory extensions = .ok (.ofFiles extensions (tree.filesBelow directory)) := by
  rw [discoverSources, if_pos ((FileTree.isDirectory_iff plain enters.start).mpr enters)]

theorem leadsDown_of_mem_filesBelow (plain : tree.root.isPlain = true) (enters : tree.Enters directory) {file : Path}
    (member : file ∈ tree.filesBelow directory) :
    file.LeadsDown ∧ ∀ extension, (emittedPath file extension).LeadsDown := by
  obtain ⟨names, below, rfl, -⟩ := FileTree.of_mem_filesBelow plain enters member
  refine ⟨below.leadsDown, fun extension => ?_⟩
  rw [emittedPath_location below]
  exact (emittedLocation_isBelow below extension).leadsDown

end Sources

/-! ## Directories that stay clear of one another -/

/-- Whether the directories of a build stay clear of one another: the output is not inside the source, no way to
either leads through the output, and what is missing on the way to the output leads down to it. -/
structure Config.KeepsApart (config : Config) (tree : FileTree) : Prop where
  home : tree.hasDirectory tree.workingDirectory = true
  named : config.output.EndsInName
  notInside : ¬ config.source.locationFrom tree.workingDirectory <+:
    config.output.locationFrom tree.workingDirectory
  sourceWay : ∀ location ∈ config.source.trailFrom tree.workingDirectory,
    ¬ config.output.locationFrom tree.workingDirectory <+: location
  outputWay : config.output.IsDirect tree.workingDirectory
  leadsThere : ∀ location ∈ config.output.trailFrom tree.workingDirectory, tree.get? location = none →
    location <+: config.output.locationFrom tree.workingDirectory

/-- Directories that are named without `..` stay clear of one another where neither is inside the other. -/
theorem Config.keepsApart_of_down {config : Config} {tree : FileTree}
    (home : tree.hasDirectory tree.workingDirectory = true) (named : config.output.EndsInName)
    (sourceDown : ∀ move ∈ config.source.moves, move ≠ Path.parentSegment)
    (outputDown : ∀ move ∈ config.output.moves, move ≠ Path.parentSegment)
    (notInside : ¬ config.source.locationFrom tree.workingDirectory <+:
      config.output.locationFrom tree.workingDirectory)
    (notAround : ¬ config.output.locationFrom tree.workingDirectory <+:
      config.source.locationFrom tree.workingDirectory) : config.KeepsApart tree := by
  have downward : ∀ path : Path, (∀ move ∈ path.moves, move ≠ Path.parentSegment) →
      path.locationFrom tree.workingDirectory = FileTree.startOf tree.workingDirectory path ++ path.moves :=
    fun _ down => Location.along_names down
  refine ⟨home, named, notInside, fun location member within => notAround ?_, fun location member within => ?_,
    fun location member _ => ?_⟩
  · rw [downward _ sourceDown]
    exact within.trans (Location.within_of_mem_trail sourceDown member)
  · have higher := within.trans (Location.within_of_mem_trail
      (fun move isMove => outputDown move ((List.dropLast_prefix _).subset isMove)) member)
    obtain ⟨front, name, split, isName⟩ := named
    rw [downward _ outputDown, Path.moves_concat split (Path.ne_current_of_isName isName), List.dropLast_concat,
      List.prefix_append_right_inj] at higher
    exact FileTree.not_concat_within _ name higher
  · rw [downward _ outputDown]
    exact Location.within_of_mem_trail outputDown member

section Kept

variable {tree prepared after : FileTree} {source output : Path} (sourceEnters : tree.Enters source)
    (sourceWay : ∀ location ∈ source.trailFrom tree.workingDirectory,
      ¬ output.locationFrom tree.workingDirectory <+: location)
    (notInside : ¬ source.locationFrom tree.workingDirectory <+: output.locationFrom tree.workingDirectory)
    (first : FileTree.Prepared output tree prepared)
    (filled : FileTree.SameOutside (output.locationFrom prepared.workingDirectory) prepared after)

include sourceEnters sourceWay notInside first filled

theorem source_kept : after.Enters source ∧
    after.get? (source.locationFrom tree.workingDirectory) = tree.get? (source.locationFrom tree.workingDirectory) := by
  have sourceApart := sourceWay _ (Path.locationFrom_mem_trailFrom _ _)
  have enters : prepared.Enters source := by
    refine ⟨sourceEnters.1, first.workingDirectory ▸ sourceEnters.2.mono fun location member is => ?_⟩
    exact first.directories location (sourceWay location member) is
  have kept : prepared.get? (source.locationFrom tree.workingDirectory) =
      tree.get? (source.locationFrom tree.workingDirectory) := by
    obtain ⟨entries, there⟩ := FileTree.hasDirectory_iff.mp sourceEnters.hasDirectory
    rw [first.elsewhere _ _ sourceApart notInside there, there]
  rw [← first.workingDirectory] at sourceWay notInside
  obtain ⟨entersAfter, keptAfter⟩ := filled.source_kept first.ready enters sourceWay notInside
  rw [first.workingDirectory] at keptAfter
  exact ⟨entersAfter, keptAfter.trans kept⟩

theorem sources_kept : after.Enters source ∧ after.filesBelow source = tree.filesBelow source := by
  obtain ⟨enters, kept⟩ := source_kept sourceEnters sourceWay notInside first filled
  refine ⟨enters, ?_⟩
  obtain ⟨entries, there, files⟩ := FileTree.filesBelow_eq sourceEnters
  obtain ⟨entriesAfter, thereAfter, filesAfter⟩ := FileTree.filesBelow_eq enters
  rw [filled.workingDirectory.trans first.workingDirectory, kept, there] at thereAfter
  cases thereAfter
  rw [files, filesAfter]

end Kept

end Build

end Relink
