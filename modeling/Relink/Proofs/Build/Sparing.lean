import Relink.Proofs.Build.Preparation
import Relink.Proofs.FileTree.Adding

/-!
# Builds that spare what is not theirs

In a tree that may have links, preparing the output directory of a build changes nothing but what the path of the
output names itself, and adds nothing but directories on the way there, whether it succeeds or not. An output
directory that is, or contains, the source directory is refused before anything is changed.
-/

set_option autoImplicit false

namespace Relink

namespace FileTree

variable {tree after cleared : FileTree} {output source path : Path} {clear : Bool}

/-- Whether a path names something that is, or contains, the directory that another one names. -/
def Encloses (tree : FileTree) (output source : Path) : Prop :=
  ∃ base node home entries, tree.resolve output = .ok (base, node) ∧
    tree.resolve source = .ok (home, .directory entries) ∧ base <+: home

/-- Whether a path goes down by names in a part of a tree that lacks what the path is itself. -/
def GoesDownApart (tree : FileTree) (path : Path) : Prop :=
  ∃ part, Persists part tree ∧ (∀ own, tree.ownPlace path = .ok own → part.get? own.location = none) ∧
    part.GoesDown path

/-- What preparing an output directory leaves of a tree, whether it succeeds or not. -/
structure Spares (output : Path) (clear : Bool) (tree after : FileTree) : Prop where
  workingDirectory : after.workingDirectory = tree.workingDirectory
  /-- What is not to be cleared stays. -/
  kept : ∀ location node, tree.bare? location = some node →
    (clear = true → ∀ own, tree.ownPlace output = .ok own → ¬ own.location <+: location) →
    after.bare? location = some node
  /-- What is new are directories that the output is, or that are above it. -/
  made : ∀ location node, after.get? location = some node → tree.get? location = none →
    ∃ above ∈ output.ancestors, ∃ entries, after.resolve above = .ok (location, .directory entries)

/-- What preparing an output directory has brought about where it succeeds. -/
structure Brings (output : Path) (clear : Bool) (tree after : FileTree) : Prop where
  isDirectory : output.spelling ≠ [] → after.isDirectory output = true
  /-- What is inside an output that was there before are directories that were made on the way to it. -/
  cleared : clear = true → tree.contains output = true → ∀ own, tree.ownPlace output = .ok own →
    ∀ location node, own.location <+: location → location ≠ own.location → after.get? location = some node →
      ∃ above ∈ output.ancestors, ∃ entries, after.resolve above = .ok (location, .directory entries)
  empty : clear = true → tree.GoesDownApart output →
    ∃ location, after.resolve output = .ok (location, Node.emptyDirectory)

theorem canonical_of_resolve {location : Location} {node : Node} (resolved : tree.resolve path = .ok (location, node)) :
    tree.canonical path = .ok location := by
  have placed := resolve_ok resolved
  unfold placeOf place at placed
  rw [canonical]
  split at placed
  · cases placed
  · rename_i spelled
    rw [spelled, placed]
    rfl

theorem contains_of_resolve {location : Location} {node : Node} (resolved : tree.resolve path = .ok (location, node)) :
    tree.contains path = true := by
  rw [contains, node?, resolved]
  rfl

namespace Spares

/-- A tree that has nothing new spares what it keeps. -/
theorem of_persists (persists : Persists after tree)
    (kept : ∀ location, (clear = true → ∀ own, tree.ownPlace output = .ok own → ¬ own.location <+: location) →
      after.bare? location = tree.bare? location) : Spares output clear tree after := by
  refine ⟨persists.workingDirectory.symm, fun location node there outside => (kept location outside).trans there,
    fun location node there nothing => ?_⟩
  obtain ⟨_, isOther, -⟩ := persists.get? there
  rw [nothing] at isOther
  cases isOther

theorem refl (output : Path) (clear : Bool) (tree : FileTree) : Spares output clear tree tree :=
  .of_persists (.refl tree) fun _ _ => rfl

variable (spares : Spares output clear tree cleared)

include spares

theorem makes (makes : Makes output.ancestors cleared after) : Spares output clear tree after := by
  refine ⟨makes.persists.workingDirectory.trans spares.workingDirectory, fun location node there outside =>
    makes.persists.nodes location node (spares.kept location node there outside), fun location node there nothing => ?_⟩
  cases middle : cleared.get? location with
  | none => exact makes.named location node there middle
  | some other =>
      obtain ⟨above, member, entries, resolved⟩ := spares.made location other middle nothing
      obtain ⟨others, again⟩ := makes.persists.resolve_directory resolved
      exact ⟨above, member, others, again⟩

/-- A part of the tree that lacks what is cleared is still there. -/
theorem persists {part : FileTree} (within : Persists part tree)
    (apart : ∀ own, tree.ownPlace output = .ok own → part.get? own.location = none) : Persists part cleared := by
  refine ⟨spares.workingDirectory.trans within.workingDirectory, fun location node there => ?_⟩
  refine spares.kept location node (within.nodes location node there) fun _ own isOwn below => ?_
  rw [bare?, missing_below (apart own isOwn) below] at there
  cases there

/-- Making the directories brings the output about, empty if it was cleared. -/
theorem brings (vacant : clear = true →
      ∀ location entries, cleared.resolve output = .ok (location, .directory entries) → entries = [])
    (clears : clear = true → tree.contains output = true → ∀ own, tree.ownPlace output = .ok own →
      ∀ location, own.location <+: location → location ≠ own.location → cleared.get? location = none)
    (ok : makeDirectories output cleared = (.ok (), after)) : Brings output clear tree after := by
  have makes : Makes output.ancestors cleared (makeDirectories output cleared).2 := .ensureFirst _ _
  rw [ok] at makes
  refine ⟨fun named => makeDirectories_isDirectory named ok, ?_, fun clearing goesDownApart => ?_⟩
  · intro clearing there own isOwn location node within apart isNew
    exact makes.named location node isNew (clears clearing there own isOwn location within apart)
  · obtain ⟨part, within, apart, goesDown⟩ := goesDownApart
    have still := (spares.persists within apart).goesDown goesDown
    exact ensureFirst_empty (vacant clearing) still ok

end Spares

end FileTree

namespace Build

variable {source output : Path} {clear : Bool} {progress : Progress}

theorem perform_eq (blame : SystemFault → BuildFault) (change : FileTree.Change Unit) (progress : Progress) :
    perform blame change progress =
      ((change progress.tree).1.mapError blame, { progress with tree := (change progress.tree).2 }) := by
  unfold perform
  split <;> rename_i changed <;> rw [changed] <;> rfl

/-- How preparing an output directory goes: it fails at once, or it clears what is there and fails at that, or the
directories are made in the end. -/
theorem prepareOutput_cases (source output : Path) (clear : Bool) (progress : Progress) :
    (∃ fault, prepareOutput source output clear progress = (.error fault, progress)) ∨
      (clear = true ∧ ∃ fault cleared, FileTree.removeDirectory output progress.tree = (.error fault, cleared) ∧
        prepareOutput source output clear progress =
          (.error (.clearing output fault), { progress with tree := cleared })) ∨
      ∃ cleared, (clear = true ∧ FileTree.removeDirectory output progress.tree = (.ok (), cleared.tree) ∨
          cleared = progress ∧ (clear = true → progress.tree.contains output = false)) ∧
        prepareOutput source output clear progress =
          perform (.creating output) (FileTree.makeDirectories output) cleared := by
  rw [prepareOutput_eq]
  split
  swap
  · rename_i absent
    exact .inr (.inr ⟨progress, .inr ⟨rfl, fun _ => by simpa using absent⟩, rfl⟩)
  rw [bind_state]
  cases clear with
  | false =>
      unfold reclaimOutput
      rw [bind_state]
      simp only [look]
      cases holdsSources source output progress.tree with
      | error fault => exact .inl ⟨fault, rfl⟩
      | ok holds =>
          cases holds with
          | true => exact .inl ⟨_, rfl⟩
          | false => exact .inr (.inr ⟨progress, .inr ⟨rfl, fun clearing => absurd clearing Bool.false_ne_true⟩, rfl⟩)
  | true =>
      rw [reclaimOutput_eq]
      cases holdsSources source output progress.tree with
      | error fault => exact .inl ⟨fault, rfl⟩
      | ok holds =>
          cases holds with
          | true => exact .inl ⟨_, rfl⟩
          | false =>
              simp only [bind_state, perform_eq]
              cases removed : FileTree.removeDirectory output progress.tree with
              | mk outcome cleared =>
                  cases outcome with
                  | error fault => exact .inr (.inl ⟨trivial, fault, cleared, rfl, rfl⟩)
                  | ok => exact .inr (.inr ⟨_, .inl ⟨trivial, rfl⟩, rfl⟩)

/-- Preparing an output directory, whether it succeeds or not, changes nothing but what the path of the output names
itself. -/
theorem prepareOutput_spares (source : Path) (progress : Progress)
    (apart : clear = true → progress.tree.isLinkSpelledDirectory output = false) :
    FileTree.Spares output clear progress.tree (prepareOutput source output clear progress).2.tree ∧
      ((prepareOutput source output clear progress).1 = .ok () →
        FileTree.Brings output clear progress.tree (prepareOutput source output clear progress).2.tree) := by
  -- Clearing removes what is at the own place of the output.
  have clears : clear = true →
      FileTree.Spares output clear progress.tree (FileTree.removeDirectory output progress.tree).2 := by
    intro clearing
    obtain ⟨persists, kept⟩ := FileTree.removeDirectory_spares output progress.tree
    exact .of_persists persists fun location outside => kept location fun own node found =>
      outside clearing _ (FileTree.ownPlace_eq (apart clearing) found)
  rcases prepareOutput_cases source output clear progress with
    ⟨fault, failed⟩ | ⟨clearing, fault, cleared, removed, failed⟩ | ⟨cleared, begun, made⟩
  · rw [failed]
    exact ⟨.refl _ _ _, nofun⟩
  · have spares := clears clearing
    rw [removed] at spares
    rw [failed]
    exact ⟨spares, nofun⟩
  · rw [made, perform_eq]
    have ran : ∀ {change : Except SystemFault Unit × FileTree},
        change.1.mapError (BuildFault.creating output) = .ok () → change = (.ok (), change.2) := by
      rintro ⟨_ | _, after⟩ succeeds
      · cases succeeds
      · rfl
    rcases begun with ⟨clearing, removed⟩ | ⟨rfl, absent⟩
    · have spares := clears clearing
      rw [removed] at spares
      obtain ⟨own, node, found, clean⟩ := FileTree.removeDirectory_clears removed
      refine ⟨spares.makes (.ensureFirst _ _), fun succeeds => spares.brings
        (fun _ location entries => FileTree.removeDirectory_vacates removed) ?_ (ran succeeds)⟩
      intro _ _ place isOwn
      cases isOwn.symm.trans (FileTree.ownPlace_eq (apart clearing) found)
      exact clean
    · have spares := FileTree.Spares.refl output clear cleared.tree
      refine ⟨spares.makes (.ensureFirst _ _), fun succeeds => spares.brings ?_ ?_ (ran succeeds)⟩
      · intro clearing location entries resolved
        have there := FileTree.contains_of_resolve resolved
        rw [absent clearing] at there
        cases there
      · intro clearing there
        rw [absent clearing] at there
        cases there

/-- An output directory that is, or contains, the source directory is refused. -/
theorem prepareOutput_encloses (clear : Bool) (encloses : progress.tree.Encloses output source) :
    prepareOutput source output clear progress = (.error (.outputHoldsSources output source), progress) := by
  obtain ⟨base, node, home, entries, isOutput, isSource, within⟩ := encloses
  have holds : holdsSources source output progress.tree = .ok true := by
    rw [holdsSources, FileTree.canonical_of_resolve isSource, FileTree.canonical_of_resolve isOutput]
    exact congrArg Except.ok (List.isPrefixOf_iff_prefix.mpr within)
  rw [prepareOutput_eq, FileTree.contains_of_resolve isOutput, if_pos rfl, bind_state, reclaimOutput, bind_state]
  simp only [look, holds]
  rfl

/-! ## Builds -/

/-- A build that finds no sources changes nothing, and so does one whose output directory is, or contains, the source
directory: it is refused. Otherwise preparing the output directory spares what the output is not itself, unless the
output is a link that is spelled as a directory. -/
theorem run_spares (config : Config) (compiler : Compiler) (tree : FileTree) :
    (∀ fault, discoverSources tree config.source config.sourceExtensions = .error fault →
      run config compiler (.start tree) = (.error fault, .start tree)) ∧
    (tree.Encloses config.output config.source →
      (∀ progress, progress.tree = tree → prepareOutput config.source config.output config.clear progress =
        (.error (.outputHoldsSources config.output config.source), progress)) ∧
      ∃ progress, run config compiler (.start tree) =
          (.error (.outputHoldsSources config.output config.source), progress) ∧
        progress.tree = tree ∧ progress.jobs = []) ∧
    ((config.clear = true → tree.isLinkSpelledDirectory config.output = false) →
      ∀ progress, progress.tree = tree → ∀ result after,
        prepareOutput config.source config.output config.clear progress = (result, after) →
        FileTree.Spares config.output config.clear tree after.tree ∧
          (result = .ok () → FileTree.Brings config.output config.clear tree after.tree)) := by
  refine ⟨fun fault failed => ?_, fun encloses => ⟨?_, ?_⟩, ?_⟩
  · rw [run_eq]
    simp only [Progress.start, failed]
  · rintro progress rfl
    exact prepareOutput_encloses config.clear encloses
  · have isDirectory : tree.isDirectory config.source = true := by
      obtain ⟨base, node, home, entries, -, isSource, -⟩ := encloses
      exact FileTree.isDirectory_iff_resolve.mpr ⟨home, entries, isSource⟩
    rw [run_eq, discoverSources, Progress.start, if_pos isDirectory]
    simp only [bind_state]
    rw [prepareOutput_encloses config.clear encloses]
    exact ⟨_, rfl, rfl, rfl⟩
  · rintro apart progress rfl result after prepared
    have spares := prepareOutput_spares config.source progress apart
    rwa [prepared] at spares

/-- A working directory whose output directory has a link to another directory. -/
def linkedOutputTree : FileTree :=
  ⟨.directory [(['w'], .directory
    [("src".toList, .directory [("a.ts".toList, .file (.text "x;\n".toList) false)]),
      ("keep".toList, .directory [("k.txt".toList, .file (.text "k".toList) false)]),
      ("build".toList, .directory
        [("old.js".toList, .file (.text "old".toList) false), ("kept".toList, .link (.ofString "../keep"))])])],
    [['w']]⟩

theorem run_spares_linked : ∃ after,
    prepareOutput (.ofString "src") (.ofString "build") true (.start linkedOutputTree) = (.ok (), after) ∧
    after.tree.bare? [['w'], "keep".toList, "k.txt".toList] = some (.file (.text "k".toList) false) ∧
    ∃ location, after.tree.resolve (.ofString "build") = .ok (location, Node.emptyDirectory) := by
  obtain ⟨after, prepared⟩ : ∃ after,
      prepareOutput (.ofString "src") (.ofString "build") true (.start linkedOutputTree) = (.ok (), after) :=
    ran_of_fst (by decide +kernel)
  have own : ∀ place, linkedOutputTree.ownPlace (.ofString "build") = .ok place →
      place.location = [['w'], "build".toList] := by
    intro place isOwn
    have location : (linkedOutputTree.ownPlace (.ofString "build")).map Place.location =
        .ok [['w'], "build".toList] := by decide +kernel
    rw [isOwn] at location
    exact Except.ok.inj location
  have slot : linkedOutputTree.HasSlot [['w'], "build".toList] := ⟨[['w']], _, rfl, by decide, by decide⟩
  have apart : linkedOutputTree.GoesDownApart (.ofString "build") := by
    refine ⟨_, FileTree.persists_erase slot, fun place isOwn => ?_,
      [], ["build".toList], [['w']], _, by decide, by decide, by decide, rfl⟩
    rw [own place isOwn]
    exact FileTree.get?_erase_self slot
  obtain ⟨spares, brings⟩ := (run_spares Config.standard .copying linkedOutputTree).2.2 (fun _ => by decide)
    (.start linkedOutputTree) rfl _ _ prepared
  refine ⟨after, prepared, spares.kept _ _ rfl fun _ place isOwn => ?_, (brings rfl).empty rfl apart⟩
  rw [own place isOwn]
  decide

end Build

end Relink
