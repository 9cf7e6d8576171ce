import Relink.Proofs.Build.Targets
import Relink.Proofs.Build.Verbatim
import Relink.Proofs.Rebuilding

/-!
# Files that are written twice

Nothing keeps two files of a build from getting one path below the output. The paths in the report are distinct just
where no two entry points of a directory differ in nothing but their extensions and no asset is named as the module
of an entry point. There every asset ends up as a copy of its source.
-/

set_option autoImplicit false

namespace Relink.Build

/-! ## Preparing the output -/

section Prepare

variable {source output : Path} {progress after : Progress}

/-- An output directory that is not to be cleared is left as it is. -/
theorem reclaimOutput_kept (ok : reclaimOutput source output false progress = (.ok (), after)) : after = progress := by
  unfold reclaimOutput at ok
  rw [bind_state] at ok
  simp only [look] at ok
  cases holds : holdsSources source output progress.tree with
  | error fault =>
      rw [holds] at ok
      cases ok
  | ok is =>
      rw [holds] at ok
      cases is <;> cases ok
      rfl

/-- Without clearing, only directories on the way to the output are made. -/
theorem prepareOutput_grows (plain : progress.tree.root.isPlain = true)
    (start : progress.tree.hasDirectory (FileTree.startOf progress.tree.workingDirectory output) = true)
    (ok : prepareOutput source output false progress = (.ok (), after)) (named : output.EndsInName) :
    FileTree.Grows (output.trailFrom progress.tree.workingDirectory) progress.tree after.tree ∧
      after.tree.Enters output := by
  have made : ∀ before : Progress, before.tree = progress.tree →
      perform (.creating output) (FileTree.makeDirectories output) before = (.ok (), after) →
      FileTree.Grows (output.trailFrom progress.tree.workingDirectory) progress.tree after.tree ∧
        after.tree.Enters output := by
    intro before same isMade
    have grows := FileTree.makeDirectories_grows plain start
    unfold perform at isMade
    rw [same] at isMade
    split at isMade
    · rename_i grown isGrown
      rw [isGrown] at grows
      cases isMade
      exact ⟨grows, FileTree.makeDirectories_enters plain start named.spelling_ne_nil isGrown⟩
    · cases isMade
  rw [prepareOutput_eq] at ok
  split at ok
  · rw [bind_state] at ok
    split at ok
    · rename_i reclaimed isReclaimed
      exact made reclaimed (by rw [reclaimOutput_kept isReclaimed]) ok
    · cases ok
  · exact made progress rfl ok

/-- Preparing the output leaves the sources, whether or not it is cleared. -/
theorem prepareOutput_keeps {config : Config} (apart : config.KeepsApart progress.tree)
    (plain : progress.tree.root.isPlain = true) (sourceEnters : progress.tree.Enters config.source)
    (ok : prepareOutput config.source config.output config.clear progress = (.ok (), after)) :
    after.tree.IsReady config.output ∧ after.tree.workingDirectory = progress.tree.workingDirectory ∧
      after.tree.Enters config.source ∧
      ∀ names, after.tree.content? (config.source.locationFrom progress.tree.workingDirectory ++ names) =
        progress.tree.content? (config.source.locationFrom progress.tree.workingDirectory ++ names) := by
  obtain ⟨home, named, notInside, sourceWay, outputWay, leadsThere⟩ := apart
  have start := FileTree.hasDirectory_startOf home config.output
  cases clear : config.clear with
  | true =>
      rw [clear] at ok
      have first := prepareOutput_prepared plain start named outputWay leadsThere ok
      obtain ⟨enters, kept⟩ := source_kept sourceEnters sourceWay notInside first first.ready.refl
      exact ⟨first.ready, first.workingDirectory, enters, FileTree.content?_below kept⟩
  | false =>
      rw [clear] at ok
      obtain ⟨grows, enters⟩ := prepareOutput_grows plain start ok named
      have isHome := grows.workingDirectory
      refine ⟨⟨grows.plain plain, enters, named, isHome ▸ outputWay⟩, isHome, ⟨sourceEnters.1, ?_⟩, fun names =>
        grows.content?_eq _⟩
      rw [isHome]
      exact sourceEnters.2.mono fun location _ is => grows.hasDirectory is

end Prepare

/-! ## The paths of a build -/

theorem run_ok {config : Config} {compiler : Compiler} {tree : FileTree} {report : BuildReport} {progress : Progress}
    (built : run config compiler (.start tree) = (.ok report, progress)) :
    ∃ sources prepared copied compiled relinked,
      discoverSources tree config.source config.sourceExtensions = .ok sources ∧
      prepareOutput config.source config.output config.clear (.discovered config sources tree) = (.ok (), prepared) ∧
      copyAssets config.source config.output sources.assets prepared = (.ok (), copied) ∧
      compileIfAny compiler (config.job sources.entryPoints) copied = (.ok (), compiled) ∧
      relinkIfNeeded config (config.job sources.entryPoints).emitted compiled = (.ok relinked, progress) ∧
      report = ⟨config.format, sources.assets, (config.job sources.entryPoints).emitted, relinked⟩ := by
  cases isDiscovered : discoverSources tree config.source config.sourceExtensions with
  | error fault =>
      rw [run_eq] at built
      simp only [Progress.start, isDiscovered] at built
      cases built
  | ok sources =>
      -- One phase after another has succeeded, or the build has failed.
      rw [run_emit compiler isDiscovered] at built
      simp only [emit, bind_assoc] at built
      rw [bind_state] at built
      split at built
      swap
      · cases built
      rename_i prepared isPrepared
      rw [bind_state] at built
      split at built
      swap
      · cases built
      rename_i copied isCopied
      rw [bind_state] at built
      split at built
      swap
      · cases built
      rename_i compiled isCompiled
      rw [bind_state] at built
      split at built
      swap
      · cases built
      rename_i relinked after isRelinked
      cases built
      exact ⟨sources, prepared, copied, compiled, relinked, rfl, isPrepared, isCopied, isCompiled, isRelinked, rfl⟩

/-- The files of a source directory are distinct and named by names that lead down. -/
theorem discoverSources_distinct {tree : FileTree} {directory : Path} {extensions : List Text} {sources : SourceListing}
    (orderly : tree.root.isOrderly = true) (ok : discoverSources tree directory extensions = .ok sources) :
    sources.assets.Nodup ∧
      (∀ asset ∈ sources.assets, ∃ names, Location.IsBelow names ∧ asset = Location.path names) ∧
      ∀ entry ∈ sources.entryPoints, ∃ names, Location.IsBelow names ∧ entry = Location.path names := by
  unfold discoverSources at ok
  split at ok
  · rename_i isDirectory
    cases ok
    have each : ∀ file ∈ tree.filesBelow directory, ∃ names, Location.IsBelow names ∧ file = Location.path names :=
      fun _ => FileTree.isBelow_of_mem_filesBelow orderly directory isDirectory
    exact ⟨(FileTree.filesBelow_nodup orderly directory).filter _,
      fun asset member => each asset (List.mem_of_mem_filter member),
      fun entry member => each entry (List.mem_of_mem_filter member)⟩
  · cases ok

/-- No module is emitted to the place of an asset, where no two files get one path. -/
theorem SourceListing.IsApart.free {sources : SourceListing} {extension : ModuleExtension}
    (isApart : sources.IsApart extension)
    (entries : ∀ entry ∈ sources.entryPoints, ∃ names, Location.IsBelow names ∧ entry = Location.path names)
    {names : Location} (below : names.IsBelow) (member : Location.path names ∈ sources.assets) :
    ¬ ∃ entry ∈ sources.entryPoints, (emittedPath entry extension).moves = names := by
  rintro ⟨entry, isEntry, is⟩
  obtain ⟨entryNames, entryBelow, rfl⟩ := entries entry isEntry
  have emitted := emittedPath_location entryBelow extension
  rw [emitted, Path.moves_location (emittedLocation_isBelow entryBelow _).2] at is
  rw [is] at emitted
  obtain ⟨shares, ending⟩ := (eq_emittedPath_iff entryBelow extension below).mp emitted.symm
  exact isApart.assets _ member _ isEntry shares ending

/-- What is compiled and relinked takes the places of modules only. -/
theorem compiled_spares {config : Config} {compiler : Compiler} {entryPoints : List Path}
    (entries : ∀ entry ∈ entryPoints, ∃ names, Location.IsBelow names ∧ entry = Location.path names)
    (spares : SparesOthers compiler (config.job entryPoints)) : Spares config.output
      (fun names => ∃ entry ∈ entryPoints, (emittedPath entry config.format.extension).moves = names)
      (do
        compileIfAny compiler (config.job entryPoints)
        relinkIfNeeded config (config.job entryPoints).emitted) := by
  have down : ∀ path ∈ (config.job entryPoints).emitted, path.LeadsDown := List.forall_mem_map.mpr fun entry isEntry => by
    obtain ⟨names, below, rfl⟩ := entries entry isEntry
    change (emittedPath (Location.path names) config.format.extension).LeadsDown
    rw [emittedPath_location below]
    exact (emittedLocation_isBelow below _).leadsDown
  refine Spares.bind (Spares.compileIfAny spares fun entry isEntry => ⟨entry, isEntry, rfl⟩) fun _ => ?_
  exact Spares.relinkIfNeeded config down (List.forall_mem_map.mpr fun entry isEntry => ⟨entry, isEntry, rfl⟩)

/-- A build that succeeds reports every path below its output once exactly where no two of its files get one path. Then
its assets are copied with their contents, and neither the compiler nor the pass overwrites them. -/
theorem run_distinct (config : Config) (compiler : Compiler) (tree : FileTree) (orderly : tree.root.isOrderly = true)
    {report : BuildReport} {progress : Progress}
    (built : run config compiler (.start tree) = (.ok report, progress)) :
    ∃ sources, discoverSources tree config.source config.sourceExtensions = .ok sources ∧
      report.copied = sources.assets ∧
      report.compiled = sources.entryPoints.map (emittedPath · config.format.extension) ∧
      ((report.copied ++ report.compiled).Nodup ↔ sources.IsApart config.format.extension) ∧
      (sources.IsApart config.format.extension → tree.root.isPlain = true → config.KeepsApart tree →
        SparesOthers compiler (config.job sources.entryPoints) → ∀ asset ∈ report.copied, ∃ content,
          tree.content? (config.source.locationFrom tree.workingDirectory ++ asset.moves) = some content ∧
          progress.tree.content? (config.output.locationFrom tree.workingDirectory ++ asset.moves) =
            some content) := by
  obtain ⟨sources, prepared, copied, compiled, relinked, isDiscovered, isPrepared, isCopied, isCompiled, isRelinked,
    rfl⟩ := run_ok built
  obtain ⟨distinct, assets, entries⟩ := discoverSources_distinct orderly isDiscovered
  have targets := SourceListing.targets_nodup config.format.extension distinct assets entries
  refine ⟨sources, isDiscovered, rfl, rfl, targets, fun isApart plain apart spares asset member => ?_⟩
  obtain ⟨sourceEnters, isListing⟩ := discoverSources_ok plain (FileTree.hasDirectory_startOf apart.home _) isDiscovered
  obtain ⟨names, below, rfl⟩ := assets asset member
  have moves := Path.moves_location below.2
  obtain ⟨own, ownBelow, same, content, there⟩ : ∃ own, Location.IsBelow own ∧ Location.path names = Location.path own ∧
      ∃ content, tree.content? (config.source.locationFrom tree.workingDirectory ++ own) = some content := by
    rw [isListing] at member
    obtain ⟨own, ownBelow, same, content, mark, there⟩ :=
      FileTree.of_mem_filesBelow plain sourceEnters (List.mem_of_mem_filter member)
    exact ⟨own, ownBelow, same, content, FileTree.content?_eq_some.mpr ⟨mark, there⟩⟩
  obtain rfl := Location.path_injective below.2 ownBelow.2 same
  rw [moves]
  refine ⟨content, there, ?_⟩
  -- The asset is copied to an output that is ready, and no later phase takes its place.
  obtain ⟨ready, home, enters, kept⟩ := @prepareOutput_keeps (.discovered config sources tree) prepared config apart
    plain sourceEnters isPrepared
  change prepared.tree.workingDirectory = tree.workingDirectory at home
  have verbatim := copyAssets_verbatim ready enters (home ▸ apart.sourceWay) (home ▸ apart.notInside) assets distinct
    isCopied _ member
  have assetsDown : ∀ asset ∈ sources.assets, asset.LeadsDown := fun asset isAsset => by
    obtain ⟨other, otherBelow, rfl⟩ := assets asset isAsset
    exact otherBelow.leadsDown
  have copies := StaysWithin.copyAssets assetsDown config.source prepared copied () ready isCopied
  have stays := (compiled_spares entries spares copied progress relinked (copies.isReady ready)
    (by rw [bind_state, isCompiled]; exact isRelinked)).2 names (isApart.free entries below member)
  rw [copies.workingDirectory, home] at stays
  rw [home, moves] at verbatim
  exact stays.trans (verbatim.trans ((kept names).trans there))

/-- The build of the sources beside a stale output. -/
theorem run_distinct_stale : ∃ report progress,
    run esmConfig .copying (.start staleTree) = (.ok report, progress) ∧
      (report.copied ++ report.compiled).Nodup ∧
      ∀ asset ∈ report.copied, ∃ content,
        staleTree.content? (esmConfig.source.locationFrom staleTree.workingDirectory ++ asset.moves) = some content ∧
        progress.tree.content? (esmConfig.output.locationFrom staleTree.workingDirectory ++ asset.moves) =
          some content := by
  obtain ⟨progress, built⟩ : ∃ progress, run esmConfig .copying (.start staleTree) = (.ok esmReport, progress) :=
    ran_of_fst (by decide +kernel)
  obtain ⟨sources, isDiscovered, -, -, distinct, verbatim⟩ :=
    run_distinct esmConfig .copying staleTree (by decide) built
  have isSources : discoverSources staleTree esmConfig.source esmConfig.sourceExtensions = .ok staleSources := by
    decide +kernel
  rw [isSources] at isDiscovered
  cases isDiscovered
  have isApart := distinct.mp (by decide +kernel)
  have apart : esmConfig.KeepsApart staleTree :=
    Config.keepsApart_of_down (by decide) ⟨[], "build".toList, by decide, by decide⟩ (by decide) (by decide)
      (by decide) (by decide)
  exact ⟨esmReport, progress, built, distinct.mpr isApart,
    verbatim isApart (by decide) apart (copying_sparesOthers (by decide +kernel))⟩

end Relink.Build
