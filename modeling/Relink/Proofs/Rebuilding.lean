import Relink.Proofs.Building

/-!
# Building again

A build that succeeded comes to the same when it is made again: the same report, and the tree that the first
one left. This holds where the output directory is not inside the source directory, no way to either leads
through the output, and nothing is missing on the way to the output but what leads down to it.
-/

set_option autoImplicit false

namespace Relink.Build

/-! ## The second build -/

/-- A clearing build into an output apart from its sources, run again on what it has left, succeeds with the same report
and leaves the same tree, whatever the compiler puts into the output, as long as it changes nothing outside. -/
theorem run_repeated (config : Config) (compiler : Compiler) (tree : FileTree) (clear : config.clear = true)
    (plain : tree.root.isPlain = true) (apart : config.KeepsApart tree)
    (keeps : ∀ sources, discoverSources tree config.source config.sourceExtensions = .ok sources →
      KeepsOutside compiler (config.job sources.entryPoints))
    {report : BuildReport} {progress : Progress}
    (built : run config compiler (.start tree) = (.ok report, progress)) :
    ∃ again, run config compiler (.start progress.tree) = (.ok report, again) ∧ again.tree = progress.tree := by
  obtain ⟨home, named, notInside, sourceWay, outputWay, leadsThere⟩ := apart
  have sourceApart := sourceWay _ (Path.locationFrom_mem_trailFrom _ _)
  rw [run_eq] at built
  simp only [Progress.start] at built
  split at built
  · cases built
  rename_i sources isDiscovered
  obtain ⟨sourceEnters, isListing⟩ := discoverSources_ok plain (FileTree.hasDirectory_startOf home _) isDiscovered
  rw [bind_state] at built
  split at built
  swap
  · cases built
  rename_i prepared isPrepared
  rw [clear] at isPrepared
  -- The first build fills an output directory that is ready and fresh.
  have first := prepareOutput_prepared plain (FileTree.hasDirectory_startOf home _) named outputWay leadsThere isPrepared
  have files : ∀ file ∈ tree.filesBelow config.source, file.LeadsDown ∧
      ∀ extension, (emittedPath file extension).LeadsDown := fun _ => leadsDown_of_mem_filesBelow plain sourceEnters
  have filled : FileTree.SameOutside (config.output.locationFrom prepared.tree.workingDirectory) prepared.tree
      progress.tree := by
    refine StaysWithin.fillOutput config ?_ ?_ (keeps sources isDiscovered) prepared progress report first.ready built
    · intro asset member
      rw [isListing] at member
      exact (files asset (List.mem_of_mem_filter member)).1
    · intro path member
      rw [isListing] at member
      obtain ⟨entry, isEntry, rfl⟩ := List.mem_map.mp member
      exact (files entry (List.mem_of_mem_filter isEntry)).2 _
  obtain ⟨entersAgain, filesAgain⟩ := sources_kept sourceEnters sourceWay notInside first filled
  have ready := filled.isReady first.ready
  have home' := filled.workingDirectory.trans first.workingDirectory
  simp only [run_eq, Progress.start]
  rw [discoverSources_eq filled.plain entersAgain, filesAgain, ← isListing, clear]
  simp only
  -- The second build empties what the first one filled and is where the first one was.
  generalize begun : (⟨progress.tree, _, []⟩ : Progress) = second
  have isTree : second.tree = progress.tree := by rw [← begun]
  obtain ⟨cleared, isCleared, clearedTree⟩ := prepareOutput_ready (isTree ▸ ready) (isTree ▸ entersAgain)
    (by rw [isTree, home']; exact sourceApart)
  have sameTree : cleared.tree = prepared.tree := by
    rw [clearedTree, isTree, home', ← first.workingDirectory, filled.erase_eq first.ready.hasSlot,
      first.workingDirectory, first.fresh]
  rw [bind_state, isCleared]
  obtain ⟨results, trees⟩ := Oblivious.fillOutput config compiler sources cleared prepared sameTree
  rw [built] at results trees
  exact ⟨(fillOutput config compiler sources cleared).2, Prod.ext results rfl, trees⟩

def esmReport : BuildReport :=
  ⟨.esm, [.ofString "data.json"], [.ofString "a.mjs", .ofString "index.mjs"],
    some ⟨[⟨.ofString "a.mjs", .unchanged⟩, ⟨.ofString "index.mjs", .relinked 1⟩]⟩⟩

theorem run_repeated_stale : ∃ progress again, run esmConfig .copying (.start staleTree) = (.ok esmReport, progress) ∧
    run esmConfig .copying (.start progress.tree) = (.ok esmReport, again) ∧ again.tree = progress.tree := by
  obtain ⟨progress, built⟩ : ∃ progress, run esmConfig .copying (.start staleTree) = (.ok esmReport, progress) :=
    ran_of_fst (by decide +kernel)
  have apart : esmConfig.KeepsApart staleTree :=
    ⟨by decide, ⟨[], "build".toList, by decide, by decide⟩, by decide, by decide, by decide, by decide⟩
  have keeps : ∀ sources, discoverSources staleTree esmConfig.source esmConfig.sourceExtensions = .ok sources →
      KeepsOutside .copying (esmConfig.job sources.entryPoints) := by
    intro sources discovered
    have listing : discoverSources staleTree esmConfig.source esmConfig.sourceExtensions =
        .ok ⟨[.ofString "a.ts", .ofString "index.ts"], [.ofString "data.json"]⟩ := by decide +kernel
    rw [listing] at discovered
    cases discovered
    exact copying_keepsOutside (by decide +kernel)
  obtain ⟨again, sameReport, sameTree⟩ :=
    run_repeated esmConfig .copying staleTree rfl (by decide) apart keeps built
  exact ⟨progress, again, built, sameReport, sameTree⟩

end Relink.Build
