import Relink.Build.Run
import Relink.Proofs.Build.Discovery

/-!
# Phases of a build

What a phase comes to depends on the tree alone, not on what was said or compiled before. Behind the
preparation of the output directory no phase changes anything outside it.
-/

set_option autoImplicit false

namespace Relink.Build

theorem ran_of_fst {α : Type} {phase : Building α} {progress : Progress} {value : α}
    (ok : (phase progress).1 = .ok value) : ∃ after, phase progress = (.ok value, after) :=
  ⟨_, Prod.ext ok rfl⟩

/-! ## Phases and what was said before -/

/-- Whether a phase comes to the same on the same tree, whatever was said and compiled before it. -/
def Oblivious {α : Type} (phase : Building α) : Prop :=
  ∀ one other : Progress, one.tree = other.tree →
    (phase one).1 = (phase other).1 ∧ (phase one).2.tree = (phase other).2.tree

namespace Oblivious

variable {α β : Type}

theorem pure (value : α) : Oblivious (pure value : Building α) := fun _ _ same => ⟨rfl, same⟩

theorem bind {first : Building α} {next : α → Building β} (begins : Oblivious first)
    (goesOn : ∀ value, Oblivious (next value)) : Oblivious (first >>= next) := by
  intro one other same
  obtain ⟨results, trees⟩ := begins one other same
  rw [bind_state, bind_state]
  cases isOne : first one with
  | mk result after =>
      cases isOther : first other with
      | mk otherResult otherAfter =>
          rw [isOne, isOther] at results trees
          simp only at results trees
          subst results
          cases result with
          | error fault => exact ⟨rfl, trees⟩
          | ok value => exact goesOn value after otherAfter trees

theorem map {first : Building α} (change : α → β) (begins : Oblivious first) : Oblivious (change <$> first) := by
  rw [map_eq_pure_bind]
  exact begins.bind fun value => .pure (change value)

theorem say (event : Event) : Oblivious (say event) := fun _ _ same => ⟨rfl, same⟩

theorem perform (blame : SystemFault → BuildFault) (change : FileTree.Change Unit) :
    Oblivious (perform blame change) := by
  intro one other same
  unfold Build.perform
  rw [same]
  split <;> exact ⟨rfl, rfl⟩

theorem compile (compiler : Compiler) (job : Job) : Oblivious (compile compiler job) := by
  intro one other same
  unfold Build.compile
  simp only [same]
  split <;> exact ⟨rfl, rfl⟩

theorem relink (options : Options) (root : Path) (modules : List Path) :
    Oblivious (relink options root modules) := by
  intro one other same
  simp only [Build.relink, same, and_self]

theorem makeParent (path : Path) : Oblivious (makeParent path) := by
  unfold Build.makeParent
  split
  · exact .pure ()
  · exact .perform _ _

theorem copyAssets (source output : Path) (assets : List Path) : Oblivious (copyAssets source output assets) := by
  induction assets with
  | nil => exact .pure ()
  | cons asset rest ih => exact (makeParent _).bind fun _ => (perform _ _).bind fun _ => ih

theorem compileIfAny (compiler : Compiler) (job : Job) : Oblivious (compileIfAny compiler job) := by
  unfold Build.compileIfAny
  split
  · exact .pure ()
  · exact (compile compiler job).bind fun _ => .say _

theorem relinkIfNeeded (config : Config) (modules : List Path) : Oblivious (relinkIfNeeded config modules) := by
  unfold Build.relinkIfNeeded
  split
  · exact (relink _ _ _).map _
  · exact .pure none

end Oblivious

/-! ## Phases and the output directory -/

/-- Whether a compiler, where it succeeds, changes nothing outside the output directory of a job and leaves no
link there. -/
def KeepsOutside (compiler : Compiler) (job : Job) : Prop :=
  ∀ tree changed : FileTree, tree.IsReady job.output → compiler job tree = (.ok (), changed) →
    FileTree.SameOutside (job.output.locationFrom tree.workingDirectory) tree changed

/-- Whether a phase, where it succeeds, changes nothing outside a directory. -/
def StaysWithin {α : Type} (output : Path) (phase : Building α) : Prop :=
  ∀ (progress after : Progress) (value : α), progress.tree.IsReady output → phase progress = (.ok value, after) →
    FileTree.SameOutside (output.locationFrom progress.tree.workingDirectory) progress.tree after.tree

theorem relinkModule_files (options : Options) (tree : FileTree) (file : Path) :
    (relinkModule options tree file).files = tree ∨
      ∃ text, tree.writeText file text = .ok (relinkModule options tree file).files := by
  unfold relinkModule
  split
  · exact .inl rfl
  split
  · exact .inl rfl
  unfold writeOutcome
  split
  · exact .inl rfl
  · split
    · exact .inl rfl
    · rename_i newText _ _ _ written
      exact .inr ⟨newText, written⟩

namespace StaysWithin

variable {α β : Type} {output : Path}

theorem pure (value : α) : StaysWithin output (pure value : Building α) := by
  intro progress after _ ready ok
  cases ok
  exact ready.refl

theorem bind {first : Building α} {next : α → Building β} (begins : StaysWithin output first)
    (goesOn : ∀ value, StaysWithin output (next value)) : StaysWithin output (first >>= next) := by
  intro progress after value ready ok
  rw [bind_state] at ok
  split at ok
  · rename_i middleValue middle isFirst
    have same := begins progress middle middleValue ready isFirst
    have later := goesOn middleValue middle after value (same.isReady ready) ok
    rw [same.workingDirectory] at later
    exact same.trans later
  · cases ok

theorem map {first : Building α} (change : α → β) (begins : StaysWithin output first) :
    StaysWithin output (change <$> first) := by
  rw [map_eq_pure_bind]
  exact begins.bind fun value => .pure (change value)

theorem say (event : Event) : StaysWithin output (say event) := by
  intro progress after _ ready ok
  cases ok
  exact ready.refl

theorem makeParent {next : Path} (down : next.LeadsDown) : StaysWithin output (makeParent (output.join next)) := by
  unfold Build.makeParent
  cases isParent : (output.join next).parent? with
  | none => exact .pure ()
  | some parent =>
      intro progress after _ ready ok
      have same := FileTree.makeDirectories_same ready.plain ready.enters down isParent
      simp only [perform] at ok
      split at ok
      · rename_i made isMade
        rw [isMade] at same
        cases ok
        exact same
      · cases ok

theorem copy {next source : Path} (down : next.LeadsDown) (blame : SystemFault → BuildFault) :
    StaysWithin output (perform blame (FileTree.atOnce (FileTree.copyFile source (output.join next)))) := by
  intro progress after _ ready ok
  unfold perform FileTree.atOnce at ok
  split at ok
  · rename_i changed isChanged
    split at isChanged
    · rename_i copied isCopied
      cases isChanged
      cases ok
      exact FileTree.copyFile_same ready.plain ready.enters down isCopied
    · cases isChanged
  · cases ok

theorem copyAssets {assets : List Path} (down : ∀ asset ∈ assets, asset.LeadsDown) (source : Path) :
    StaysWithin output (copyAssets source output assets) := by
  induction assets with
  | nil => exact .pure ()
  | cons asset rest ih =>
      rw [List.forall_mem_cons] at down
      exact (makeParent down.1).bind fun _ => (copy down.1 _).bind fun _ => ih down.2

theorem compileIfAny {compiler : Compiler} {job : Job} (keeps : KeepsOutside compiler job) :
    StaysWithin job.output (compileIfAny compiler job) := by
  unfold Build.compileIfAny
  split
  · exact .pure ()
  refine bind ?_ fun _ => .say _
  intro progress after _ ready ok
  unfold compile at ok
  simp only at ok
  split at ok
  · rename_i changed isCompiled
    cases ok
    exact keeps progress.tree changed ready isCompiled
  · cases ok

theorem relinkModules {modules : List Path} (down : ∀ path ∈ modules, path.LeadsDown) (options : Options)
    {tree : FileTree} (ready : tree.IsReady output) :
    FileTree.SameOutside (output.locationFrom tree.workingDirectory) tree
      (relinkModules options output tree modules).files := by
  induction modules generalizing tree with
  | nil => exact ready.refl
  | cons path rest ih =>
      rw [List.forall_mem_cons] at down
      have one : FileTree.SameOutside (output.locationFrom tree.workingDirectory) tree
          (relinkModule options tree (output.join path)).files := by
        rcases relinkModule_files options tree (output.join path) with same | ⟨text, written⟩
        · rw [same]
          exact ready.refl
        · exact FileTree.writeText_same ready.plain ready.enters down.1 written
      have others := ih down.2 (one.isReady ready)
      rw [one.workingDirectory] at others
      exact one.trans others

theorem relinkIfNeeded (config : Config) {modules : List Path} (down : ∀ path ∈ modules, path.LeadsDown) :
    StaysWithin config.output (relinkIfNeeded config modules) := by
  unfold Build.relinkIfNeeded
  split
  · refine map _ fun progress after _ ready ok => ?_
    cases ok
    exact relinkModules down _ ready
  · exact .pure none

end StaysWithin

/-! ## Behind the preparation -/

/-- What a build does once its output directory is prepared. -/
def fillOutput (config : Config) (compiler : Compiler) (sources : SourceListing) : Building BuildReport := do
  copyAssets config.source config.output sources.assets
  compileIfAny compiler (config.job sources.entryPoints)
  let relinked ← relinkIfNeeded config (config.job sources.entryPoints).emitted
  pure ⟨config.format, sources.assets, (config.job sources.entryPoints).emitted, relinked⟩

theorem run_eq (config : Config) (compiler : Compiler) (progress : Progress) :
    run config compiler progress =
      match discoverSources progress.tree config.source config.sourceExtensions with
      | .error fault => (.error fault, progress)
      | .ok sources =>
        (do
          prepareOutput config.source config.output config.clear
          fillOutput config compiler sources)
        { progress with
          events := progress.events ++
            [Event.discovered config.source sources.entryPoints.length sources.assets.length] } := by
  unfold run
  rw [bind_state]
  simp only [look]
  cases discoverSources progress.tree config.source config.sourceExtensions with
  | error fault => rfl
  | ok sources => rfl

theorem Oblivious.fillOutput (config : Config) (compiler : Compiler) (sources : SourceListing) :
    Oblivious (fillOutput config compiler sources) :=
  (copyAssets _ _ _).bind fun _ => (compileIfAny _ _).bind fun _ => (relinkIfNeeded _ _).bind fun _ => .pure _

theorem StaysWithin.fillOutput (config : Config) {compiler : Compiler} {sources : SourceListing}
    (assets : ∀ asset ∈ sources.assets, asset.LeadsDown)
    (emitted : ∀ path ∈ (config.job sources.entryPoints).emitted, path.LeadsDown)
    (keeps : KeepsOutside compiler (config.job sources.entryPoints)) :
    StaysWithin config.output (fillOutput config compiler sources) :=
  (copyAssets assets _).bind fun _ => (compileIfAny keeps).bind fun _ =>
    (relinkIfNeeded config emitted).bind fun _ => .pure _

end Relink.Build
