import Relink.Proofs.Build.Copying
import Relink.Proofs.Build.Sources
import Relink.Proofs.FileTree.Modules

/-!
# Building

A build of ES modules fills the output directory with the assets and with the relinked modules of the entry
points, and with no other files. The checks of relinking are answered on the tree as it is once all assets are
copied and all entry points are compiled.
-/

set_option autoImplicit false

namespace Relink.Build

/-! ## Up to relinking -/

/-- What a build does before it relinks modules. -/
def emit (config : Config) (compiler : Compiler) (sources : SourceListing) : Building Unit := do
  prepareOutput config.source config.output config.clear
  copyAssets config.source config.output sources.assets
  compileIfAny compiler (config.job sources.entryPoints)

/-- The progress of a build that has found its sources. -/
def Progress.discovered (config : Config) (sources : SourceListing) (tree : FileTree) : Progress :=
  ⟨tree, [.discovered config.source sources.entryPoints.length sources.assets.length], []⟩

theorem run_emit {config : Config} (compiler : Compiler) {tree : FileTree} {sources : SourceListing}
    (isDiscovered : discoverSources tree config.source config.sourceExtensions = .ok sources) :
    run config compiler (.start tree) =
      (do
        emit config compiler sources
        let relinked ← relinkIfNeeded config (config.job sources.entryPoints).emitted
        pure ⟨config.format, sources.assets, (config.job sources.entryPoints).emitted, relinked⟩ :
          Building BuildReport)
      (.discovered config sources tree) := by
  rw [run_eq]
  simp only [Progress.start, isDiscovered, emit, fillOutput, bind_assoc, Progress.discovered, List.nil_append]

/-! ## Compilers -/

/-- Whether a compiler writes the modules of a job below its output directory, with those texts, and nothing
else. -/
def Compiler.Emits (compiler : Compiler) (job : Job) (texts : Path → Text) (tree : FileTree) : Prop :=
  ∃ changed, compiler job tree = (.ok (), changed) ∧
    FileTree.SameOutside (job.output.locationFrom tree.workingDirectory) tree changed ∧
    ∀ names content, changed.content? (job.output.locationFrom tree.workingDirectory ++ names) = some content ↔
      (∃ entry ∈ job.entryPoints, (emittedPath entry job.format.extension).moves = names ∧
        .text (texts entry) = content) ∨
      tree.content? (job.output.locationFrom tree.workingDirectory ++ names) = some content

/-- Whether the files below the output directory of a build are its assets and its modules with those texts. -/
def Config.Delivers (config : Config) (tree : FileTree) (sources : SourceListing) (texts : Path → Text)
    (after : FileTree) : Prop :=
  ∀ names content,
    after.content? (config.output.locationFrom tree.workingDirectory ++ names) = some content ↔
      (∃ asset ∈ sources.assets, asset.moves = names ∧
        tree.content? (config.source.locationFrom tree.workingDirectory ++ names) = some content) ∨
      ∃ entry ∈ sources.entryPoints, (emittedPath entry config.format.extension).moves = names ∧
        .text (texts entry) = content

theorem compileIfAny_emits {compiler : Compiler} {job : Job} {texts : Path → Text} {progress : Progress}
    (ready : progress.tree.IsReady job.output) (emits : compiler.Emits job texts progress.tree) :
    ∃ after, compileIfAny compiler job progress = (.ok (), after) ∧
      FileTree.SameOutside (job.output.locationFrom progress.tree.workingDirectory) progress.tree after.tree ∧
      ∀ names content,
        after.tree.content? (job.output.locationFrom progress.tree.workingDirectory ++ names) = some content ↔
          (∃ entry ∈ job.entryPoints, (emittedPath entry job.format.extension).moves = names ∧
            .text (texts entry) = content) ∨
          progress.tree.content? (job.output.locationFrom progress.tree.workingDirectory ++ names) =
            some content := by
  unfold compileIfAny
  split
  · rename_i none
    refine ⟨progress, rfl, ready.refl, fun names content => ?_⟩
    simp [List.isEmpty_iff.mp none]
  · obtain ⟨changed, ok, same, contents⟩ := emits
    rw [bind_state]
    simp only [compile, ok, say]
    exact ⟨_, rfl, same, contents⟩

/-! ## What is copied -/

def Config.offerAsset (config : Config) (tree : FileTree) (asset : Path) : FileTree.Offer :=
  ⟨config.source.join asset, asset.moves,
    (tree.content? (config.source.locationFrom tree.workingDirectory ++ asset.moves)).getD (.text [])⟩

def Config.offerModule (config : Config) (texts : Path → Text) (entry : Path) : FileTree.Offer :=
  ⟨config.source.join entry, (emittedPath entry config.format.extension).moves, .text (texts entry)⟩

/-! ## Modules of entry points -/

def Config.moduleFile (config : Config) (entry : Path) : Path :=
  config.output.join (emittedPath entry config.format.extension)

/-- The text that the module of an entry point has in the end. -/
def Config.finalText (config : Config) (isFile : Path → Bool) (texts : Path → Text) (entry : Path) : Text :=
  moduleText isFile config.options (config.moduleFile entry) (texts entry)

def Config.entryReport (config : Config) (isFile : Path → Bool) (texts : Path → Text) (entry : Path) : ModuleReport :=
  ⟨emittedPath entry config.format.extension,
    ModuleStatus.ofResult (moduleResult isFile config.options (config.moduleFile entry) (texts entry))⟩

/-! ## Conditions of a build -/

/-- Whether a build can be made of a tree without links: the sources are found, the directories stay clear of one
another, no path is one that a system refuses, and there is a place for every file. -/
structure Config.Buildable (config : Config) (tree : FileTree) (sources : SourceListing) : Prop where
  plain : tree.root.isPlain = true
  discovered : discoverSources tree config.source config.sourceExtensions = .ok sources
  apart : config.KeepsApart tree
  spelled : config.output.spellingFault? = none
  passable : tree.Passable (FileTree.startOf tree.workingDirectory config.output) config.output.moves
  origins : ∀ asset ∈ sources.assets, (config.source.join asset).spellingFault? = none
  targets : ∀ path ∈ sources.assets ++ (config.job sources.entryPoints).emitted,
    (config.output.join path).spellingFault? = none ∧ ∀ move ∈ path.moves, Octet.size move ≤ maxNameSize
  places : (sources.assets ++ (config.job sources.entryPoints).emitted).Pairwise fun one other =>
    ¬ one.moves <+: other.moves ∧ ¬ other.moves <+: one.moves

/-- What a compiler is relied on for: on a tree with the sources as they were and with a place for every module
it writes the modules. -/
def Config.Suits (config : Config) (tree : FileTree) (sources : SourceListing) (texts : Path → Text)
    (compiler : Compiler) : Prop :=
  ∀ copied : FileTree, copied.workingDirectory = tree.workingDirectory → copied.IsReady config.output →
    copied.Enters config.source →
    copied.get? (config.source.locationFrom tree.workingDirectory) =
      tree.get? (config.source.locationFrom tree.workingDirectory) →
    (∀ path ∈ (config.job sources.entryPoints).emitted,
      copied.IsFree (config.output.locationFrom tree.workingDirectory ++ path.moves)) →
    compiler.Emits (config.job sources.entryPoints) texts copied

namespace Config.Buildable

variable {config : Config} {tree : FileTree} {sources : SourceListing} (buildable : config.Buildable tree sources)

include buildable

theorem sourceEnters : tree.Enters config.source :=
  (discoverSources_ok buildable.plain (FileTree.hasDirectory_startOf buildable.apart.home _) buildable.discovered).1

theorem of_mem_sources {file : Path} (member : file ∈ sources.assets ∨ file ∈ sources.entryPoints) :
    ∃ names, Location.IsBelow names ∧ file = Location.path names ∧
      ∃ content, tree.content? (config.source.locationFrom tree.workingDirectory ++ names) = some content := by
  obtain ⟨enters, isListing⟩ := discoverSources_ok buildable.plain
    (FileTree.hasDirectory_startOf buildable.apart.home _) buildable.discovered
  have listed : file ∈ tree.filesBelow config.source := by
    rw [isListing] at member
    rcases member with asset | entry
    · exact List.mem_of_mem_filter asset
    · exact List.mem_of_mem_filter entry
  obtain ⟨names, below, is, content, executable, there⟩ := FileTree.of_mem_filesBelow buildable.plain enters listed
  exact ⟨names, below, is, content, FileTree.content?_eq_some.mpr ⟨executable, there⟩⟩

/-- What is written below the output is named by names that lead down. -/
theorem of_mem_targets {path : Path} (member : path ∈ sources.assets ++ (config.job sources.entryPoints).emitted) :
    ∃ names, Location.IsBelow names ∧ path = Location.path names := by
  rcases List.mem_append.mp member with asset | emitted
  · obtain ⟨names, below, is, -⟩ := buildable.of_mem_sources (.inl asset)
    exact ⟨names, below, is⟩
  · obtain ⟨entry, isEntry, rfl⟩ := List.mem_map.mp emitted
    obtain ⟨names, below, rfl, -⟩ := buildable.of_mem_sources (.inr isEntry)
    exact ⟨_, emittedLocation_isBelow below _, emittedPath_location below _⟩

theorem fits_target {names : Location} (below : names.IsBelow)
    (member : Location.path names ∈ sources.assets ++ (config.job sources.entryPoints).emitted) :
    config.output.Fits names := by
  have fits := buildable.targets _ member
  rwa [Path.moves_location below.2] at fits

theorem named_module {entry : Path} (member : entry ∈ sources.entryPoints) : ∃ names, Location.IsBelow names ∧
    emittedPath entry config.format.extension = Location.path names ∧
    (emittedPath entry config.format.extension).moves = names ∧ config.output.Fits names := by
  have target : emittedPath entry config.format.extension ∈ (config.job sources.entryPoints).emitted :=
    List.mem_map.mpr ⟨entry, member, rfl⟩
  obtain ⟨names, below, is⟩ := buildable.of_mem_targets (List.mem_append_right _ target)
  rw [is] at target ⊢
  exact ⟨names, below, rfl, Path.moves_location below.2, buildable.fits_target below (List.mem_append_right _ target)⟩

/-! ## The phases -/

theorem prepared : ∃ prepared,
    prepareOutput config.source config.output true (.discovered config sources tree) = (.ok (), prepared) ∧
      FileTree.Prepared config.output tree prepared.tree := by
  obtain ⟨home, named, notInside, sourceWay, outputWay, leadsThere⟩ := buildable.apart
  have start := FileTree.hasDirectory_startOf home config.output
  have sourceApart := sourceWay _ (Path.locationFrom_mem_trailFrom _ _)
  obtain ⟨prepared, ok⟩ := @prepareOutput_ok config.source config.output (.discovered config sources tree)
    buildable.plain start named outputWay leadsThere buildable.spelled buildable.passable buildable.sourceEnters
    sourceApart
  exact ⟨prepared, ok, prepareOutput_prepared buildable.plain start named outputWay leadsThere ok⟩

theorem accepts {prepared : FileTree} (first : FileTree.Prepared config.output tree prepared) :
    FileTree.Accepts config.output prepared (sources.assets.map (config.offerAsset tree)) := by
  obtain ⟨home, named, notInside, sourceWay, outputWay, leadsThere⟩ := buildable.apart
  obtain ⟨sourceEnters, sourceKept⟩ :=
    source_kept buildable.sourceEnters sourceWay notInside first first.ready.refl
  have each : ∀ asset ∈ sources.assets, ∃ names, Location.IsBelow names ∧ asset = Location.path names ∧
      (config.offerAsset tree asset).names = names ∧ config.output.Fits names ∧
      tree.content? (config.source.locationFrom tree.workingDirectory ++ names) =
        some (config.offerAsset tree asset).content := by
    intro asset member
    obtain ⟨names, below, rfl, content, there⟩ := buildable.of_mem_sources (.inl member)
    have moves := Path.moves_location below.2
    refine ⟨names, below, rfl, moves, buildable.fits_target below (List.mem_append_left _ member), ?_⟩
    rw [Config.offerAsset, moves, there, Option.getD_some]
  constructor
  · rw [List.forall_mem_map]
    intro asset member
    obtain ⟨names, below, -, is, -, -⟩ := each asset member
    rwa [is]
  · rw [List.forall_mem_map]
    intro asset member
    obtain ⟨names, -, -, is, fits, -⟩ := each asset member
    rwa [is]
  · rw [List.forall_mem_map, first.workingDirectory]
    intro asset member
    obtain ⟨names, below, -, is, -, -⟩ := each asset member
    exact first.isFree (is ▸ below.1)
  · rw [List.forall_mem_map]
    intro asset member
    obtain ⟨names, below, rfl, -, fits, there⟩ := each asset member
    refine FileTree.holds_join sourceEnters below ⟨buildable.origins _ member, fits.2⟩ ?_
    rw [first.workingDirectory, FileTree.content?_below sourceKept, there]
  · exact List.pairwise_map.mpr (List.pairwise_append.mp buildable.places).1

/-- The assets are copied to the empty output, and the places of the modules stay free. -/
theorem copied {prepared : Progress} (first : FileTree.Prepared config.output tree prepared.tree) :
    ∃ copied, copyAssets config.source config.output sources.assets prepared = (.ok (), copied) ∧
      FileTree.SameOutside (config.output.locationFrom tree.workingDirectory) prepared.tree copied.tree ∧
      (∀ names content,
        copied.tree.content? (config.output.locationFrom tree.workingDirectory ++ names) = some content ↔
          ∃ asset ∈ sources.assets, asset.moves = names ∧
            tree.content? (config.source.locationFrom tree.workingDirectory ++ names) = some content) ∧
      ∀ path ∈ (config.job sources.entryPoints).emitted,
        copied.tree.IsFree (config.output.locationFrom tree.workingDirectory ++ path.moves) := by
  have offers : ∀ asset ∈ sources.assets, (config.offerAsset tree asset).origin = config.source.join asset ∧
      asset = Location.path (config.offerAsset tree asset).names := by
    intro asset member
    obtain ⟨names, below, rfl, -⟩ := buildable.of_mem_sources (.inl member)
    exact ⟨rfl, by rw [Config.offerAsset, Path.moves_location below.2]⟩
  obtain ⟨copied, ok, writes⟩ :=
    copyAssets_writes config.source (config.offerAsset tree) offers first.ready (buildable.accepts first)
  have same := writes.same
  have contents := writes.contents
  have free := writes.free
  rw [first.workingDirectory] at same contents free
  refine ⟨copied, ok, same, fun names content => ?_, fun path member => ?_⟩
  · rw [contents, first.content?_eq]
    simp only [List.map_map, List.mem_map, Function.comp_apply, FileTree.Offer.file, exists_exists_and_eq_and,
      List.append_cancel_left_eq, reduceCtorEq, or_false, Config.offerAsset]
    refine exists_congr fun asset => and_congr_right fun member => and_congr_right fun is => ?_
    obtain ⟨own, below, rfl, found, there⟩ := buildable.of_mem_sources (.inl member)
    rw [Path.moves_location below.2] at is ⊢
    rw [← is, there, Option.getD_some, Option.some.injEq]
  · obtain ⟨own, below, rfl⟩ := buildable.of_mem_targets (List.mem_append_right _ member)
    rw [Path.moves_location below.2]
    refine free _ (first.isFree below.1) fun file isFile => ?_
    simp only [List.map_map, List.mem_map, Function.comp_apply] at isFile
    obtain ⟨asset, isAsset, rfl⟩ := isFile
    have apart := (List.pairwise_append.mp buildable.places).2.2 asset isAsset _ member
    rw [Path.moves_location below.2] at apart
    simp only [FileTree.Offer.file, Config.offerAsset, List.prefix_append_right_inj]
    exact apart.symm

/-- Once everything is copied and compiled, the output holds the assets and the modules as they are emitted. -/
theorem emitted (clear : config.clear = true) {texts : Path → Text} {compiler : Compiler}
    (suits : config.Suits tree sources texts compiler) :
    ∃ prepared compiled, FileTree.Prepared config.output tree prepared ∧
      emit config compiler sources (.discovered config sources tree) = (.ok (), compiled) ∧
      FileTree.SameOutside (config.output.locationFrom tree.workingDirectory) prepared compiled.tree ∧
      config.Delivers tree sources texts compiled.tree := by
  obtain ⟨home, named, notInside, sourceWay, outputWay, leadsThere⟩ := buildable.apart
  obtain ⟨prepared, isPrepared, first⟩ := buildable.prepared
  obtain ⟨copied, isCopied, same, assets, free⟩ := buildable.copied first
  -- The compiler finds the sources as they were, because nothing outside the output has changed since.
  rw [← first.workingDirectory] at same
  obtain ⟨enters, kept⟩ := source_kept buildable.sourceEnters sourceWay notInside first same
  have ready := same.isReady first.ready
  have isHome := same.workingDirectory.trans first.workingDirectory
  obtain ⟨compiled, isCompiled, later, modules⟩ :=
    @compileIfAny_emits compiler _ _ copied ready (suits copied.tree isHome ready enters kept free)
  rw [first.workingDirectory] at same
  change FileTree.SameOutside (config.output.locationFrom copied.tree.workingDirectory) _ _ at later
  rw [isHome] at later
  refine ⟨prepared.tree, compiled, first, ?_, same.trans later, fun names content => ?_⟩
  · rw [emit, clear, bind_state, isPrepared]
    simp only
    rw [bind_state, isCopied]
    exact isCompiled
  · have written := modules names content
    simp only [job, isHome] at written
    rw [written, assets, or_comm]

/-! ## Relinking -/

theorem located_module {entry : Path} (member : entry ∈ sources.entryPoints) :
    (config.moduleFile entry).locationFrom tree.workingDirectory =
      config.output.locationFrom tree.workingDirectory ++ (emittedPath entry config.format.extension).moves := by
  obtain ⟨names, below, is, -, -⟩ := buildable.named_module member
  rw [Config.moduleFile, FileTree.locationFrom_join (is ▸ below.leadsDown)]

section Relinking

variable {compiled : FileTree} {texts : Path → Text} (isHome : compiled.workingDirectory = tree.workingDirectory)
    (enters : compiled.Enters config.output) (delivers : config.Delivers tree sources texts compiled)

include isHome enters delivers

theorem pass : FileTree.Relinked config.options config.output
    (fun entry => emittedPath entry config.format.extension) texts compiled sources.entryPoints
    (relinkModules config.options config.output compiled (config.job sources.entryPoints).emitted) := by
  apply FileTree.relinkModules_holds
  · intro entry member
    obtain ⟨names, below, is, moves, fits⟩ := buildable.named_module member
    rw [is]
    refine FileTree.holds_join enters below fits ?_
    rw [isHome]
    exact (delivers names _).mpr (.inr ⟨entry, member, moves, rfl⟩)
  · rw [isHome]
    have places := (List.pairwise_append.mp buildable.places).2.1
    refine (List.pairwise_map.mp places).imp_of_mem fun {one other} isOne isOther apart same => apart.1 ?_
    have sameMoves := (buildable.located_module isOne).symm.trans (same.trans (buildable.located_module isOther))
    rw [List.append_cancel_left_eq] at sameMoves
    exact sameMoves ▸ List.prefix_rfl

/-- Relinking gives the modules their new texts, and leaves the assets. -/
theorem relinked :
    (relinkModules config.options config.output compiled (config.job sources.entryPoints).emitted).result =
        sources.entryPoints.map (config.entryReport compiled.isFile texts) ∧
      config.Delivers tree sources (config.finalText compiled.isFile texts)
        (relinkModules config.options config.output compiled (config.job sources.entryPoints).emitted).files := by
  have isRun := buildable.pass isHome enters delivers
  generalize relinkModules config.options config.output compiled (config.job sources.entryPoints).emitted = run
    at isRun ⊢
  obtain ⟨-, reports, written, others⟩ := isRun
  rw [isHome] at written others
  refine ⟨reports, fun names content => ?_⟩
  -- The pass writes the places of the modules, whatever stood there; all other places are as they were.
  by_cases isModule : ∃ entry ∈ sources.entryPoints, (emittedPath entry config.format.extension).moves = names
  · have isWritten : ∀ entry ∈ sources.entryPoints, (emittedPath entry config.format.extension).moves = names →
        run.files.content? (config.output.locationFrom tree.workingDirectory ++ names) =
          some (.text (config.finalText compiled.isFile texts entry)) := by
      intro entry member is
      rw [← is, ← buildable.located_module member]
      exact written entry member
    constructor
    · intro isContent
      obtain ⟨entry, member, is⟩ := isModule
      rw [isWritten entry member is, Option.some.injEq] at isContent
      exact .inr ⟨entry, member, is, isContent⟩
    · rintro (⟨asset, isAsset, is, -⟩ | ⟨entry, member, is, rfl⟩)
      · obtain ⟨entry, member, same⟩ := isModule
        have apart := (List.pairwise_append.mp buildable.places).2.2 asset isAsset _
          (List.mem_map.mpr ⟨entry, member, rfl⟩)
        exact absurd (is.trans same.symm ▸ List.prefix_rfl) apart.1
      · exact isWritten entry member is
  · have apart : ∀ entry ∈ sources.entryPoints, (config.moduleFile entry).locationFrom tree.workingDirectory ≠
        config.output.locationFrom tree.workingDirectory ++ names := by
      intro entry member same
      rw [buildable.located_module member, List.append_cancel_left_eq] at same
      exact isModule ⟨entry, member, same⟩
    rw [others _ apart, delivers]
    refine or_congr_right ?_
    constructor <;> rintro ⟨entry, member, is, -⟩ <;> exact absurd ⟨entry, member, is⟩ isModule

end Relinking

end Config.Buildable

theorem relinkIfNeeded_esm {config : Config} (esm : config.format = .esm) (modules : List Path) (progress : Progress) :
    ∃ after, relinkIfNeeded config modules progress =
        (.ok (some ⟨(relinkModules config.options config.output progress.tree modules).result⟩), after) ∧
      after.tree = (relinkModules config.options config.output progress.tree modules).files := by
  unfold relinkIfNeeded
  rw [esm]
  exact ⟨_, rfl, rfl⟩

/-! ## A compiler that suits a build -/

section Copying

variable {config : Config} {texts : Path → Text} {tree : FileTree} {sources : SourceListing}
    (buildable : config.Buildable tree sources)
    (origins : ∀ entry ∈ sources.entryPoints, (config.source.join entry).spellingFault? = none ∧
      ∀ move ∈ entry.moves, Octet.size move ≤ maxNameSize)
    (isText : ∀ entry ∈ sources.entryPoints,
      tree.content? (config.source.locationFrom tree.workingDirectory ++ entry.moves) =
        some (.text (texts entry)))

include buildable origins isText

theorem accepts_modules {copied : FileTree} (isHome : copied.workingDirectory = tree.workingDirectory)
    (enters : copied.Enters config.source)
    (kept : copied.get? (config.source.locationFrom tree.workingDirectory) =
      tree.get? (config.source.locationFrom tree.workingDirectory))
    (free : ∀ path ∈ (config.job sources.entryPoints).emitted,
      copied.IsFree (config.output.locationFrom tree.workingDirectory ++ path.moves)) :
    FileTree.Accepts config.output copied (sources.entryPoints.map (config.offerModule texts)) := by
  constructor
  · rw [List.forall_mem_map]
    intro entry member
    obtain ⟨names, below, -, moves, -⟩ := buildable.named_module member
    exact show Location.IsBelow (emittedPath entry config.format.extension).moves from moves ▸ below
  · rw [List.forall_mem_map]
    intro entry member
    obtain ⟨names, -, -, moves, fits⟩ := buildable.named_module member
    exact show config.output.Fits (emittedPath entry config.format.extension).moves from moves ▸ fits
  · rw [List.forall_mem_map, isHome]
    exact fun entry member => free _ (List.mem_map.mpr ⟨entry, member, rfl⟩)
  · rw [List.forall_mem_map]
    intro entry member
    obtain ⟨names, below, rfl, -⟩ := buildable.of_mem_sources (.inr member)
    have fits := origins _ member
    have there := isText _ member
    rw [Path.moves_location below.2] at fits there
    refine FileTree.holds_join enters below fits ?_
    rw [isHome, FileTree.content?_below kept, there]
    rfl
  · exact List.pairwise_map.mpr (List.pairwise_map.mp (List.pairwise_append.mp buildable.places).2.1)

theorem copying_suits : config.Suits tree sources texts .copying := by
  intro copied isHome ready enters kept free
  have offers : ∀ entry ∈ sources.entryPoints,
      (config.offerModule texts entry).origin = (config.job sources.entryPoints).source.join entry ∧
        emittedPath entry (config.job sources.entryPoints).format.extension =
          Location.path (config.offerModule texts entry).names := by
    intro entry member
    obtain ⟨names, -, is, moves, -⟩ := buildable.named_module member
    exact ⟨rfl, by rw [Config.offerModule, moves]; exact is⟩
  obtain ⟨changed, ok, writes⟩ := @copyEach_writes (config.job sources.entryPoints) _ _
    (config.offerModule texts) offers ready (accepts_modules buildable origins isText isHome enters kept free)
  refine ⟨changed, ok, writes.same, fun names content => ?_⟩
  rw [writes.contents]
  simp only [List.map_map, List.mem_map, Function.comp_apply, FileTree.Offer.file, exists_exists_and_eq_and,
    List.append_cancel_left_eq, Config.offerModule]
  rfl

end Copying

/-! ## The build -/

/-- A build of ES modules into an output apart from its sources succeeds with every compiler that emits what is asked
for. Below the output there are then the assets with their contents, the relinked texts of the entry points and no
other file, whatever was there before; the sources are as they were. -/
theorem run_delivers (config : Config) (compiler : Compiler) (texts : Path → Text) (tree : FileTree)
    (sources : SourceListing) (esm : config.format = .esm) (clear : config.clear = true)
    (buildable : config.Buildable tree sources) (suits : config.Suits tree sources texts compiler) :
    ∃ report progress compiled, run config compiler (.start tree) = (.ok report, progress) ∧
      emit config compiler sources (.discovered config sources tree) = (.ok (), compiled) ∧
      progress.tree.get? (config.source.locationFrom tree.workingDirectory) =
        tree.get? (config.source.locationFrom tree.workingDirectory) ∧
      config.Delivers tree sources (config.finalText compiled.tree.isFile texts) progress.tree ∧
      report = ⟨.esm, sources.assets, sources.entryPoints.map fun entry => emittedPath entry .mjs,
        some ⟨sources.entryPoints.map (config.entryReport compiled.tree.isFile texts)⟩⟩ := by
  obtain ⟨prepared, compiled, first, isCompiled, same, delivers⟩ := buildable.emitted clear suits
  rw [← first.workingDirectory] at same
  have ready := same.isReady first.ready
  have isHome := same.workingDirectory.trans first.workingDirectory
  obtain ⟨reports, delivered⟩ := buildable.relinked isHome ready.enters delivers
  obtain ⟨after, isRelinked, isAfter⟩ :=
    relinkIfNeeded_esm esm (config.job sources.entryPoints).emitted compiled
  have down : ∀ path ∈ (config.job sources.entryPoints).emitted, path.LeadsDown := by
    intro path member
    obtain ⟨names, below, rfl⟩ := buildable.of_mem_targets (List.mem_append_right _ member)
    exact below.leadsDown
  have later := StaysWithin.relinkModules down config.options ready
  rw [same.workingDirectory, ← isAfter] at later
  obtain ⟨-, kept⟩ := source_kept buildable.sourceEnters buildable.apart.sourceWay buildable.apart.notInside first
    (same.trans later)
  rw [← isAfter] at delivered
  refine ⟨_, after, compiled, ?_, isCompiled, kept, delivered, rfl⟩
  rw [run_emit compiler buildable.discovered, bind_state, isCompiled]
  simp only
  rw [bind_state, isRelinked, reports, Job.emitted, Config.job, esm]
  rfl

/-- A working directory with sources and with what an older build left. -/
def staleTree : FileTree :=
  ⟨.directory [(['w'], .directory
    [("src".toList, .directory
      [("index.ts".toList, .file (.text "import \"./a\";\n".toList) false),
        ("a.ts".toList, .file (.text "x;\n".toList) false),
        ("data.json".toList, .file (.text "\x7b\x7d".toList) false)]),
      ("build".toList, .directory [("stale.txt".toList, .file (.text "old".toList) false)])])],
    [['w']]⟩

/-- A build of the sources into the directory beside them. -/
def esmConfig : Config := { Config.standard with format := .esm }

/-- The entry points and the assets of the sources. -/
def staleSources : SourceListing := ⟨[.ofString "a.ts", .ofString "index.ts"], [.ofString "data.json"]⟩

/-- The text of an entry point. -/
def staleText (entry : Path) : Text := (staleTree.readText (esmConfig.source.join entry)).toOption.getD []

theorem run_delivers_stale : ∃ report progress compiled, run esmConfig .copying (.start staleTree) = (.ok report, progress) ∧
    emit esmConfig .copying staleSources (.discovered esmConfig staleSources staleTree) = (.ok (), compiled) ∧
    progress.tree.get? [['w'], "src".toList] = staleTree.get? [['w'], "src".toList] ∧
    esmConfig.Delivers staleTree staleSources (esmConfig.finalText compiled.tree.isFile staleText) progress.tree ∧
    report = ⟨.esm, [.ofString "data.json"], [.ofString "a.mjs", .ofString "index.mjs"],
      some ⟨staleSources.entryPoints.map (esmConfig.entryReport compiled.tree.isFile staleText)⟩⟩ := by
  have apart : esmConfig.KeepsApart staleTree := by
    refine Config.keepsApart_of_down (by decide) ⟨[], "build".toList, by decide, by decide⟩ ?_ ?_ ?_ ?_ <;> decide
  have buildable : esmConfig.Buildable staleTree staleSources :=
    ⟨by decide, by decide +kernel, apart, by decide, by decide, by decide +kernel, by decide +kernel,
      by decide +kernel⟩
  exact run_delivers esmConfig .copying staleText staleTree staleSources rfl rfl buildable
    (copying_suits buildable (by decide +kernel) (by decide +kernel))

end Relink.Build
