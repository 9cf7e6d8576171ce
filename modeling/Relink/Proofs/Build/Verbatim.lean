import Relink.Proofs.Build.Copying
import Relink.Proofs.Build.Sources
import Relink.Proofs.FileTree.Outline

/-!
# Copies that stay

A file that is copied gets the contents of its source, and no other file is changed. So an asset has the contents
of its source in the end, unless a later phase writes to its place.
-/

set_option autoImplicit false

namespace Relink

namespace FileTree

variable {tree made : FileTree} {path source : Path}

/-! ## One copy -/

theorem file_of_place (plain : tree.root.isPlain = true)
    (start : tree.hasDirectory (startOf tree.workingDirectory path) = true) {footing : Footing} {location : Location}
    {content : Content} {mark : Bool} (ok : tree.place footing path = .ok (.found location (.file content mark))) :
    location = path.locationFrom tree.workingDirectory ∧ tree.get? location = some (.file content mark) := by
  obtain ⟨spelled, arrives⟩ := arrives_of_place plain start ok
  cases arrives with
  | file allowed split current parent leads short there =>
      rw [Path.locationFrom, Path.moves_concat split current, Location.along_concat _ _ parent]
      exact ⟨rfl, there⟩

section Copy

variable (plain : tree.root.isPlain = true) (start : tree.hasDirectory (startOf tree.workingDirectory path) = true)
    (ok : tree.copyFile source path = .ok made)

include plain start ok

theorem copyFile_others {location : Location} (apart : location ≠ path.locationFrom tree.workingDirectory) :
    made.content? location = tree.content? location := by
  obtain ⟨directory, name, content, mark, ends, noDirectory, rfl⟩ := copyFile_ok plain start ok
  rw [content?_put_file ends.hasSlot noDirectory, ← ends.location_eq, if_neg apart]

theorem copyFile_content (sourceStart : tree.hasDirectory (startOf tree.workingDirectory source) = true)
    (apart : source.locationFrom tree.workingDirectory ≠ path.locationFrom tree.workingDirectory) :
    made.content? (path.locationFrom tree.workingDirectory) =
      tree.content? (source.locationFrom tree.workingDirectory) := by
  unfold copyFile at ok
  split at ok
  · cases ok
  · rename_i location old mark isSource
    obtain ⟨rfl, there⟩ := file_of_place plain sourceStart (resolve_ok isSource)
    split at ok
    · cases ok
    rename_i emptied written
    obtain ⟨directory, name, newMark, ends, noDirectory, rfl⟩ := writeFile_ok plain start written
    -- The source is read once the target is empty; it is another file, so it is as it was.
    have isRead : (tree.put (directory ++ [name]) (.file (.text []) newMark)).content?
        (source.locationFrom tree.workingDirectory) = some old := by
      rw [content?_put_file ends.hasSlot noDirectory, ← ends.location_eq, if_neg apart]
      exact content?_eq_some.mpr ⟨mark, there⟩
    obtain ⟨readMark, isThere⟩ := content?_eq_some.mp isRead
    rw [isThere] at ok
    have plainEmptied := isPlain_put ends.hasSlot plain (show (Node.file (.text []) newMark).isPlain = true from rfl)
    have startEmptied := hasDirectory_put_file (.file (.text []) newMark) ends.hasSlot noDirectory start
    obtain ⟨again, nameAgain, markAgain, endsAgain, noDirectoryAgain, rfl⟩ :=
      writeFile_ok plainEmptied startEmptied ok
    have isPlace : path.locationFrom tree.workingDirectory = again ++ [nameAgain] := endsAgain.location_eq
    rw [content?_put_file endsAgain.hasSlot noDirectoryAgain, if_pos isPlace, content?_eq_some.mpr ⟨mark, there⟩]
  · cases ok

end Copy

/-- Making the directory above a path below another changes no file. -/
theorem makeDirectories_contents {output next parent : Path} (enters : tree.Enters output) (down : next.LeadsDown)
    (isParent : (output.join next).parent? = some parent) (plain : tree.root.isPlain = true)
    (ok : makeDirectories parent tree = (.ok (), made)) (location : Location) :
    made.content? location = tree.content? location := by
  have starts : startOf tree.workingDirectory parent = startOf tree.workingDirectory (output.join next) := by
    rw [startOf, startOf, Path.isAbsolute_above isParent]
  have grows := makeDirectories_grows plain (starts ▸ start_join enters down)
  rw [ok] at grows
  exact grows.content?_eq location

end FileTree

namespace Build

open FileTree (SameOutside)

/-! ## Phases that leave most files -/

/-- Whether a phase, where it succeeds, changes nothing outside a directory, and no file in it but those that it may
take. -/
def Spares {α : Type} (output : Path) (taken : Location → Prop) (phase : Building α) : Prop :=
  ∀ (progress after : Progress) (value : α), progress.tree.IsReady output → phase progress = (.ok value, after) →
    SameOutside (output.locationFrom progress.tree.workingDirectory) progress.tree after.tree ∧
      ∀ names, ¬ taken names →
        after.tree.content? (output.locationFrom progress.tree.workingDirectory ++ names) =
          progress.tree.content? (output.locationFrom progress.tree.workingDirectory ++ names)

/-- Whether a compiler, where it succeeds, changes nothing outside the output directory of a job, and no file in it
but the modules of the job. -/
def SparesOthers (compiler : Compiler) (job : Job) : Prop :=
  ∀ tree changed : FileTree, tree.IsReady job.output → compiler job tree = (.ok (), changed) →
    SameOutside (job.output.locationFrom tree.workingDirectory) tree changed ∧
      ∀ names, (∀ entry ∈ job.entryPoints, (emittedPath entry job.format.extension).moves ≠ names) →
        changed.content? (job.output.locationFrom tree.workingDirectory ++ names) =
          tree.content? (job.output.locationFrom tree.workingDirectory ++ names)

namespace Spares

variable {α β : Type} {output : Path} {taken : Location → Prop}

theorem pure (value : α) : Spares output taken (pure value : Building α) := by
  intro progress after _ ready ok
  cases ok
  exact ⟨ready.refl, fun _ _ => rfl⟩

theorem bind {first : Building α} {next : α → Building β} (begins : Spares output taken first)
    (goesOn : ∀ value, Spares output taken (next value)) : Spares output taken (first >>= next) := by
  intro progress after value ready ok
  rw [bind_state] at ok
  split at ok
  · rename_i middleValue middle isFirst
    obtain ⟨same, contents⟩ := begins progress middle middleValue ready isFirst
    obtain ⟨later, laterContents⟩ := goesOn middleValue middle after value (same.isReady ready) ok
    rw [same.workingDirectory] at later laterContents
    exact ⟨same.trans later, fun names free => (laterContents names free).trans (contents names free)⟩
  · cases ok

theorem map {first : Building α} (change : α → β) (begins : Spares output taken first) :
    Spares output taken (change <$> first) := by
  rw [map_eq_pure_bind]
  exact begins.bind fun value => .pure (change value)

theorem say (event : Event) : Spares output taken (say event) := by
  intro progress after _ ready ok
  cases ok
  exact ⟨ready.refl, fun _ _ => rfl⟩

theorem makeParent {next : Path} (down : next.LeadsDown) : Spares output taken (makeParent (output.join next)) := by
  intro progress after value ready ok
  refine ⟨StaysWithin.makeParent down progress after value ready ok, fun names _ => ?_⟩
  unfold Build.makeParent at ok
  cases isParent : (output.join next).parent? with
  | none =>
      rw [isParent] at ok
      cases ok
      rfl
  | some parent =>
      rw [isParent] at ok
      simp only [perform] at ok
      split at ok
      · rename_i made isMade
        have contents := FileTree.makeDirectories_contents ready.enters down isParent ready.plain isMade
        cases ok
        exact contents _
      · cases ok

theorem perform_ok {blame : SystemFault → BuildFault} {change : FileTree → Except SystemFault FileTree}
    {progress after : Progress} (ok : perform blame (FileTree.atOnce change) progress = (.ok (), after)) :
    change progress.tree = .ok after.tree := by
  unfold perform FileTree.atOnce at ok
  cases changed : change progress.tree with
  | error fault =>
      rw [changed] at ok
      cases ok
  | ok tree =>
      rw [changed] at ok
      cases ok
      rfl

theorem copy {next source : Path} (down : next.LeadsDown) (takes : taken next.moves) (blame : SystemFault → BuildFault) :
    Spares output taken (perform blame (FileTree.atOnce (FileTree.copyFile source (output.join next)))) := by
  intro progress after value ready ok
  refine ⟨StaysWithin.copy down blame progress after value ready ok, fun names free => ?_⟩
  refine FileTree.copyFile_others ready.plain (FileTree.start_join ready.enters down) (perform_ok ok) fun same => ?_
  rw [FileTree.locationFrom_join down, List.append_cancel_left_eq] at same
  exact free (same ▸ takes)

theorem copyAssets {assets : List Path} (down : ∀ asset ∈ assets, asset.LeadsDown)
    (takes : ∀ asset ∈ assets, taken asset.moves) (source : Path) :
    Spares output taken (copyAssets source output assets) := by
  induction assets with
  | nil => exact .pure ()
  | cons asset rest ih =>
      rw [List.forall_mem_cons] at down takes
      exact (makeParent down.1).bind fun _ => (copy down.1 takes.1 _).bind fun _ => ih down.2 takes.2

theorem compileIfAny {compiler : Compiler} {job : Job} (spares : SparesOthers compiler job)
    (takes : ∀ entry ∈ job.entryPoints, taken (emittedPath entry job.format.extension).moves) :
    Spares job.output taken (compileIfAny compiler job) := by
  unfold Build.compileIfAny
  split
  · exact .pure ()
  refine bind ?_ fun _ => .say _
  intro progress after _ ready ok
  unfold compile at ok
  simp only at ok
  split at ok
  · rename_i changed isCompiled
    cases ok
    obtain ⟨same, contents⟩ := spares progress.tree changed ready isCompiled
    exact ⟨same, fun names free => contents names fun entry member is => free (is ▸ takes entry member)⟩
  · cases ok

theorem relinkModules {modules : List Path} (down : ∀ path ∈ modules, path.LeadsDown)
    (takes : ∀ path ∈ modules, taken path.moves) (options : Options) {tree : FileTree} (ready : tree.IsReady output)
    {names : Location} (free : ¬ taken names) :
    (relinkModules options output tree modules).files.content? (output.locationFrom tree.workingDirectory ++ names) =
      tree.content? (output.locationFrom tree.workingDirectory ++ names) := by
  induction modules generalizing tree with
  | nil => rfl
  | cons path rest ih =>
      rw [List.forall_mem_cons] at down takes
      have one : (relinkModule options tree (output.join path)).files.content?
          (output.locationFrom tree.workingDirectory ++ names) =
            tree.content? (output.locationFrom tree.workingDirectory ++ names) := by
        rcases relinkModule_files options tree (output.join path) with same | ⟨text, written⟩
        · rw [same]
        · obtain ⟨directory, name, mark, ends, noDirectory, made⟩ :=
            FileTree.writeText_ok ready.plain (FileTree.start_join ready.enters down.1) written
          rw [made, FileTree.content?_put_file ends.hasSlot noDirectory, ← ends.location_eq,
            FileTree.locationFrom_join down.1, if_neg]
          rw [List.append_cancel_left_eq]
          exact fun same => free (same ▸ takes.1)
      have same : SameOutside (output.locationFrom tree.workingDirectory) tree
          (relinkModule options tree (output.join path)).files :=
        StaysWithin.relinkModules (List.forall_mem_singleton.mpr down.1) options ready
      have others := ih down.2 takes.2 (same.isReady ready)
      rw [same.workingDirectory] at others
      exact others.trans one

theorem relinkIfNeeded (config : Config) {modules : List Path} (down : ∀ path ∈ modules, path.LeadsDown)
    (takes : ∀ path ∈ modules, taken path.moves) : Spares config.output taken (relinkIfNeeded config modules) := by
  unfold Build.relinkIfNeeded
  split
  · refine map _ fun progress after _ ready ok => ?_
    cases ok
    exact ⟨StaysWithin.relinkModules down _ ready, fun names free => relinkModules down takes _ ready free⟩
  · exact .pure none

end Spares

/-! ## A compiler that spares other files -/

theorem emitCopy_others {output next source : Path} {tree changed : FileTree} (ready : tree.IsReady output)
    (down : next.LeadsDown) (ok : Compiler.emitCopy source (output.join next) tree = (.ok (), changed))
    {location : Location} (apart : location ≠ output.locationFrom tree.workingDirectory ++ next.moves) :
    changed.content? location = tree.content? location := by
  unfold Compiler.emitCopy at ok
  rw [bind_state] at ok
  split at ok
  swap
  · cases ok
  rename_i grown isMade
  have isGrown := filing_ok isMade
  have made : SameOutside (output.locationFrom tree.workingDirectory) tree grown ∧
      grown.content? location = tree.content? location := by
    cases isParent : (output.join next).parent? with
    | none =>
        rw [isParent, Option.getD_none, makeDirectories_empty] at isGrown
        cases isGrown
        exact ⟨ready.refl, rfl⟩
    | some parent =>
        rw [isParent, Option.getD_some] at isGrown
        have same := FileTree.makeDirectories_same ready.plain ready.enters down isParent
        rw [isGrown] at same
        exact ⟨same, FileTree.makeDirectories_contents ready.enters down isParent ready.plain isGrown location⟩
  obtain ⟨same, contents⟩ := made
  have later := same.isReady ready
  have copied := filing_ok ok
  unfold FileTree.atOnce at copied
  split at copied
  · rename_i isCopied
    cases copied
    rw [← contents]
    refine FileTree.copyFile_others later.plain (FileTree.start_join later.enters down) isCopied ?_
    rwa [FileTree.locationFrom_join down, same.workingDirectory]
  · cases copied

theorem copying_sparesOthers {job : Job}
    (down : ∀ entry ∈ job.entryPoints, (emittedPath entry job.format.extension).LeadsDown) :
    SparesOthers Compiler.copying job := by
  intro tree changed ready ok
  refine ⟨copyEach_same job ready down ok, fun names apart => ?_⟩
  change Compiler.copyEach job job.entryPoints tree = (.ok (), changed) at ok
  generalize job.entryPoints = entries at ok down apart
  induction entries generalizing tree with
  | nil =>
      cases ok
      rfl
  | cons entry rest ih =>
      rw [List.forall_mem_cons] at down apart
      rw [Compiler.copyEach, bind_state] at ok
      split at ok
      · rename_i emitted isEmitted
        have first := emitCopy_same ready down.1 isEmitted
        have others := ih emitted (first.isReady ready) ok down.2 apart.2
        rw [first.workingDirectory] at others
        refine others.trans (emitCopy_others ready down.1 isEmitted ?_)
        rw [Ne, List.append_cancel_left_eq]
        exact apart.1.symm
      · cases ok

/-! ## Assets -/

theorem copyFile_below {tree made : FileTree} {source output : Path} (ready : tree.IsReady output)
    (sourceEnters : tree.Enters source)
    (sourceWay : ∀ location ∈ source.trailFrom tree.workingDirectory,
      ¬ output.locationFrom tree.workingDirectory <+: location)
    (notInside : ¬ source.locationFrom tree.workingDirectory <+: output.locationFrom tree.workingDirectory)
    {names : Location} (below : names.IsBelow)
    (ok : tree.copyFile (source.join names.path) (output.join names.path) = .ok made) :
    made.content? (output.locationFrom tree.workingDirectory ++ names) =
      tree.content? (source.locationFrom tree.workingDirectory ++ names) := by
  have down := below.leadsDown
  have moves := Path.moves_location below.2
  have apart : (source.join names.path).locationFrom tree.workingDirectory ≠
      (output.join names.path).locationFrom tree.workingDirectory := by
    rw [FileTree.locationFrom_join down, FileTree.locationFrom_join down, moves]
    intro meets
    rcases List.prefix_or_prefix_of_prefix (List.prefix_append (source.locationFrom _) names)
      (meets ▸ List.prefix_append (output.locationFrom _) names) with sourceAbove | outputAbove
    · exact notInside sourceAbove
    · exact sourceWay _ (Path.locationFrom_mem_trailFrom _ _) outputAbove
  have content := FileTree.copyFile_content ready.plain (FileTree.start_join ready.enters down) ok
    (FileTree.start_join sourceEnters down) apart
  rwa [FileTree.locationFrom_join down, FileTree.locationFrom_join down, moves] at content

/-- Copying assets leaves a file in the place of none of them. -/
theorem copyAssets_others {source output : Path} {assets : List Path} {progress after : Progress}
    (ready : progress.tree.IsReady output)
    (below : ∀ asset ∈ assets, ∃ names, Location.IsBelow names ∧ asset = Location.path names)
    (ok : copyAssets source output assets progress = (.ok (), after)) {names : Location}
    (fresh : names.path ∉ assets) :
    after.tree.content? (output.locationFrom progress.tree.workingDirectory ++ names) =
      progress.tree.content? (output.locationFrom progress.tree.workingDirectory ++ names) := by
  have down : ∀ asset ∈ assets, asset.LeadsDown := fun asset member => by
    obtain ⟨other, otherBelow, rfl⟩ := below asset member
    exact otherBelow.leadsDown
  have spares : Spares output (fun names => ∃ asset ∈ assets, asset.moves = names)
      (Build.copyAssets source output assets) :=
    .copyAssets down (fun asset member => ⟨asset, member, rfl⟩) source
  refine (spares _ _ _ ready ok).2 names ?_
  rintro ⟨asset, member, is⟩
  obtain ⟨other, otherBelow, rfl⟩ := below asset member
  rw [Path.moves_location otherBelow.2] at is
  exact fresh (is ▸ member)

theorem copyAssets_verbatim {source output : Path} {assets : List Path} {progress after : Progress}
    (ready : progress.tree.IsReady output) (sourceEnters : progress.tree.Enters source)
    (sourceWay : ∀ location ∈ source.trailFrom progress.tree.workingDirectory,
      ¬ output.locationFrom progress.tree.workingDirectory <+: location)
    (notInside : ¬ source.locationFrom progress.tree.workingDirectory <+:
      output.locationFrom progress.tree.workingDirectory)
    (below : ∀ asset ∈ assets, ∃ names, Location.IsBelow names ∧ asset = Location.path names) (distinct : assets.Nodup)
    (ok : copyAssets source output assets progress = (.ok (), after)) : ∀ asset ∈ assets,
      after.tree.content? (output.locationFrom progress.tree.workingDirectory ++ asset.moves) =
        progress.tree.content? (source.locationFrom progress.tree.workingDirectory ++ asset.moves) := by
  induction assets generalizing progress with
  | nil => exact fun _ member => absurd member List.not_mem_nil
  | cons first rest ih =>
      rw [List.forall_mem_cons] at below
      rw [List.nodup_cons] at distinct
      obtain ⟨⟨names, isBelow, rfl⟩, restBelow⟩ := below
      have down := isBelow.leadsDown
      have moves := Path.moves_location isBelow.2
      rw [copyAssets, bind_state] at ok
      split at ok
      swap
      · cases ok
      rename_i grown isMade
      rw [bind_state] at ok
      split at ok
      swap
      · cases ok
      rename_i copied isCopied
      have made := StaysWithin.makeParent down _ _ _ ready isMade
      have grownReady := made.isReady ready
      obtain ⟨grownEnters, grownKept⟩ := made.source_kept ready sourceEnters sourceWay notInside
      have grownHome := made.workingDirectory
      have writes := StaysWithin.copy down _ _ _ _ grownReady isCopied
      have same := made.trans (grownHome ▸ writes)
      obtain ⟨enters, kept⟩ := same.source_kept ready sourceEnters sourceWay notInside
      have home := same.workingDirectory
      have others := ih (same.isReady ready) enters (home ▸ sourceWay) (home ▸ notInside) restBelow distinct.2 ok
      rw [home] at others
      rw [List.forall_mem_cons]
      refine ⟨?_, fun asset member => (others asset member).trans (FileTree.content?_below kept _)⟩
      -- The first asset is not written again, because the others have other paths.
      have later := copyAssets_others (same.isReady ready) restBelow ok distinct.1
      have content := copyFile_below grownReady grownEnters (grownHome ▸ sourceWay) (grownHome ▸ notInside) isBelow
        (Spares.perform_ok isCopied)
      rw [home] at later
      rw [grownHome, FileTree.content?_below grownKept] at content
      rw [moves, later, content]

end Build

end Relink
