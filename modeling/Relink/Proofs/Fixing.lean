import Relink.Proofs.Build.Targets
import Relink.Proofs.FileTree.Modules
import Relink.Proofs.Settling

/-!
# Fixing the modules of an output

What a build relinks and what is relinked when the modules of its output are fixed comes to the same for every
emitted module, whatever other modules are there. Once relinked, emitted modules are left as they are.
-/

set_option autoImplicit false

namespace Relink

/-! ## Modules that are relinked again -/

section Settled

variable {isFile : Path → Bool} {options : Options} {file : Path} {text : Text}

theorem moduleText_settled :
    moduleText isFile options file (moduleText isFile options file text) = moduleText isFile options file text := by
  cases relinks : relinkText isFile options file text with
  | error fault => simp only [moduleText, relinks]
  | ok relinking =>
      have is : outcomeOf isFile options file text = .ok relinking.outcome := by rw [outcomeOf, relinks]; rfl
      obtain ⟨again, isAgain, kept, -⟩ := outcomeOf_settled is
      obtain ⟨other, relinksAgain, rfl⟩ := FileTree.map_eq_ok.mp isAgain
      simp only [moduleText, relinks, relinksAgain, kept, Option.getD_none]

/-- A module that was relinked is unchanged when it is relinked again, unless it could not be parsed. -/
theorem moduleResult_settled :
    (∃ fault, moduleResult isFile options file text = .error (.unparsable file fault) ∧
      moduleResult isFile options file (moduleText isFile options file text) = .error (.unparsable file fault)) ∨
    ModuleStatus.ofResult (moduleResult isFile options file (moduleText isFile options file text)) = .unchanged := by
  cases relinks : relinkText isFile options file text with
  | error fault => exact .inl ⟨fault, by simp only [moduleResult, relinks], by simp only [moduleText, moduleResult, relinks]⟩
  | ok relinking =>
      have is : outcomeOf isFile options file text = .ok relinking.outcome := by rw [outcomeOf, relinks]; rfl
      obtain ⟨again, isAgain, kept, -⟩ := outcomeOf_settled is
      obtain ⟨other, relinksAgain, rfl⟩ := FileTree.map_eq_ok.mp isAgain
      refine .inr ?_
      simp only [moduleText, moduleResult, relinks, relinksAgain, ModuleStatus.ofResult, Outcome.isRelinked, kept]
      rfl

end Settled

namespace FileTree

/-! ## Directories of texts -/

/-- Whether a path leads to a directory that holds no links and no file that cannot be read as text. -/
structure HoldsText (tree : FileTree) (output : Path) : Prop where
  plain : ∃ node, tree.node? output = some node ∧ node.isDirectory = true ∧ node.isPlain = true
  readable : ∀ file ∈ tree.filesBelow output, ∃ text, tree.readText (output.join file) = .ok text

def textOf (tree : FileTree) (path : Path) : Text := (tree.readText path).toOption.getD []

theorem readText_ok {tree : FileTree} {path : Path} {text : Text} (ok : tree.readText path = .ok text) :
    ∃ location mark, tree.placeOf path = .ok (.found location (.file (.text text) mark)) := by
  unfold readText resolve at ok
  cases placed : tree.placeOf path with
  | error fault =>
      rw [placed] at ok
      cases ok
  | ok place =>
      rw [placed] at ok
      cases place with
      | absent directory name => cases ok
      | found location node =>
          cases node with
          | directory entries => cases ok
          | link target => cases ok
          | file content mark => cases content <;> cases ok; exact ⟨location, mark, rfl⟩

namespace HoldsText

variable {tree : FileTree} {output : Path} (holds : tree.HoldsText output)

include holds

theorem isDirectory : tree.isDirectory output = true := by
  obtain ⟨node, is, isDirectory, -⟩ := holds.plain
  rw [FileTree.isDirectory, is]
  exact isDirectory

theorem place : ∃ base entries, tree.placeOf output = .ok (.found base (.directory entries)) ∧
    (Node.directory entries).isPlain = true ∧
    tree.filesBelow output = (Node.directory entries).files.map Location.path := by
  obtain ⟨node, is, isDirectory, plain⟩ := holds.plain
  obtain ⟨base, placed⟩ := placeOf_of_node? is
  cases node with
  | file content executable => cases isDirectory
  | link target => cases plain
  | directory entries => exact ⟨base, entries, placed, plain, by rw [filesBelow, is]⟩

theorem nodup : (tree.filesBelow output).Nodup := by
  obtain ⟨base, entries, -, plain, files⟩ := holds.place
  rw [files]
  exact Node.paths_nodup (Node.isOrderly_of_isPlain plain)

theorem isBelow {file : Path} (member : file ∈ tree.filesBelow output) :
    ∃ names, Location.IsBelow names ∧ file = Location.path names := by
  obtain ⟨base, entries, -, plain, files⟩ := holds.place
  rw [files] at member
  exact Node.isBelow_of_mem_paths (Node.isOrderly_of_isPlain plain) rfl member

theorem opens : ∃ base : Location, ∀ file ∈ tree.filesBelow output,
    tree.Opens (output.join file) (base ++ file.moves) (.text (tree.textOf (output.join file))) := by
  obtain ⟨base, entries, placed, plain, -⟩ := holds.place
  refine ⟨base, fun file member => ?_⟩
  obtain ⟨text, ok⟩ := holds.readable file member
  obtain ⟨names, below, rfl⟩ := holds.isBelow member
  obtain ⟨location, mark, found⟩ := readText_ok ok
  rw [Path.moves_location below.2, textOf, ok]
  exact (opens_below placed plain below found).2

theorem mem_filesBelow {names : Location} (below : names.IsBelow)
    (isFile : tree.isFile (output.join names.path) = true) : names.path ∈ tree.filesBelow output := by
  obtain ⟨base, entries, placed, plain, files⟩ := holds.place
  obtain ⟨node, is, shape⟩ := (Option.any_eq_true _ _).mp isFile
  obtain ⟨location, found⟩ := placeOf_of_node? is
  cases node with
  | directory entries => cases shape
  | link target => cases shape
  | file content mark =>
      obtain ⟨rfl, -⟩ := opens_below placed plain below found
      have there := get?_of_place found
      rw [get?, Node.get?_append, ← get?, get?_of_place placed, Option.bind_some] at there
      rw [files]
      exact List.mem_map.mpr ⟨names, (Node.mem_files (Node.isOrderly_of_isPlain plain)).mpr ⟨content, mark, there⟩, rfl⟩

/-- A directory of texts keeps its files where files are written over, and stays one where they stay readable. -/
theorem overwritten {made : FileTree} (overwrites : Overwrites tree made)
    (readable : ∀ file ∈ tree.filesBelow output, ∃ text, made.readText (output.join file) = .ok text) :
    made.HoldsText output ∧ made.filesBelow output = tree.filesBelow output := by
  obtain ⟨base, entries, placed, plain, files⟩ := holds.place
  obtain ⟨changed, there, sameFiles, stays⟩ := overwrites.node (get?_of_place placed)
  have outlines := overwrites.outline.place_eq ⟨true, output.endsInSlash, false⟩ output
  rw [← placeOf, ← placeOf, placed] at outlines
  obtain ⟨place, isPlace, shape⟩ := map_eq_ok.mp outlines
  cases place with
  | absent directory name => cases shape
  | found location node =>
      rw [Place.outline, Place.outline, Place.found.injEq] at shape
      obtain ⟨rfl, outline⟩ := shape
      have isNode : made.node? output = some node := by
        rw [node?, resolve, isPlace]
        rfl
      obtain rfl : node = changed := Option.some.inj ((get?_of_place isPlace).symm.trans there)
      have listing : made.filesBelow output = tree.filesBelow output := by
        rw [filesBelow, isNode, files]
        exact congrArg _ sameFiles
      refine ⟨⟨⟨node, isNode, ?_, stays plain⟩, listing ▸ readable⟩, listing⟩
      rw [← Node.isDirectory_outline, outline]
      rfl

end HoldsText

/-! ## Passes over such a directory -/

def fileReport (tree : FileTree) (options : Options) (output file : Path) : ModuleReport :=
  ⟨file, .ofResult (moduleResult tree.isFile options (output.join file) (tree.textOf (output.join file)))⟩

/-- The text that a file below a directory has once it is relinked. -/
def fileText (tree : FileTree) (options : Options) (output file : Path) : Text :=
  moduleText tree.isFile options (output.join file) (tree.textOf (output.join file))

/-- What a pass over files of a directory comes to: a report on each file by itself, its text, and a directory of
texts again. -/
structure PassedFiles (options : Options) (output : Path) (tree : FileTree) (files : List Path)
    (run : Run FileTree (List ModuleReport)) : Prop where
  reports : run.result = files.map (tree.fileReport options output)
  texts : ∀ file ∈ files, run.files.readText (output.join file) = .ok (tree.fileText options output file)
  holds : run.files.HoldsText output
  listing : run.files.filesBelow output = tree.filesBelow output
  checks : run.files.isFile = tree.isFile

theorem HoldsText.passed {tree : FileTree} {output : Path} {files : List Path} (holds : tree.HoldsText output)
    (options : Options) (listed : ∀ file ∈ files, file ∈ tree.filesBelow output) (distinct : files.Nodup) :
    PassedFiles options output tree files (relinkModules options output tree files) := by
  obtain ⟨base, opens⟩ := holds.opens
  have apart : files.Pairwise fun one other => base ++ one.moves ≠ base ++ other.moves := by
    refine List.Pairwise.imp_of_mem (fun {one other} isOne isOther apart same => apart ?_) distinct
    obtain ⟨names, below, rfl⟩ := holds.isBelow (listed one isOne)
    obtain ⟨otherNames, otherBelow, rfl⟩ := holds.isBelow (listed other isOther)
    rw [List.append_cancel_left_eq, Path.moves_location below.2, Path.moves_location otherBelow.2] at same
    rw [same]
  have passed := relinkModules_opens options output id (fun file => tree.textOf (output.join file))
    (fun file member => opens file (listed file member)) apart
  rw [List.map_id] at passed
  generalize relinkModules options output tree files = run at passed ⊢
  obtain ⟨overwrites, reports, texts, others⟩ := passed
  have same := overwrites.outline
  have written : ∀ file ∈ files,
      run.files.readText (output.join file) = .ok (tree.fileText options output file) := fun file member =>
    (same.opens (opens file (listed file member)) (texts file member)).readText
  obtain ⟨stays, listing⟩ := holds.overwritten overwrites fun file member => by
    by_cases isPassed : file ∈ files
    · exact ⟨_, written file isPassed⟩
    · by_cases isTaken : ∃ other ∈ files, base ++ other.moves = base ++ file.moves
      · obtain ⟨other, isOther, place⟩ := isTaken
        exact ⟨_, (same.opens (opens file member) (place ▸ texts other isOther)).readText⟩
      · have kept := others (base ++ file.moves) fun other isOther place => isTaken ⟨other, isOther, place⟩
        exact ⟨_, (same.opens (opens file member) (kept.trans (opens file member).content?_eq)).readText⟩
  exact ⟨reports, written, stays, listing, funext same.isFile_eq⟩

namespace PassedFiles

variable {options : Options} {output : Path} {tree : FileTree} {files : List Path}
  {run : Run FileTree (List ModuleReport)} (passed : PassedFiles options output tree files run)

include passed

theorem paths : run.result.map ModuleReport.path = files := by
  rw [passed.reports, List.map_map]
  exact List.map_id _

theorem textOf_eq {file : Path} (member : file ∈ files) :
    run.files.textOf (output.join file) = tree.fileText options output file := by
  rw [textOf, passed.texts file member]
  rfl

/-- Another pass leaves the text of a file that has been passed. -/
theorem fileText_eq {file : Path} (member : file ∈ files) :
    run.files.fileText options output file = tree.fileText options output file := by
  rw [fileText, passed.textOf_eq member, passed.checks, fileText, moduleText_settled]

/-- Another pass reports the same failure of a file that has been passed, or that nothing is left to do. -/
theorem fileReport_settled {file : Path} (member : file ∈ files) :
    (∃ fault, (tree.fileReport options output file).status = .failed (.unparsable (output.join file) fault) ∧
        run.files.fileReport options output file = tree.fileReport options output file) ∨
      run.files.fileReport options output file = ⟨file, .unchanged⟩ := by
  have again : run.files.fileReport options output file =
      ⟨file, .ofResult (moduleResult tree.isFile options (output.join file)
        (tree.fileText options output file))⟩ := by
    rw [fileReport, passed.textOf_eq member, passed.checks]
  rw [again, fileText]
  rcases @moduleResult_settled tree.isFile options (output.join file) (tree.textOf (output.join file)) with
    ⟨fault, failed, failsAgain⟩ | unchanged
  · refine .inl ⟨fault, by rw [fileReport, failed]; rfl, ?_⟩
    rw [failsAgain, fileReport, failed]
  · rw [unchanged]
    exact .inr rfl

end PassedFiles

end FileTree

namespace Build

/-! ## Fixing an output -/

/-- The modules that are fixed below a directory. -/
def modulesBelow (tree : FileTree) (output : Path) (extension : ModuleExtension) : List Path :=
  (tree.filesBelow output).filter (hasExtension [extension.spelling])

theorem fixModules_run {output : Path} (options : Options) {tree : FileTree}
    (isDirectory : tree.isDirectory output = true) : ∃ progress, fixModules output options (.start tree) =
      (.ok ⟨(relinkModules options output tree (modulesBelow tree output options.extension)).result⟩, progress) ∧
      progress.tree = (relinkModules options output tree (modulesBelow tree output options.extension)).files := by
  have discovered : discoverModules tree output options.extension =
      .ok (modulesBelow tree output options.extension) := by
    rw [discoverModules, if_pos isDirectory, modulesBelow]
  unfold fixModules
  simp only [bind_state, look, Progress.start, discovered, say, relink]
  exact ⟨_, rfl, rfl⟩

theorem unicode?_spelling (extension : ModuleExtension) :
    Octet.unicode? extension.spelling = some extension.spelling := by
  cases extension <;> decide

theorem hasExtension_emittedPath {names : Location} (below : names.IsBelow) (extension : ModuleExtension) :
    hasExtension [extension.spelling] (emittedPath names.path extension) = true := by
  have self := emittedPath_location below extension
  obtain ⟨-, ending⟩ := (eq_emittedPath_iff below extension (emittedLocation_isBelow below extension)).mp self.symm
  rw [hasExtension, self, ending, Option.bind_some, unicode?_spelling, Option.any_some]
  simp

section Fix

variable {tree : FileTree} {output : Path} (holds : tree.HoldsText output) (options : Options)

include holds

/-- Modules below a directory of texts are fixed each by itself. -/
theorem fixModules_passed : ∃ report progress, fixModules output options (.start tree) = (.ok report, progress) ∧
    report.modules.map ModuleReport.path = modulesBelow tree output options.extension ∧
    (∀ file ∈ modulesBelow tree output options.extension, tree.fileReport options output file ∈ report.modules ∧
      progress.tree.readText (output.join file) = .ok (tree.fileText options output file)) := by
  obtain ⟨progress, fixed, isTree⟩ := fixModules_run options holds.isDirectory
  have passed : FileTree.PassedFiles options output tree (modulesBelow tree output options.extension) _ :=
    holds.passed options (fun file member => List.mem_of_mem_filter member) (holds.nodup.filter _)
  refine ⟨_, progress, fixed, passed.paths, fun file member => ⟨?_, ?_⟩⟩
  · rw [passed.reports]
    exact List.mem_map.mpr ⟨file, member, rfl⟩
  · rw [isTree]
    exact passed.texts file member

end Fix

/-- The modules of the entry points that are there are among those that are fixed. -/
theorem mem_modulesBelow_of_emitted {tree : FileTree} {config : Config} (output : tree.HoldsText config.output) {entries : List Path}
    (discovered : ∀ entry ∈ entries, ∃ names, Location.IsBelow names ∧ entry = Location.path names)
    {module : Path} (member : module ∈ (config.job entries).emitted)
    (isFile : tree.isFile (config.output.join module) = true) :
    module ∈ modulesBelow tree config.output config.options.extension := by
  obtain ⟨entry, isEntry, rfl⟩ := List.mem_map.mp member
  obtain ⟨names, below, rfl⟩ := discovered entry isEntry
  have located := emittedPath_location below config.format.extension
  refine List.mem_filter.mpr ⟨?_, hasExtension_emittedPath below config.format.extension⟩
  change tree.isFile (config.output.join (emittedPath names.path config.format.extension)) = true at isFile
  change emittedPath names.path config.format.extension ∈ tree.filesBelow config.output
  rw [located] at isFile ⊢
  exact output.mem_filesBelow (emittedLocation_isBelow below _) isFile

/-- Where all files of an output are texts, fixing its modules does to every emitted one what the pass over the emitted
ones does: it is found once, and report and text are the same. Fixed once more, it is unchanged, or as far from being
a module as before. -/
theorem fixModules_agrees (config : Config) (tree : FileTree) (entries : List Path)
    (output : tree.HoldsText config.output)
    (discovered : ∀ entry ∈ entries, ∃ names, Location.IsBelow names ∧ entry = Location.path names)
    (distinct : (config.job entries).emitted.Nodup)
    (present : ∀ module ∈ (config.job entries).emitted, tree.isFile (config.output.join module) = true) :
    ∃ report progress again after,
      fixModules config.output config.options (.start tree) = (.ok report, progress) ∧
      fixModules config.output config.options
        (.start (relinkModules config.options config.output tree (config.job entries).emitted).files) =
          (.ok again, after) ∧
      (relinkModules config.options config.output tree (config.job entries).emitted).result.map ModuleReport.path =
        (config.job entries).emitted ∧
      ∀ entry ∈ (relinkModules config.options config.output tree (config.job entries).emitted).result,
        (report.modules.map ModuleReport.path).count entry.path = 1 ∧ entry ∈ report.modules ∧
        (again.modules.map ModuleReport.path).count entry.path = 1 ∧
        ((∃ fault, entry.status = .failed (.unparsable (config.output.join entry.path) fault) ∧
          entry ∈ again.modules) ∨ ⟨entry.path, .unchanged⟩ ∈ again.modules) ∧
        ∃ text,
          (relinkModules config.options config.output tree (config.job entries).emitted).files.readText
            (config.output.join entry.path) = .ok text ∧
          progress.tree.readText (config.output.join entry.path) = .ok text ∧
          after.tree.readText (config.output.join entry.path) = .ok text := by
  have emitted : ∀ module ∈ (config.job entries).emitted,
      module ∈ modulesBelow tree config.output config.options.extension := fun module member =>
    mem_modulesBelow_of_emitted output discovered member (present module member)
  obtain ⟨report, progress, fixed, paths, reports⟩ := fixModules_passed output config.options
  have passed := output.passed config.options
    (fun module member => List.mem_of_mem_filter (emitted module member)) distinct
  generalize relinkModules config.options config.output tree (config.job entries).emitted = run at passed ⊢
  obtain ⟨again, after, fixedAgain, pathsAgain, reportsAgain⟩ := fixModules_passed passed.holds config.options
  have modulesKept : modulesBelow run.files config.output config.options.extension =
      modulesBelow tree config.output config.options.extension := by
    rw [modulesBelow, modulesBelow, passed.listing]
  rw [modulesKept] at pathsAgain reportsAgain
  refine ⟨report, progress, again, after, fixed, fixedAgain, passed.paths, ?_⟩
  rw [passed.reports, List.forall_mem_map]
  intro module member
  have isModule := emitted module member
  have once : (modulesBelow tree config.output config.options.extension).count module = 1 :=
    List.count_eq_one_of_mem (output.nodup.filter _) isModule
  obtain ⟨isReport, isText⟩ := reports module isModule
  obtain ⟨isReportAgain, isTextAgain⟩ := reportsAgain module isModule
  rw [passed.fileText_eq member] at isTextAgain
  refine ⟨by rw [paths]; exact once, isReport, by rw [pathsAgain]; exact once, ?_, _,
    passed.texts module member, isText, isTextAgain⟩
  rcases passed.fileReport_settled member with ⟨fault, failed, same⟩ | unchanged
  · exact .inl ⟨fault, failed, same ▸ isReportAgain⟩
  · exact .inr (unchanged ▸ isReportAgain)

/-- A working directory with an output that a link leads to. Beside the emitted modules there is a copied one. -/
def linkedTree : FileTree :=
  ⟨.directory [(['w'], .directory
    [("build".toList, .link (.ofString "made/out")),
      ("made".toList, .directory [("out".toList, .directory
        [("copied.mjs".toList, .file (.text "import \"./a\";\n".toList) false),
          ("a.mjs".toList, .file (.text "x = (;\n".toList) false),
          ("index.mjs".toList, .file (.text "import \"./a\";\n".toList) false)])])])],
    [['w']]⟩

/-- A build of ES modules into the directory behind the link. -/
def linkedConfig : Config := { Config.standard with format := .esm }

theorem fixModules_agrees_linked : ∃ report progress again after,
    fixModules linkedConfig.output linkedConfig.options (.start linkedTree) = (.ok report, progress) ∧
    fixModules linkedConfig.output linkedConfig.options (.start
      (relinkModules linkedConfig.options linkedConfig.output linkedTree [.ofString "index.mjs"]).files) =
        (.ok again, after) ∧
    ⟨.ofString "index.mjs", .relinked 1⟩ ∈ report.modules ∧ ⟨.ofString "index.mjs", .unchanged⟩ ∈ again.modules ∧
    progress.tree.readText (.ofString "build/index.mjs") = .ok "import \"./a.mjs\";\n".toList := by
  have output : linkedTree.HoldsText linkedConfig.output := by
    constructor
    · have is : (linkedTree.node? linkedConfig.output).any (fun node => node.isDirectory && node.isPlain) = true := by
        decide +kernel
      obtain ⟨node, found, shape⟩ := (Option.any_eq_true _ _).mp is
      exact ⟨node, found, Bool.and_eq_true_iff.mp shape⟩
    · have files : linkedTree.filesBelow linkedConfig.output =
          [.ofString "a.mjs", .ofString "copied.mjs", .ofString "index.mjs"] := by decide +kernel
      rw [files]
      simp only [List.forall_mem_cons, List.not_mem_nil, false_imp_iff, implies_true, and_true]
      exact ⟨⟨"x = (;\n".toList, by decide +kernel⟩, ⟨"import \"./a\";\n".toList, by decide +kernel⟩,
        ⟨"import \"./a\";\n".toList, by decide +kernel⟩⟩
  have emitted : (linkedConfig.job [.ofString "index.ts"]).emitted = [.ofString "index.mjs"] := by decide +kernel
  have agrees := fixModules_agrees linkedConfig linkedTree [.ofString "index.ts"] output
    (fun entry member => ⟨["index.ts".toList], ⟨by decide, by decide +kernel⟩, List.mem_singleton.mp member⟩)
    (by decide +kernel) (by decide +kernel)
  rw [emitted] at agrees
  obtain ⟨report, progress, again, after, fixed, fixedAgain, -, each⟩ := agrees
  have isReport : ⟨.ofString "index.mjs", .relinked 1⟩ ∈
      (relinkModules linkedConfig.options linkedConfig.output linkedTree [.ofString "index.mjs"]).result := by
    decide +kernel
  obtain ⟨-, reported, -, settled, text, isText, isFixed, -⟩ := each _ isReport
  have written : (relinkModules linkedConfig.options linkedConfig.output linkedTree
      [.ofString "index.mjs"]).files.readText (.ofString "build/index.mjs") =
        .ok "import \"./a.mjs\";\n".toList := by decide +kernel
  refine ⟨report, progress, again, after, fixed, fixedAgain, reported, settled.resolve_left ?_,
    isFixed.trans (isText.symm.trans written)⟩
  rintro ⟨fault, failed, -⟩
  cases failed

end Build

end Relink
