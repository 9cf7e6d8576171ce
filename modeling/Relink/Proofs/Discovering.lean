import Relink.Proofs.Build.Targets
import Relink.Proofs.FileTree.Sorted

/-!
# The order of discovered files

Discovery puts every regular file below a directory into one of two lists by nothing but its name, and each list is
in the order of the locations, which is that of the bytes of names. So neither list tells in which order directories
have their entries. Names need not be UTF-8: an extension that is none is not one of those asked for, and a stem that
is none is not one of a declaration file, whatever it ends in.
-/

set_option autoImplicit false

namespace Relink

/-! ## Kinds of names -/

namespace Build

/-- Whether a name has a stem that is as asked and, behind its last point, one of the endings. -/
def IsExtended (endings : List Text) (stemmed : Text → Prop) (name : Text) : Prop :=
  ∃ stem ending, name = stem ++ '.' :: ending ∧ stem ≠ [] ∧ '.' ∉ ending ∧
    (∃ chars ∈ endings, Octet.ReadsAs ending chars) ∧ stemmed stem

/-- Whether a stem passes for that of a declaration file. How it ends is looked at only where it is UTF-8. -/
def IsDeclarationStem (stem : Text) : Prop := ['.', 'd'] <:+ stem ∧ Octet.IsUnicode stem

/-- Whether a file of a name is compiled: its extension is one of those of sources, and it does not pass for a
declaration file. -/
def IsEntryName (extensions : List Text) : Text → Prop := IsExtended extensions fun stem => ¬ IsDeclarationStem stem

def IsModuleName (extension : ModuleExtension) : Text → Prop := IsExtended [extension.spelling] fun _ => True

/-- A name that is extended is split at its last point, and no other is. -/
theorem isExtended_iff {endings : List Text} {stemmed : Text → Prop} {name : Text} (named : name ≠ []) :
    IsExtended endings stemmed name ↔
      (∃ ending, (Path.splitName name).2 = some ending ∧ ∃ chars ∈ endings, Octet.ReadsAs ending chars) ∧
        stemmed (Path.splitName name).1 := by
  constructor
  · rintro ⟨stem, ending, rfl, hasStem, noPoint, listed, passes⟩
    rw [Path.splitName_extended hasStem noPoint]
    exact ⟨⟨ending, rfl, listed⟩, passes⟩
  · rintro ⟨⟨ending, extended, listed⟩, passes⟩
    exact ⟨_, ending, Path.eq_of_splitName (Prod.ext rfl extended), Path.stem_ne_nil named,
      Path.no_point_of_splitName extended, listed, passes⟩

section Location

variable {front : Location} {name : Text} (each : ∀ segment ∈ front ++ [name], Path.isName segment = true)

include each

theorem hasExtension_location (extensions : List Text) :
    hasExtension extensions (Location.path (front ++ [name])) = true ↔
      ∃ ending, (Path.splitName name).2 = some ending ∧ ∃ chars ∈ extensions, Octet.ReadsAs ending chars := by
  rw [hasExtension, Path.extension?_location each, Option.any_eq_true]
  simp only [Option.bind_eq_some_iff, Octet.unicode?_eq_some_iff, List.contains_iff_mem]
  constructor
  · intro ⟨chars, ⟨ending, extended, reads⟩, listed⟩
    exact ⟨ending, extended, chars, listed, reads⟩
  · intro ⟨ending, extended, chars, listed, reads⟩
    exact ⟨chars, ⟨ending, extended, reads⟩, listed⟩

theorem isDeclaration_location :
    isDeclaration (Location.path (front ++ [name])) = true ↔ IsDeclarationStem (Path.splitName name).1 := by
  have ascii : ∀ c ∈ ['.', 'd'], c.toNat < 0x80 :=
    List.forall_mem_cons.mpr ⟨by decide, List.forall_mem_singleton.mpr (by decide)⟩
  rw [isDeclaration, Path.stem?_location each, Option.bind_some, Option.any_eq_true]
  simp only [Octet.unicode?_eq_some_iff, Text.endsWith, List.isSuffixOf_iff_suffix]
  constructor
  · intro ⟨chars, reads, ends⟩
    exact ⟨(reads.suffix_iff ascii).mp ends, chars, reads⟩
  · intro ⟨ends, chars, reads⟩
    exact ⟨chars, reads, (reads.suffix_iff ascii).mpr ends⟩

theorem isEntryPoint_location (extensions : List Text) :
    isEntryPoint extensions (Location.path (front ++ [name])) = true ↔ IsEntryName extensions name := by
  have named : name ≠ [] := Path.isVoid_ne_nil (Path.isName_iff.mp (each name (by simp))).1
  rw [isEntryPoint, Bool.and_eq_true, Bool.not_eq_true', ← Bool.not_eq_true, hasExtension_location each,
    isDeclaration_location each, IsEntryName, isExtended_iff named]

theorem isModule_location (extension : ModuleExtension) :
    hasExtension [extension.spelling] (Location.path (front ++ [name])) = true ↔ IsModuleName extension name := by
  have named : name ≠ [] := Path.isVoid_ne_nil (Path.isName_iff.mp (each name (by simp))).1
  rw [hasExtension_location each, IsModuleName, isExtended_iff named, and_true]

end Location

end Build

/-! ## Lists of files -/

namespace Node

/-- Whether there is a regular file at a location whose last name is as asked. -/
def HasFile (node : Node) (named : Text → Prop) (location : Location) : Prop :=
  ∃ front name, location = front ++ [name] ∧ named name ∧
    ∃ content executable, node.get? location = some (.file content executable)

/-- Whether paths are those of the regular files below a directory whose names are as asked, each once and in the
order of their locations. -/
def Lists (node : Node) (named : Text → Prop) (paths : List Path) : Prop :=
  ∃ locations : List Location, paths = locations.map Location.path ∧ locations.Pairwise Location.Before ∧
    ∀ location, location ∈ locations ↔ node.HasFile named location

variable {node : Node} (isDirectory : node.isDirectory = true) (orderly : node.isOrderly = true)

include isDirectory orderly

/-- What is picked out of a listing by the names of the files is listed. -/
theorem lists_filter {passes : Path → Bool} {named : Text → Prop}
    (tells : ∀ {front : Location} {name : Text}, (∀ segment ∈ front ++ [name], Path.isName segment = true) →
      (passes (Location.path (front ++ [name])) = true ↔ named name)) :
    node.Lists named ((node.files.map Location.path).filter passes) := by
  refine ⟨node.files.filter (passes ∘ Location.path), List.filter_map, (files_sorted orderly).filter _,
    fun location => ?_⟩
  rw [List.mem_filter, Function.comp_apply]
  constructor
  · rintro ⟨listed, picked⟩
    have isFile := (mem_files orderly).mp listed
    have names := isName_of_mem_files orderly listed
    rcases List.eq_nil_or_concat' location with rfl | ⟨front, name, rfl⟩
    · obtain ⟨content, executable, is⟩ := isFile
      rw [get?_nil, Option.some.injEq] at is
      cases is
      cases isDirectory
    · exact ⟨front, name, rfl, (tells names).mp picked, isFile⟩
  · rintro ⟨front, name, rfl, isNamed, isFile⟩
    have listed := (mem_files orderly).mpr isFile
    exact ⟨listed, (tells (isName_of_mem_files orderly listed)).mpr isNamed⟩

end Node

namespace Build

variable {tree : FileTree} {directory : Path} {node : Node}

theorem discoverSources_at (is : tree.node? directory = some node) (isDirectory : node.isDirectory = true)
    (extensions : List Text) : discoverSources tree directory extensions =
      .ok (.ofFiles extensions (node.files.map Location.path)) := by
  have enters : tree.isDirectory directory = true := by rw [FileTree.isDirectory, is, Option.any_some, isDirectory]
  rw [discoverSources, if_pos enters, FileTree.filesBelow, is]

theorem discoverModules_at (is : tree.node? directory = some node) (isDirectory : node.isDirectory = true)
    (extension : ModuleExtension) : discoverModules tree directory extension =
      .ok ((node.files.map Location.path).filter (hasExtension [extension.spelling])) := by
  have enters : tree.isDirectory directory = true := by rw [FileTree.isDirectory, is, Option.any_some, isDirectory]
  rw [discoverModules, if_pos enters, FileTree.filesBelow, is]

/-- Every regular file below a directory is in one of the lists of discovery, once, and both lists are in the order of
the locations; so are modules. None of this changes with the orders in which directories have their entries. -/
theorem discovery_sorted (is : tree.node? directory = some node) (isDirectory : node.isDirectory = true)
    (orderly : node.isOrderly = true) :
    (∀ extensions, ∃ sources, discoverSources tree directory extensions = .ok sources ∧
      node.Lists (IsEntryName extensions) sources.entryPoints ∧
      node.Lists (fun name => ¬ IsEntryName extensions name) sources.assets ∧
      (sources.entryPoints ++ sources.assets).Nodup) ∧
    (∀ extension, ∃ modules, discoverModules tree directory extension = .ok modules ∧
      node.Lists (IsModuleName extension) modules ∧ modules.Nodup) ∧
    ∀ (other : FileTree) (place : Path) (rearranged : Node), other.node? place = some rearranged →
      node.Rearranged rearranged →
      (∀ extensions, discoverSources other place extensions = discoverSources tree directory extensions) ∧
      ∀ extension, discoverModules other place extension = discoverModules tree directory extension := by
  have distinct := Node.paths_nodup orderly
  refine ⟨fun extensions => ?sources, fun extension => ?modules, fun other place rearranged there same => ?orders⟩
  case sources =>
    refine ⟨_, discoverSources_at is isDirectory extensions, ?_, ?_, ?_⟩
    · exact Node.lists_filter isDirectory orderly fun each => isEntryPoint_location each extensions
    · refine Node.lists_filter isDirectory orderly fun each => ?_
      rw [Bool.not_eq_true', ← Bool.not_eq_true, isEntryPoint_location each]
    · exact ((List.filter_append_perm _ _).nodup_iff).mpr distinct
  case modules =>
    refine ⟨_, discoverModules_at is isDirectory extension, ?_, distinct.filter _⟩
    exact Node.lists_filter isDirectory orderly fun each => isModule_location each extension
  case orders =>
    have otherDirectory := same.isDirectory.trans isDirectory
    refine ⟨fun extensions => ?_, fun extension => ?_⟩
    · rw [discoverSources_at is isDirectory, discoverSources_at there otherDirectory, same.files orderly]
    · rw [discoverModules_at is isDirectory, discoverModules_at there otherDirectory, same.files orderly]

/-- A name that is spelled as that of a declaration file, but begins with a byte that is no UTF-8. -/
def strayName : Text := Octet.carrier 0xFF :: ".d.ts".toList

/-- A directory beside a file that begins with its name, a file that only begins with a point, one that ends in a
point, a declaration file, one that does not pass for such, and a link. -/
def mixedDirectory : Node := .directory [
  ("z.ts".toList, .file (.text []) false),
  ("a.ts".toList, .file (.text []) false),
  ("a".toList, .directory [("x.b.ts".toList, .file (.text []) false), ("x.d.ts".toList, .file (.text []) false)]),
  (".ts".toList, .file (.text []) false),
  ("c.".toList, .file (.text []) false),
  (strayName, .file (.text []) false),
  ("link.ts".toList, .link (.ofString "a.ts"))]

/-- The same with its entries in other orders. -/
def shuffledDirectory : Node := .directory [
  ("a".toList, .directory [("x.d.ts".toList, .file (.text []) false), ("x.b.ts".toList, .file (.text []) false)]),
  ("z.ts".toList, .file (.text []) false),
  ("a.ts".toList, .file (.text []) false),
  (".ts".toList, .file (.text []) false),
  ("c.".toList, .file (.text []) false),
  (strayName, .file (.text []) false),
  ("link.ts".toList, .link (.ofString "a.ts"))]

theorem mixedDirectory_rearranged : mixedDirectory.Rearranged shuffledDirectory :=
  .directory
    (.cons _ (.file _ _) <| .cons _ (.file _ _) <|
      .cons _ (.directory (.cons _ (.file _ _) <| .cons _ (.file _ _) .nil) (.swap _ _ _)) <|
      .cons _ (.file _ _) <| .cons _ (.file _ _) <| .cons _ (.file _ _) <| .cons _ (.link _) .nil)
    ((List.Perm.cons _ (.swap _ _ _)).trans (.swap _ _ _))

theorem discovery_sorted_mixed :
    (∃ sources, discoverSources ⟨.directory [("src".toList, mixedDirectory)], []⟩ (.ofString "src") ["ts".toList] =
        .ok sources ∧ mixedDirectory.Lists (IsEntryName ["ts".toList]) sources.entryPoints ∧
      sources = ⟨[.ofString "a/x.b.ts", .ofString "a.ts", .ofString "z.ts", ⟨strayName⟩],
        [.ofString ".ts", .ofString "a/x.d.ts", .ofString "c."]⟩) ∧
    discoverSources ⟨.directory [("src".toList, shuffledDirectory)], []⟩ (.ofString "src") ["ts".toList] =
      discoverSources ⟨.directory [("src".toList, mixedDirectory)], []⟩ (.ofString "src") ["ts".toList] := by
  have result := @discovery_sorted ⟨.directory [("src".toList, mixedDirectory)], []⟩ (.ofString "src") mixedDirectory
    rfl rfl (by decide)
  obtain ⟨sources, ok, entries, -, -⟩ := result.1 ["ts".toList]
  have isListing : discoverSources ⟨.directory [("src".toList, mixedDirectory)], []⟩ (.ofString "src") ["ts".toList] =
      .ok ⟨[.ofString "a/x.b.ts", .ofString "a.ts", .ofString "z.ts", ⟨strayName⟩],
        [.ofString ".ts", .ofString "a/x.d.ts", .ofString "c."]⟩ := by decide +kernel
  exact ⟨⟨sources, ok, entries, Except.ok.inj (ok.symm.trans isListing)⟩,
    (result.2.2 _ _ shuffledDirectory rfl mixedDirectory_rearranged).1 _⟩

end Build

end Relink
