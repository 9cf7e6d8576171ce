import Relink.Proofs.Path.Following
import Relink.Proofs.Resolution

/-!
# What a replaced specifier names

What stands behind a replaced specifier is put behind what it names: the index of its directory, or an
extension behind the last name. The one exception is a specifier that leads on to `.` or `..`, which is
taken for the name of a file.
-/

set_option autoImplicit false

namespace Relink

open Text

/-! ## One name further -/

namespace Path

theorem components_follow_name {name : Text} (named : descends name = true) (plain : '/' ∉ name)
    (directory : Path) : (directory.follow name).components = directory.components ++ [.name name] := by
  rw [components_follow, splitOn_of_not_mem plain, List.foldl_cons, List.foldl_nil, advance_name named]

/-- A final slash leads nowhere. -/
theorem components_follow_slash (directory : Path) (front : Text) :
    (directory.follow (front ++ ['/'])).components = (directory.follow front).components := by
  rw [components_follow_append, components_follow]
  exact advance_void (show isVoid [] = true from rfl) _

end Path

namespace Specifier

open Relink.Path

/-- Whether a specifier leads on to `.` or `..` at its end. -/
def endsInPoints (specifier : Text) : Bool :=
  "/.".toList.isSuffixOf specifier || "/..".toList.isSuffixOf specifier

theorem exists_last {specifier : Text} (slash : '/' ∈ specifier) :
    ∃ front last, specifier = front ++ '/' :: last ∧ '/' ∉ last := by
  obtain ⟨last, front, reversed, plain⟩ :=
    List.eq_append_cons_of_mem (List.mem_reverse.mpr slash)
  refine ⟨front.reverse, last.reverse, ?_, fun member => plain (List.mem_reverse.mp member)⟩
  simpa using congrArg List.reverse reversed

theorem slash_mem_of_isLocal {specifier : Text} (isLocal : isLocal specifier = true)
    (file : namesDirectory specifier = false) : '/' ∈ specifier := by
  simp only [Specifier.isLocal, Bool.or_eq_true, beq_iff_eq, List.isPrefixOf_iff_prefix] at isLocal
  simp only [namesDirectory, Bool.or_eq_false_iff, beq_eq_false_iff_ne] at file
  rcases isLocal with ((below | above) | current) | parent
  · exact below.subset (by decide)
  · exact above.subset (by decide)
  · exact absurd current file.1.2
  · exact absurd parent file.2

/-- A specifier that may name a file ends in a name, unless it leads on to `.` or `..`. -/
theorem descends_last {front last : Text} (file : namesDirectory (front ++ '/' :: last) = false)
    (named : endsInPoints (front ++ '/' :: last) = false) : descends last = true := by
  simp only [endsInPoints, Bool.or_eq_false_iff] at named
  have nonempty : last ≠ [] := by
    rintro rfl
    simp [namesDirectory] at file
  have noCurrent : last ≠ currentSegment := by
    rintro rfl
    have suffix : "/.".toList <:+ front ++ '/' :: currentSegment := ⟨front, rfl⟩
    rw [List.isSuffixOf_iff_suffix.mpr suffix] at named
    cases named.1
  have noParent : last ≠ parentSegment := by
    rintro rfl
    have suffix : "/..".toList <:+ front ++ '/' :: parentSegment := ⟨front, rfl⟩
    rw [List.isSuffixOf_iff_suffix.mpr suffix] at named
    cases named.2
  simp [descends, isVoid, nonempty, noCurrent, noParent]

/-! ## Extensions are names -/

theorem extension_plain (extension : ModuleExtension) : '/' ∉ extension.spelling := by
  cases extension <;> decide

theorem descends_withExtension (stem : Text) (extension : ModuleExtension) :
    descends (withExtension stem extension.spelling) = true := by
  have long : 3 ≤ (withExtension stem extension.spelling).length := by
    cases extension <;> simp [withExtension, ModuleExtension.spelling]
  have other : ∀ segment : Text, segment.length < 3 → withExtension stem extension.spelling ≠ segment := by
    rintro segment short rfl
    omega
  simp [descends, isVoid, other [] (by decide), other currentSegment (by decide),
    other parentSegment (by decide)]

theorem withExtension_plain {stem : Text} (plain : '/' ∉ stem) (extension : ModuleExtension) :
    '/' ∉ withExtension stem extension.spelling := by
  rw [withExtension, List.mem_append, List.mem_cons]
  rintro (inStem | isPoint | inExtension)
  · exact plain inStem
  · cases isPoint
  · exact extension_plain extension inExtension

/-! ## Where replaced specifiers lead -/

/-- The index of the directory that a specifier names is in that directory. -/
theorem components_indexOf (directory : Path) (specifier : Text) (extension : ModuleExtension) :
    (directory.follow (indexOf specifier extension.spelling)).components =
      (directory.follow specifier).components ++ [.name (indexName extension.spelling)] := by
  have named : descends (indexName extension.spelling) = true := descends_withExtension _ extension
  have plain : '/' ∉ indexName extension.spelling := withExtension_plain (by decide) extension
  rw [indexOf_eq]
  by_cases slash : specifier.getLast? = some '/'
  · obtain ⟨front, rfl⟩ := List.getLast?_eq_some_iff.mp slash
    rw [if_pos slash, List.append_assoc, List.singleton_append, components_follow_append,
      components_follow_name named plain, components_follow_slash]
  · rw [if_neg slash, components_follow_append, components_follow_name named plain]

/-- An extension behind a specifier is an extension behind its last segment. -/
theorem components_withExtension {last : Text} (plain : '/' ∉ last) (directory : Path) (front : Text)
    (extension : ModuleExtension) :
    (directory.follow (withExtension (front ++ '/' :: last) extension.spelling)).components =
      (directory.follow front).components ++ [.name (withExtension last extension.spelling)] := by
  have whole : withExtension (front ++ '/' :: last) extension.spelling =
      front ++ '/' :: withExtension last extension.spelling := by simp [withExtension]
  rw [whole, components_follow_append,
    components_follow_name (descends_withExtension last extension) (withExtension_plain plain extension)]

end Specifier

namespace Resolution

open Relink.Path Relink.Specifier

/-- A specifier replaced by an index names the directory of that index. One that gets an extension gets it
behind its last segment, which is the name of a file unless the specifier leads on to `.` or `..` there;
then it names that file without the extension, and its last segment is not void nor `..`. -/
theorem ofSpecifier_names {isFile : Path → Bool} {options : Options} {directory : Path}
    {specifier replacement : Text} {candidate : Candidate}
    (replaced : (ofSpecifier isFile options directory specifier).value = .replaced replacement candidate) :
    (candidate = .directoryIndex → (directory.follow replacement).components =
      (directory.follow specifier).components ++ [.name (indexName options.extension.spelling)]) ∧
    (candidate = .file → endsInPoints specifier = false →
      (∀ last, (splitOn '/' specifier).getLast? = some last → descends last = true) ∧
      ∃ front last, (directory.follow specifier).components = front ++ [.name last] ∧
        (directory.follow replacement).components =
          front ++ [.name (last ++ '.' :: options.extension.spelling)]) := by
  obtain ⟨isLocal, -, -, member, -⟩ := ofSpecifier_replaced replaced
  constructor
  · rintro rfl
    rw [Candidate.targets, List.mem_singleton] at member
    rw [member, components_indexOf]
  · rintro rfl named
    cases file : namesDirectory specifier with
    | true => simp [Candidate.targets, file] at member
    | false =>
        simp only [Candidate.targets, file, Bool.false_eq_true, if_false, List.mem_singleton] at member
        obtain ⟨front, last, rfl, plain⟩ := exists_last (slash_mem_of_isLocal isLocal file)
        have isName : descends last = true := descends_last file named
        constructor
        · intro final isFinal
          rw [splitOn_append, splitOn_of_not_mem plain, List.getLast?_concat, Option.some.injEq] at isFinal
          rw [← isFinal]
          exact isName
        · refine ⟨(directory.follow front).components, last, ?_, ?_⟩
          · rw [components_follow_append, components_follow_name isName plain]
          · rw [member, components_withExtension plain, Specifier.withExtension]

/-- Above a directory of that name, `../lib` gets an extension; its index is named when there is no such
file. -/
theorem ofSpecifier_names_above :
    let isFile : Path → Bool := fun path => path.spelling == "out/lib.mjs".toList
    let isIndex : Path → Bool := fun path => path.spelling == "out/lib/index.mjs".toList
    let options := Options.standard .mjs
    ((ofSpecifier isFile options ⟨"out/a".toList⟩ "../lib".toList).value =
        .replaced "../lib.mjs".toList .file ∧ endsInPoints "../lib".toList = false ∧
      ∃ front last, (Path.follow ⟨"out/a".toList⟩ "../lib".toList).components = front ++ [.name last] ∧
        (Path.follow ⟨"out/a".toList⟩ "../lib.mjs".toList).components =
          front ++ [.name (last ++ '.' :: options.extension.spelling)]) ∧
    ((ofSpecifier isIndex options ⟨"out/a".toList⟩ "../lib".toList).value =
        .replaced "../lib/index.mjs".toList .directoryIndex ∧
      (Path.follow ⟨"out/a".toList⟩ "../lib/index.mjs".toList).components =
        (Path.follow ⟨"out/a".toList⟩ "../lib".toList).components ++
          [.name (indexName options.extension.spelling)]) := by
  intro isFile isIndex options
  have file : (ofSpecifier isFile options ⟨"out/a".toList⟩ "../lib".toList).value =
      .replaced "../lib.mjs".toList .file := by decide
  have index : (ofSpecifier isIndex options ⟨"out/a".toList⟩ "../lib".toList).value =
      .replaced "../lib/index.mjs".toList .directoryIndex := by decide
  have named : endsInPoints "../lib".toList = false := by decide
  exact ⟨⟨file, named, ((ofSpecifier_names file).2 rfl named).2⟩, ⟨index, (ofSpecifier_names index).1 rfl⟩⟩

/-- A specifier that leads back to the directory of its module is taken for the name of a file elsewhere. -/
example :
    let isFile : Path → Bool := fun path => path.spelling == "out/a/...mjs".toList
    (ofSpecifier isFile (Options.standard .mjs) ⟨"out".toList⟩ "./a/..".toList).value =
        .replaced "./a/...mjs".toList .file ∧
      (Path.follow ⟨"out".toList⟩ "./a/..".toList).components = [.name "out".toList] := by
  decide

end Resolution

end Relink
