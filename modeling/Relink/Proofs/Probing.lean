import Relink.Proofs.Resolution

/-!
# Which paths are asked for

A resolution is a search for the first path that exists among those that a specifier may stand for, in a
fixed order. It asks for that path and for those before it, and for none when the form of the specifier
decides.
-/

set_option autoImplicit false

namespace Relink

/-! ## What is tried -/

/-- A specifier that is tried, and what becomes of the one it is tried for if it names a file. -/
structure Attempt where
  target : Text
  outcome : Resolution

namespace Specifier

/-- Whether a specifier begins at the directory of its module or the one above. -/
def IsRelative (specifier : Text) : Prop :=
  specifier = ['.'] ∨ specifier = ['.', '.'] ∨ ['.', '/'] <+: specifier ∨ ['.', '.', '/'] <+: specifier

theorem isLocal_iff {specifier : Text} : isLocal specifier = true ↔ IsRelative specifier := by
  simp only [isLocal, IsRelative, Bool.or_eq_true, beq_iff_eq, List.isPrefixOf_iff_prefix]
  constructor
  · rintro (((below | above) | current) | parent)
    · exact .inr (.inr (.inl below))
    · exact .inr (.inr (.inr above))
    · exact .inl current
    · exact .inr (.inl parent)
  · rintro (current | parent | below | above)
    · exact .inl (.inr current)
    · exact .inr parent
    · exact .inl (.inl (.inl below))
    · exact .inl (.inl (.inr above))

/-- All that is tried for a specifier, in order: its own file, the index of its directory, and an index with
each of the extensions of sources. The directory is the specifier less one final slash. -/
def attempts (options : Options) (specifier : Text) : List Attempt :=
  let directory := if specifier.getLast? = some '/' then specifier.dropLast else specifier
  let file := specifier ++ '.' :: options.extension.spelling
  let index := directory ++ "/index.".toList ++ options.extension.spelling
  (if specifier = ['.'] ∨ specifier = ['.', '.'] ∨ specifier.getLast? = some '/' then []
    else [⟨file, .replaced file .file⟩]) ++
  ⟨index, .replaced index .directoryIndex⟩ ::
  options.sourceExtensions.map fun extension =>
    ⟨directory ++ "/index.".toList ++ extension, .keptSourceIndex⟩

end Specifier

namespace Candidate

/-- What becomes of a specifier when a candidate's target is found. -/
def outcome (candidate : Candidate) (target : Text) : Resolution :=
  match candidate with
  | .sourceIndex => .keptSourceIndex
  | _ => .replaced target candidate

def attempts (options : Options) (specifier : Text) (candidate : Candidate) : List Attempt :=
  (candidate.targets options specifier).map fun target => ⟨target, candidate.outcome target⟩

theorem flatMap_attempts (options : Options) (specifier : Text) :
    order.flatMap (attempts options specifier) = Specifier.attempts options specifier := by
  have index : Specifier.indexOf specifier = fun extension =>
      (if specifier.getLast? = some '/' then specifier.dropLast else specifier) ++ "/index.".toList ++
        extension := by
    funext extension
    simp [Specifier.indexOf, Specifier.withExtension, Specifier.directoryBase]
  have directory : Specifier.namesDirectory specifier = true ↔
      specifier = ['.'] ∨ specifier = ['.', '.'] ∨ specifier.getLast? = some '/' := by
    simp only [Specifier.namesDirectory, Bool.or_eq_true, beq_iff_eq, Path.currentSegment,
      Path.parentSegment]
    constructor
    · rintro ((slash | current) | parent)
      · exact .inr (.inr slash)
      · exact .inl current
      · exact .inr (.inl parent)
    · rintro (current | parent | slash)
      · exact .inl (.inr current)
      · exact .inr parent
      · exact .inl (.inl slash)
  simp only [order, List.flatMap_cons, List.flatMap_nil, List.append_nil, attempts, targets, index,
    Specifier.attempts, ← directory, Specifier.withExtension]
  split <;> simp [outcome, Function.comp_def]

end Candidate

/-! ## The first that exists -/

/-- What a search along attempts finds: the outcome of the first one that names a file, with that one and
those before it asked for, or none after all of them. -/
def Answers (isFile : Path → Bool) (directory : Path) (attempts : List Attempt)
    (probed : Probed Resolution) : Prop :=
  (∃ front hit back, attempts = front ++ hit :: back ∧
    (∀ attempt ∈ front, isFile (directory.follow attempt.target) = false) ∧
    isFile (directory.follow hit.target) = true ∧
    probed = ⟨hit.outcome, (front ++ [hit]).map fun attempt => directory.follow attempt.target⟩) ∨
  ((∀ attempt ∈ attempts, isFile (directory.follow attempt.target) = false) ∧
    probed = ⟨.unresolved, attempts.map fun attempt => directory.follow attempt.target⟩)

section Search

variable {isFile : Path → Bool} {directory : Path}

/-- Attempts in vain are asked for before all others. -/
theorem Answers.after {attempts : List Attempt} {probed : Probed Resolution}
    (answers : Answers isFile directory attempts probed) {missed : List Attempt}
    (missing : ∀ attempt ∈ missed, isFile (directory.follow attempt.target) = false) :
    Answers isFile directory (missed ++ attempts)
      (probed.after (missed.map fun attempt => directory.follow attempt.target)) := by
  rcases answers with ⟨front, hit, back, rfl, frontMissing, exists_, rfl⟩ | ⟨allMissing, rfl⟩
  · refine .inl ⟨missed ++ front, hit, back, by simp, ?_, exists_, by simp [Probed.after]⟩
    intro attempt member
    exact (List.mem_append.mp member).elim (missing attempt) (frontMissing attempt)
  · refine .inr ⟨?_, by simp [Probed.after]⟩
    intro attempt member
    exact (List.mem_append.mp member).elim (missing attempt) (allMissing attempt)

theorem firstTarget_cases (isFile : Path → Bool) (directory : Path) (targets : List Text) :
    (∃ front hit back, targets = front ++ hit :: back ∧
      (∀ target ∈ front, isFile (directory.follow target) = false) ∧
      isFile (directory.follow hit) = true ∧
      firstTarget isFile directory targets = ⟨some hit, (front ++ [hit]).map directory.follow⟩) ∨
    ((∀ target ∈ targets, isFile (directory.follow target) = false) ∧
      firstTarget isFile directory targets = ⟨none, targets.map directory.follow⟩) := by
  induction targets with
  | nil => exact .inr ⟨fun _ member => absurd member List.not_mem_nil, rfl⟩
  | cons target rest ih =>
      cases exists_ : isFile (directory.follow target) with
      | true =>
          refine .inl ⟨[], target, rest, rfl, fun _ member => absurd member List.not_mem_nil, exists_, ?_⟩
          simp [firstTarget, exists_]
      | false =>
          have first : firstTarget isFile directory (target :: rest) =
              (firstTarget isFile directory rest).after [directory.follow target] := by
            simp [firstTarget, exists_]
          rw [first]
          rcases ih with ⟨front, hit, back, rfl, missing, found, run⟩ | ⟨missing, run⟩
          · refine .inl ⟨target :: front, hit, back, rfl, ?_, found, by rw [run]; rfl⟩
            exact List.forall_mem_cons.mpr ⟨exists_, missing⟩
          · exact .inr ⟨List.forall_mem_cons.mpr ⟨exists_, missing⟩, by rw [run]; rfl⟩

namespace Resolution

theorem ofCandidates_answers (options : Options) (specifier : Text) (candidates : List Candidate) :
    Answers isFile directory (candidates.flatMap (Candidate.attempts options specifier))
      (ofCandidates isFile options directory specifier candidates) := by
  induction candidates with
  | nil => exact .inr ⟨fun _ member => absurd member List.not_mem_nil, rfl⟩
  | cons candidate rest ih =>
      rw [List.flatMap_cons]
      -- A candidate that finds a file ends the search; one that does not adds its attempts to it.
      rcases firstTarget_cases isFile directory (candidate.targets options specifier) with
        ⟨front, hit, back, split_, missing, found, run⟩ | ⟨missing, run⟩
      · have tried : ofCandidates isFile options directory specifier (candidate :: rest) =
            ⟨candidate.outcome hit, (front ++ [hit]).map directory.follow⟩ := by
          cases candidate <;>
            simp [ofCandidates, Candidate.lookup, run, Probed.map, Candidate.found, Candidate.outcome]
        let attempt (target : Text) : Attempt := ⟨target, candidate.outcome target⟩
        refine .inl ⟨front.map attempt, attempt hit,
          back.map attempt ++ rest.flatMap (Candidate.attempts options specifier), ?_, ?_, found, ?_⟩
        · rw [Candidate.attempts, split_]
          simp [attempt]
        · intro tried member
          obtain ⟨target, isTarget, rfl⟩ := List.mem_map.mp member
          exact missing target isTarget
        · rw [tried]
          simp [attempt]
      · have tried : ofCandidates isFile options directory specifier (candidate :: rest) =
            (ofCandidates isFile options directory specifier rest).after
              ((candidate.attempts options specifier).map fun attempt => directory.follow attempt.target) := by
          simp [ofCandidates, Candidate.lookup, run, Probed.map, Candidate.attempts, Function.comp_def]
        rw [tried]
        refine ih.after fun attempt member => ?_
        obtain ⟨target, isTarget, rfl⟩ := List.mem_map.mp member
        exact missing target isTarget

end Resolution

end Search

/-! ## Resolution as a search -/

namespace Resolution

open Specifier

/-- A specifier that does not begin at a directory, or that has the extension, is left as it is without
asking for any path. Every other is searched for. What replaces one is longer, begins with it and at its
directory, and is itself left as it is in all directories and whichever files there are. -/
theorem ofSpecifier_searches (isFile : Path → Bool) (options : Options) (directory : Path)
    (specifier : Text) :
    (¬ IsRelative specifier → ofSpecifier isFile options directory specifier = .unasked .nonLocal) ∧
    (IsRelative specifier → '.' :: options.extension.spelling <:+ specifier →
      ofSpecifier isFile options directory specifier = .unasked .alreadyResolved) ∧
    (IsRelative specifier → ¬ '.' :: options.extension.spelling <:+ specifier →
      Answers isFile directory (attempts options specifier)
        (ofSpecifier isFile options directory specifier)) ∧
    (∀ replacement candidate,
      (ofSpecifier isFile options directory specifier).value = .replaced replacement candidate →
      specifier <+: replacement ∧ specifier.length < replacement.length ∧ IsRelative replacement ∧
      ∀ (otherIsFile : Path → Bool) (otherOptions : Options) (otherDirectory : Path),
        otherOptions.extension = options.extension →
        ofSpecifier otherIsFile otherOptions otherDirectory replacement = .unasked .alreadyResolved) := by
  refine ⟨fun elsewhere => ?_, fun relative extended => ?_, fun relative bare => ?_, ?_⟩
  · have noLocal : isLocal specifier = false := by
      rw [← Bool.not_eq_true, isLocal_iff]
      exact elsewhere
    simp [ofSpecifier, noLocal]
  · exact ofSpecifier_alreadyResolved (isLocal_iff.mpr relative) (List.isSuffixOf_iff_suffix.mpr extended)
      isFile directory
  · have isBare : hasExtension specifier options.extension.spelling = false := by
      rw [← Bool.not_eq_true, hasExtension, List.isSuffixOf_iff_suffix]
      exact bare
    simp only [ofSpecifier, isLocal_iff.mpr relative, isBare, Bool.not_true, Bool.false_eq_true, if_false]
    rw [← Candidate.flatMap_attempts]
    exact ofCandidates_answers options specifier Candidate.order
  · intro replacement candidate replaced
    obtain ⟨isLocal, -, ⟨suffix, isSuffix, rfl⟩, -⟩ := replaces_of_ofSpecifier replaced
    have relative := isLocal_append isLocal isSuffix
    refine ⟨List.prefix_append .., ?_, isLocal_iff.mp relative, ?_⟩
    · have longer := List.length_pos_iff.mpr (suffix_ne_nil isSuffix)
      rw [List.length_append]
      omega
    · intro otherIsFile otherOptions otherDirectory same
      refine ofSpecifier_alreadyResolved relative ?_ otherIsFile otherDirectory
      rw [same]
      exact hasExtension_append isSuffix

/-- The index of `./d` is found behind the file that is not there. -/
theorem ofSpecifier_searches_directory :
    let isFile : Path → Bool := fun path => path.spelling == "out/d/index.mjs".toList
    let options := Options.standard .mjs
    (¬ IsRelative ['p'] ∧ ofSpecifier isFile options ⟨"out".toList⟩ ['p'] = .unasked .nonLocal) ∧
    (IsRelative "./x.mjs".toList ∧ '.' :: options.extension.spelling <:+ "./x.mjs".toList ∧
      ofSpecifier isFile options ⟨"out".toList⟩ "./x.mjs".toList = .unasked .alreadyResolved) ∧
    (IsRelative "./d".toList ∧ ¬ '.' :: options.extension.spelling <:+ "./d".toList ∧
      Answers isFile ⟨"out".toList⟩ (attempts options "./d".toList)
        (ofSpecifier isFile options ⟨"out".toList⟩ "./d".toList)) ∧
    (ofSpecifier isFile options ⟨"out".toList⟩ "./d".toList).value =
      .replaced "./d/index.mjs".toList .directoryIndex ∧
    "./d".toList <+: "./d/index.mjs".toList ∧ "./d".toList.length < "./d/index.mjs".toList.length ∧
    IsRelative "./d/index.mjs".toList ∧
    ((Options.standard .mjs).withSourceExtensions []).extension = options.extension ∧
    ofSpecifier (fun _ => true) ((Options.standard .mjs).withSourceExtensions []) ⟨"/".toList⟩
      "./d/index.mjs".toList = .unasked .alreadyResolved := by
  intro isFile options
  have elsewhere : ¬ IsRelative ['p'] := by
    unfold IsRelative
    decide
  have relative : ∀ rest : Text, IsRelative ('.' :: '/' :: rest) := fun rest => .inr (.inr (.inl ⟨rest, rfl⟩))
  have extended : '.' :: options.extension.spelling <:+ "./x.mjs".toList := ⟨"./x".toList, rfl⟩
  have bare : ¬ '.' :: options.extension.spelling <:+ "./d".toList := by decide
  have replaced : (ofSpecifier isFile options ⟨"out".toList⟩ "./d".toList).value =
      .replaced "./d/index.mjs".toList .directoryIndex := by decide
  obtain ⟨-, -, search, replacement⟩ := ofSpecifier_searches isFile options ⟨"out".toList⟩ "./d".toList
  obtain ⟨within, longer, relative', resolved⟩ := replacement _ _ replaced
  exact ⟨⟨elsewhere, (ofSpecifier_searches isFile options _ _).1 elsewhere⟩,
    ⟨relative _, extended, (ofSpecifier_searches isFile options _ _).2.1 (relative _) extended⟩,
    ⟨relative _, bare, search (relative _) bare⟩, replaced, within, longer, relative', rfl,
    resolved _ _ _ rfl⟩

end Resolution

end Relink
