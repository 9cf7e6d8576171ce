import Relink.Resolution

/-!
# Replaced specifiers

A specifier is replaced by itself with more behind it: an extension, or the index of the directory that
it names. What it is replaced by names a file, is local as it was, and is never replaced again.
-/

set_option autoImplicit false

namespace Relink

/-! ## Suffixes -/

namespace Specifier

/-- The final part of a specifier for the index of a directory. -/
def indexName (extension : Text) : Text := withExtension "index".toList extension

/-- What a specifier may get when it is replaced. The slash of an index is there already if it ends
with one, and where it can only name a directory no extension is put behind it. -/
def suffixes (extension specifier : Text) : List Text :=
  if specifier.getLast? = some '/' then [indexName extension]
  else if namesDirectory specifier then ['/' :: indexName extension]
  else ['.' :: extension, '/' :: indexName extension]

theorem suffix_cases {extension specifier suffix : Text}
    (isSuffix : suffix ∈ suffixes extension specifier) :
    suffix = '.' :: extension ∨ suffix = indexName extension ∨
      suffix = '/' :: indexName extension := by
  unfold suffixes at isSuffix
  split at isSuffix
  · exact .inr (.inl (List.mem_singleton.mp isSuffix))
  split at isSuffix
  · exact .inr (.inr (List.mem_singleton.mp isSuffix))
  · rcases List.mem_cons.mp isSuffix with own | index
    · exact .inl own
    · exact .inr (.inr (List.mem_singleton.mp index))

theorem suffix_ne_nil {extension specifier suffix : Text}
    (isSuffix : suffix ∈ suffixes extension specifier) : suffix ≠ [] := by
  rcases suffix_cases isSuffix with rfl | rfl | rfl <;> simp [indexName, withExtension]

theorem ne_nil_of_isLocal {specifier : Text} (local_ : isLocal specifier = true) :
    specifier ≠ [] := by
  rintro rfl
  cases local_

theorem indexOf_eq (extension specifier : Text) :
    indexOf specifier extension =
      specifier ++ (if specifier.getLast? = some '/' then indexName extension
        else '/' :: indexName extension) := by
  unfold indexOf directoryBase indexName withExtension
  by_cases slash : specifier.getLast? = some '/'
  · obtain ⟨front, rfl⟩ := List.getLast?_eq_some_iff.mp slash
    simp
  · simp [slash]

theorem hasExtension_append {extension specifier suffix : Text}
    (isSuffix : suffix ∈ suffixes extension specifier) :
    hasExtension (specifier ++ suffix) extension = true := by
  have ends : ∃ front, suffix = front ++ '.' :: extension := by
    rcases suffix_cases isSuffix with own | index | directory
    · exact ⟨[], own⟩
    · exact ⟨"index".toList, index⟩
    · exact ⟨"/index".toList, directory⟩
  obtain ⟨front, rfl⟩ := ends
  rw [hasExtension, List.isSuffixOf_iff_suffix]
  exact ⟨specifier ++ front, by simp⟩

theorem isLocal_append {extension specifier suffix : Text} (local_ : isLocal specifier = true)
    (isSuffix : suffix ∈ suffixes extension specifier) :
    isLocal (specifier ++ suffix) = true := by
  simp only [isLocal, Bool.or_eq_true, beq_iff_eq, List.isPrefixOf_iff_prefix] at local_ ⊢
  rcases local_ with ((below | above) | current) | parent
  · exact .inl (.inl (.inl (below.trans (List.prefix_append ..))))
  · exact .inl (.inl (.inr (above.trans (List.prefix_append ..))))
  · subst current
    have index : suffix = '/' :: indexName extension := List.mem_singleton.mp isSuffix
    exact .inl (.inl (.inl ⟨indexName extension, by rw [index]; rfl⟩))
  · subst parent
    have index : suffix = '/' :: indexName extension := List.mem_singleton.mp isSuffix
    exact .inl (.inl (.inr ⟨indexName extension, by rw [index]; rfl⟩))

end Specifier

/-! ## Targets -/

theorem firstTarget_found {isFile : Path → Bool} {directory : Path} {targets : List Text}
    {target : Text} (found : (firstTarget isFile directory targets).value = some target) :
    target ∈ targets ∧ isFile (directory.follow target) = true := by
  induction targets with
  | nil => cases found
  | cons first rest ih =>
      simp only [firstTarget] at found
      split at found
      · rename_i exists_
        cases found
        exact ⟨List.mem_cons_self .., exists_⟩
      · obtain ⟨member, exists_⟩ := ih found
        exact ⟨List.mem_cons_of_mem _ member, exists_⟩

/-- Every target of a candidate that replaces a specifier extends it. -/
theorem Candidate.target_suffix {options : Options} {specifier target : Text} {candidate : Candidate}
    (replaces : candidate ≠ .sourceIndex) (member : target ∈ candidate.targets options specifier) :
    ∃ suffix ∈ Specifier.suffixes options.extension.spelling specifier,
      target = specifier ++ suffix := by
  unfold Specifier.suffixes
  cases candidate with
  | sourceIndex => exact absurd rfl replaces
  | file =>
      simp only [Candidate.targets] at member
      by_cases directory : Specifier.namesDirectory specifier = true
      · simp [directory] at member
      · have noSlash : specifier.getLast? ≠ some '/' := by
          intro slash
          simp [Specifier.namesDirectory, slash] at directory
        simp only [directory, Bool.false_eq_true, if_false, List.mem_singleton] at member
        exact ⟨_, by simp [noSlash, directory], member⟩
  | directoryIndex =>
      rw [Candidate.targets, List.mem_singleton, Specifier.indexOf_eq] at member
      refine ⟨_, ?_, member⟩
      split
      · simp
      · split <;> simp

namespace Resolution

/-- What is known of a specifier that is replaced, and of the one in its place. -/
structure Replaces (isFile : Path → Bool) (options : Options) (directory : Path)
    (specifier replacement : Text) : Prop where
  isLocal : Specifier.isLocal specifier = true
  bare : Specifier.hasExtension specifier options.extension.spelling = false
  extends_ : ∃ suffix ∈ Specifier.suffixes options.extension.spelling specifier,
    replacement = specifier ++ suffix
  exists_ : isFile (directory.follow replacement) = true

theorem ofCandidates_replaced {isFile : Path → Bool} {options : Options} {directory : Path}
    {specifier replacement : Text} {candidate : Candidate} {candidates : List Candidate}
    (found : (ofCandidates isFile options directory specifier candidates).value =
      .replaced replacement candidate) :
    candidate ≠ .sourceIndex ∧ replacement ∈ candidate.targets options specifier ∧
      isFile (directory.follow replacement) = true := by
  induction candidates with
  | nil => cases found
  | cons first rest ih =>
      simp only [ofCandidates] at found
      split at found
      · rename_i target tried
        cases found
        simp only [Candidate.lookup, Probed.map] at tried
        split at tried
        · rename_i isTarget
          obtain ⟨member, exists_⟩ := firstTarget_found isTarget
          cases candidate with
          | sourceIndex => cases tried
          | file | directoryIndex =>
              cases tried
              exact ⟨nofun, member, exists_⟩
        · cases tried
      · cases found
      · exact ih found

/-- Only a local specifier without the extension is replaced, and by a target that exists. -/
theorem ofSpecifier_replaced {isFile : Path → Bool} {options : Options} {directory : Path}
    {specifier replacement : Text} {candidate : Candidate}
    (found : (ofSpecifier isFile options directory specifier).value =
      .replaced replacement candidate) :
    Specifier.isLocal specifier = true ∧
      Specifier.hasExtension specifier options.extension.spelling = false ∧
      candidate ≠ .sourceIndex ∧ replacement ∈ candidate.targets options specifier ∧
      isFile (directory.follow replacement) = true := by
  unfold ofSpecifier at found
  split at found
  · cases found
  rename_i isLocal
  split at found
  · cases found
  rename_i bare
  exact ⟨by simpa using isLocal, by simpa using bare, ofCandidates_replaced found⟩

theorem replaces_of_ofSpecifier {isFile : Path → Bool} {options : Options} {directory : Path}
    {specifier replacement : Text} {candidate : Candidate}
    (found : (ofSpecifier isFile options directory specifier).value =
      .replaced replacement candidate) :
    Replaces isFile options directory specifier replacement := by
  obtain ⟨isLocal, bare, replaces, member, exists_⟩ := ofSpecifier_replaced found
  exact ⟨isLocal, bare, Candidate.target_suffix replaces member, exists_⟩

theorem ofSpecifier_alreadyResolved {options : Options} {specifier : Text}
    (isLocal : Specifier.isLocal specifier = true)
    (extended : Specifier.hasExtension specifier options.extension.spelling = true)
    (isFile : Path → Bool) (directory : Path) :
    ofSpecifier isFile options directory specifier = .unasked .alreadyResolved := by
  simp only [ofSpecifier, isLocal, extended, Bool.not_true, Bool.false_eq_true, if_false, if_true]

/-- What a specifier is replaced by stays as it is, in whatever directory and whichever files there
are. -/
theorem Replaces.alreadyResolved {isFile : Path → Bool} {options : Options} {directory : Path}
    {specifier replacement : Text}
    (replaces : Replaces isFile options directory specifier replacement)
    (otherIsFile : Path → Bool) (otherDirectory : Path) :
    ofSpecifier otherIsFile options otherDirectory replacement = .unasked .alreadyResolved := by
  obtain ⟨suffix, isSuffix, rfl⟩ := replaces.extends_
  exact ofSpecifier_alreadyResolved (Specifier.isLocal_append replaces.isLocal isSuffix)
    (Specifier.hasExtension_append isSuffix) otherIsFile otherDirectory

end Resolution

/-! ## Directories that lead to the same files -/

section Directories

variable {isFile : Path → Bool} {left right : Path}
  (alike : ∀ specifier, isFile (left.follow specifier) = isFile (right.follow specifier))

include alike

theorem firstTarget_congr (targets : List Text) :
    (firstTarget isFile left targets).value = (firstTarget isFile right targets).value := by
  induction targets with
  | nil => rfl
  | cons target rest ih =>
      simp only [firstTarget, alike target]
      split
      · rfl
      · exact ih

theorem Candidate.lookup_congr (options : Options) (specifier : Text) (candidate : Candidate) :
    (candidate.lookup isFile options left specifier).value =
      (candidate.lookup isFile options right specifier).value := by
  simp only [lookup, Probed.map, firstTarget_congr alike]

theorem Resolution.ofCandidates_congr (options : Options) (specifier : Text)
    (candidates : List Candidate) :
    (ofCandidates isFile options left specifier candidates).value =
      (ofCandidates isFile options right specifier candidates).value := by
  induction candidates with
  | nil => rfl
  | cons candidate rest ih =>
      simp only [ofCandidates, candidate.lookup_congr alike]
      split
      · rfl
      · rfl
      · exact ih

/-- How a specifier is resolved depends on nothing of a directory but the files that it leads to. -/
theorem Resolution.ofSpecifier_congr (options : Options) (specifier : Text) :
    (ofSpecifier isFile options left specifier).value =
      (ofSpecifier isFile options right specifier).value := by
  unfold ofSpecifier
  split
  · rfl
  split
  · rfl
  · exact ofCandidates_congr alike options specifier Candidate.order

end Directories

end Relink
