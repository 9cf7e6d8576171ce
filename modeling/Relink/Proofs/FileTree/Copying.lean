import Relink.Proofs.FileTree.Writing

/-!
# Copying below a directory

A file is copied below an output directory wherever its place is free and its path within the limits. The
directories above it are made, and no other file is changed.
-/

set_option autoImplicit false

namespace Relink

/-- Whether a path below a directory is one that a system takes: neither it nor a name in it is too long. -/
def Path.Fits (output : Path) (names : Location) : Prop :=
  (output.join (Location.path names)).spellingFault? = none ∧ ∀ name ∈ names, Octet.size name ≤ maxNameSize

instance (output : Path) (names : Location) : Decidable (output.Fits names) :=
  inferInstanceAs (Decidable (_ ∧ _))

theorem Path.endsInSlash_location {names : Location} (below : names.IsBelow) :
    (Location.path names).endsInSlash = false := by
  rw [← Bool.not_eq_true, endsInSlash, beq_iff_eq]
  intro slash
  obtain ⟨front, spelled⟩ := List.getLast?_eq_some_iff.mp slash
  have parts := splitOn_location below.2 below.1
  rw [spelled, Text.splitOn_append] at parts
  have void : [] ∈ names := by
    rw [← parts]
    exact List.mem_append_right _ (List.mem_singleton.mpr rfl)
  cases below.2 [] void

theorem Path.spelling_location {names : Location} (below : names.IsBelow) : (Location.path names).spelling ≠ [] := by
  intro empty
  have parts := splitOn_location below.2 below.1
  rw [empty] at parts
  have void : [] ∈ names := by
    rw [← parts]
    exact List.mem_singleton.mpr rfl
  cases below.2 [] void

theorem Path.endsInSlash_join_location (root : Path) {names : Location} (below : names.IsBelow) :
    (root.join (Location.path names)).endsInSlash = false := by
  rw [endsInSlash_join (isAbsolute_location below.2) (spelling_location below)]
  exact endsInSlash_location below

namespace FileTree

/-- Whether a path names a file with those contents. -/
def Holds (tree : FileTree) (path : Path) (content : Content) : Prop :=
  ∃ directory name, tree.EndsAt path directory name ∧ Octet.size name ≤ maxNameSize ∧ path.endsInSlash = false ∧
    tree.content? (directory ++ [name]) = some content

/-- What a tree becomes where files are written below an output directory, each to a place that was free. -/
structure Writes (output : Path) (tree : FileTree) (files : List (Location × Content)) (made : FileTree) :
    Prop where
  same : SameOutside (output.locationFrom tree.workingDirectory) tree made
  directories : ∀ location, tree.hasDirectory location = true → made.hasDirectory location = true
  contents : ∀ location content, made.content? location = some content ↔
    (∃ file ∈ files, output.locationFrom tree.workingDirectory ++ file.1 = location ∧ file.2 = content) ∨
      tree.content? location = some content
  free : ∀ location, tree.IsFree location →
    (∀ file ∈ files, ¬ location <+: output.locationFrom tree.workingDirectory ++ file.1 ∧
      ¬ output.locationFrom tree.workingDirectory ++ file.1 <+: location) → made.IsFree location

namespace Writes

variable {output : Path} {tree made later : FileTree} {files others : List (Location × Content)}

theorem nothing (ready : tree.IsReady output) : Writes output tree [] tree :=
  ⟨ready.refl, fun _ is => is, by simp, fun _ free _ => free⟩

theorem trans (first : Writes output tree files made) (second : Writes output made others later) :
    Writes output tree (files ++ others) later := by
  have home := first.same.workingDirectory
  have same := second.same
  have contents := second.contents
  have free := second.free
  rw [home] at same contents free
  refine ⟨first.same.trans same, fun location is => second.directories location (first.directories location is),
    fun location content => ?_, fun location isFree apart => ?_⟩
  · rw [contents, first.contents, ← or_assoc]
    refine or_congr_left ?_
    simp only [List.mem_append, or_and_right, exists_or]
    exact or_comm
  · refine free location (first.free location isFree fun file member => ?_) fun file member => ?_
    · exact apart file (List.mem_append_left _ member)
    · exact apart file (List.mem_append_right _ member)

theorem holds {path : Path} {content : Content} (writes : Writes output tree files made)
    (before : tree.Holds path content) : made.Holds path content := by
  obtain ⟨directory, name, ends, short, noSlash, there⟩ := before
  refine ⟨directory, name, ends.mono writes.same.workingDirectory fun location _ is =>
    writes.directories location is, short, noSlash, ?_⟩
  exact (writes.contents _ _).mpr (.inr there)

end Writes

/-! ## One file -/

section Target

variable {tree : FileTree} {output : Path} {front : Location} {name : Text} (ready : tree.IsReady output)
    (below : Location.IsBelow (front ++ [name])) (fits : output.Fits (front ++ [name]))
    (free : tree.IsFree (output.locationFrom tree.workingDirectory ++ (front ++ [name])))

include ready below in
theorem mem_trailFrom_front {location : Location}
    (member : location ∈ Location.trail (startOf tree.workingDirectory output) (output.moves ++ front)) :
    tree.hasDirectory location = true ∨ location <+: output.locationFrom tree.workingDirectory ++ front := by
  rcases Location.mem_trail_append.mp member with before | behind
  · exact .inl (ready.enters.2.2 location before)
  · exact .inr (Location.within_of_mem_trail (fun other inFront =>
      Path.ne_parent_of_isName (below.2 other (List.mem_append_left _ inFront))) behind)

include below fits in
theorem endsAt_join (leads : tree.Leads (startOf tree.workingDirectory output) (output.moves ++ front)) :
    tree.EndsAt (output.join (Location.path (front ++ [name])))
      (output.locationFrom tree.workingDirectory ++ front) name := by
  have relative := Path.isAbsolute_location below.2
  have frontNames : ∀ other ∈ front, Path.isName other = true := fun other member =>
    below.2 other (List.mem_append_left _ member)
  have frontMoves : Path.movesOf front = front :=
    List.filter_eq_self.mpr fun other member => bne_iff_ne.mpr (Path.ne_current_of_isName (frontNames other member))
  refine ⟨fits.1, ⟨output.steps ++ front, ?_, ?_, ?_⟩, below.2 name (by simp)⟩
  · rw [Path.steps_join relative, Path.steps_location below.2 below.1, List.append_assoc]
  · rwa [startOf_join relative, Path.movesOf_append, frontMoves]
  · rw [startOf_join relative, Path.movesOf_append, frontMoves, Location.along_append,
      Location.along_names fun other member => Path.ne_parent_of_isName (frontNames other member)]
    rfl

include ready below fits free

/-- The directories above a place that is free can be made, and the place stays free. -/
theorem makeDirectories_free : ∃ parent grown,
    (output.join (Location.path (front ++ [name]))).parent? = some parent ∧
      makeDirectories parent tree = (.ok (), grown) ∧
      Grows (Location.trail (startOf tree.workingDirectory output) (output.moves ++ front)) tree grown ∧
      SameOutside (output.locationFrom tree.workingDirectory) tree grown ∧
      grown.EndsAt (output.join (Location.path (front ++ [name])))
        (output.locationFrom tree.workingDirectory ++ front) name ∧
      grown.get? (output.locationFrom tree.workingDirectory ++ (front ++ [name])) = none := by
  have relative := Path.isAbsolute_location below.2
  have moves : (output.join (Location.path (front ++ [name]))).moves = output.moves ++ front ++ [name] := by
    rw [Path.moves_join relative, Path.moves_location below.2, List.append_assoc]
  have named : (output.join (Location.path (front ++ [name]))).moves ≠ [] := by simp [moves]
  obtain ⟨parent, isParent⟩ := parent?_isSome named
  have parentMoves : parent.moves = output.moves ++ front := by
    rw [Path.moves_above isParent, moves, List.dropLast_concat]
  have starts : startOf tree.workingDirectory parent = startOf tree.workingDirectory output := by
    rw [startOf, Path.isAbsolute_above isParent, Path.isAbsolute_join relative, startOf]
  -- What is on the way is there, or lies above the free place, where nothing but directories is.
  have passable : tree.Passable (startOf tree.workingDirectory output) (output.moves ++ front) := by
    refine ⟨fun move member => ?_, fun location member => ?_⟩
    · rcases List.mem_append.mp member with before | behind
      · exact ready.enters.2.1 move before
      · exact fits.2 move (List.mem_append_left _ behind)
    · rcases mem_trailFrom_front ready below member with is | within
      · exact .inr is
      · refine free.2 location (within.trans ?_)
        rw [← List.append_assoc]
        exact List.prefix_append _ _
  have start := starts ▸ ready.enters.start
  obtain ⟨grown, isMade, grows, leads⟩ := makeDirectories_passable ready.plain start
    (spellingFault?_above isParent fits.1) (Path.steps_above isParent) (by rw [starts, parentMoves]; exact passable)
  rw [Path.trailFrom, starts, parentMoves] at grows
  rw [starts, parentMoves] at leads
  have same : SameOutside (output.locationFrom tree.workingDirectory) tree grown := by
    have within := makeDirectories_same ready.plain ready.enters (Location.IsBelow.leadsDown below) isParent
    rwa [isMade] at within
  have home := same.workingDirectory
  refine ⟨parent, grown, isParent, isMade, grows, same, ?_, ?_⟩
  · have ends := endsAt_join below fits (home ▸ leads)
    rwa [home] at ends
  · refine (grows.isFree free fun onWay => ?_).1
    rcases mem_trailFrom_front ready below onWay with is | within
    · exact not_hasDirectory_below free.1 List.prefix_rfl is
    · rw [← List.append_assoc] at within
      exact not_concat_within _ name within

/-- A file is copied to a place that is free. -/
theorem copy_free {source : Path} {content : Content} (isSource : tree.Holds source content) :
    ∃ parent grown made, (output.join (Location.path (front ++ [name]))).parent? = some parent ∧
      makeDirectories parent tree = (.ok (), grown) ∧
      grown.copyFile source (output.join (Location.path (front ++ [name]))) = .ok made ∧
      Writes output tree [(front ++ [name], content)] made := by
  obtain ⟨parent, grown, isParent, isMade, grows, same, ends, nothing⟩ :=
    makeDirectories_free ready below fits free
  obtain ⟨origin, file, sourceEnds, shortFile, noSlash, there⟩ := isSource
  have sourceGrown := sourceEnds.mono same.workingDirectory fun _ _ is => grows.hasDirectory is
  rw [← grows.content?_eq] at there
  obtain ⟨mark, isThere⟩ := content?_eq_some.mp there
  have copied := copyFile_free ends (fits.2 name (by simp)) (Path.endsInSlash_join_location output below)
    (by rw [List.append_assoc]; exact nothing) (resolve_file sourceGrown shortFile noSlash isThere) isThere
  have slot := ends.hasSlot
  rw [List.append_assoc] at copied slot
  have noDirectory := not_hasDirectory_below nothing List.prefix_rfl
  have later := same.isReady ready
  have home := same.workingDirectory
  refine ⟨parent, grown, _, isParent, isMade, copied, ?_⟩
  constructor
  · have put := SameOutside.put later.plain later.enters.hasDirectory below.1 (home ▸ slot)
      (show (Node.file content mark).isPlain = true from rfl)
    rw [home] at put
    exact same.trans put
  · exact fun location is => hasDirectory_put_file _ slot noDirectory (grows.hasDirectory is)
  · intro location other
    by_cases target : location = output.locationFrom tree.workingDirectory ++ (front ++ [name])
    · subst target
      rw [content?_eq_some, get?_put_self slot, content?_missing free.1]
      simp
    · rw [content?_put slot nothing rfl target, grows.content?_eq]
      simp [Ne.symm target]
  · intro location isFree apart
    obtain ⟨notAbove, notBelow⟩ := apart _ (List.mem_singleton.mpr rfl)
    refine isFree_put slot rfl (grows.isFree isFree fun onWay => ?_) ?_ (.inr notBelow)
    · rcases mem_trailFrom_front ready below onWay with is | within
      · exact not_hasDirectory_below isFree.1 List.prefix_rfl is
      · refine notAbove (within.trans ?_)
        rw [← List.append_assoc]
        exact List.prefix_append _ _
    · rintro rfl
      exact notAbove List.prefix_rfl

end Target

theorem holds_join {tree : FileTree} {root : Path} {names : Location} {content : Content} (enters : tree.Enters root)
    (below : names.IsBelow) (fits : root.Fits names)
    (there : tree.content? (root.locationFrom tree.workingDirectory ++ names) = some content) :
    tree.Holds (root.join (Location.path names)) content := by
  obtain ⟨front, name, rfl⟩ := (List.eq_nil_or_concat names).resolve_left below.1
  rw [List.concat_eq_append] at below fits there ⊢
  obtain ⟨mark, is⟩ := content?_eq_some.mp there
  rw [← List.append_assoc] at is there
  have last := hasDirectory_iff.mpr (Node.directory_of_below is)
  have leads : tree.Leads (startOf tree.workingDirectory root) (root.moves ++ front) := by
    refine Leads.append_iff.mpr ⟨enters.2, fun move member => fits.2 move (List.mem_append_left _ member),
      fun location member => hasDirectory_within ?_ last⟩
    exact Location.within_of_mem_trail (fun other inFront =>
      Path.ne_parent_of_isName (below.2 other (List.mem_append_left _ inFront))) member
  exact ⟨_, name, endsAt_join below fits leads, fits.2 name (by simp), Path.endsInSlash_join_location root below,
    there⟩

/-! ## Several files -/

/-- A file that is to be copied: where it is, the place below the output that it gets, and its contents. -/
structure Offer where
  origin : Path
  names : Location
  content : Content

def Offer.file (offer : Offer) : Location × Content := (offer.names, offer.content)

/-- Whether offers can be copied one after another: each can, and no place is another one or above it. -/
structure Accepts (output : Path) (tree : FileTree) (offers : List Offer) : Prop where
  below : ∀ offer ∈ offers, offer.names.IsBelow
  fits : ∀ offer ∈ offers, output.Fits offer.names
  free : ∀ offer ∈ offers, tree.IsFree (output.locationFrom tree.workingDirectory ++ offer.names)
  holds : ∀ offer ∈ offers, tree.Holds offer.origin offer.content
  apart : offers.Pairwise fun one other => ¬ one.names <+: other.names ∧ ¬ other.names <+: one.names

/-- The first offer is copied, and the others can still be. -/
theorem Accepts.copy {output : Path} {tree : FileTree} {offer : Offer} {rest : List Offer}
    (ready : tree.IsReady output) (accepts : Accepts output tree (offer :: rest)) :
    ∃ parent grown made, (output.join (Location.path offer.names)).parent? = some parent ∧
      makeDirectories parent tree = (.ok (), grown) ∧
      grown.copyFile offer.origin (output.join (Location.path offer.names)) = .ok made ∧
      Writes output tree [offer.file] made ∧ Accepts output made rest := by
  obtain ⟨below, fits, free, holds, apart⟩ := accepts
  rw [List.forall_mem_cons] at below fits free holds
  rw [List.pairwise_cons] at apart
  obtain ⟨front, name, split⟩ := (List.eq_nil_or_concat offer.names).resolve_left below.1.1
  rw [List.concat_eq_append] at split
  have copied := copy_free ready (split ▸ below.1) (split ▸ fits.1) (split ▸ free.1) holds.1
  rw [← split] at copied
  obtain ⟨parent, grown, made, isParent, isMade, isCopied, writes⟩ := copied
  refine ⟨parent, grown, made, isParent, isMade, isCopied, writes, below.2, fits.2, fun other member => ?_,
    fun other member => writes.holds (holds.2 other member), apart.2⟩
  rw [writes.same.workingDirectory]
  refine writes.free _ (free.2 other member) fun file isFile => ?_
  simp only [List.mem_singleton.mp isFile, List.prefix_append_right_inj]
  exact (apart.1 other member).symm

end FileTree

end Relink
