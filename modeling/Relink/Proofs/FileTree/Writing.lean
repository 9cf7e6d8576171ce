import Relink.Proofs.Build.Discovery
import Relink.Proofs.FileTree.Making

/-!
# Writing below a directory

A file can be written below a directory where its place is free: nothing is there, and nothing but directories
is on the way. The other files keep their contents, and other places stay free that are neither above nor below.
-/

set_option autoImplicit false

namespace Relink.FileTree

def content? (tree : FileTree) (location : Location) : Option Content :=
  match tree.get? location with
  | some (.file content _) => some content
  | _ => none

/-- Whether a file can be made at a location: nothing is there, and what is above are directories. -/
def IsFree (tree : FileTree) (location : Location) : Prop :=
  tree.get? location = none ∧
    ∀ above, above <+: location → tree.get? above = none ∨ tree.hasDirectory above = true

variable {tree : FileTree} {location other : Location}

theorem content?_missing (nothing : tree.get? location = none) : tree.content? location = none := by
  rw [content?, nothing]

theorem content?_directory (is : tree.hasDirectory location = true) : tree.content? location = none := by
  obtain ⟨entries, there⟩ := hasDirectory_iff.mp is
  rw [content?, there]

theorem content?_eq_some {content : Content} :
    tree.content? location = some content ↔ ∃ executable, tree.get? location = some (.file content executable) := by
  rw [content?]
  constructor
  · intro is
    split at is
    · rename_i found executable there
      cases is
      exact ⟨executable, there⟩
    · cases is
  · rintro ⟨executable, there⟩
    rw [there]

theorem content?_congr {later : FileTree} (same : later.get? location = tree.get? location) :
    later.content? location = tree.content? location := by
  rw [content?, same, content?]

theorem content?_below {later : FileTree} (same : later.get? location = tree.get? location) (names : Location) :
    later.content? (location ++ names) = tree.content? (location ++ names) := by
  refine content?_congr ?_
  rw [get?, Node.get?_append, ← get?, same, get?, ← Node.get?_append, ← get?]

/-! ## A slot that is filled -/

section Slot

variable (slot : tree.HasSlot location)

include slot

/-- What is put where nothing was changes no contents elsewhere. -/
theorem content?_put (nothing : tree.get? location = none) {new : Node} (leaf : new.entries = [])
    (apart : other ≠ location) : (tree.put location new).content? other = tree.content? other := by
  rcases get?_put_leaf slot new leaf apart with ⟨below, hidden⟩ | ⟨is, stays⟩ | kept
  · rw [content?_missing hidden, content?_missing (missing_below nothing below)]
  · rw [content?_directory is, content?_directory stays]
  · exact content?_congr kept

theorem isFree_put {new : Node} (leaf : new.entries = []) (free : tree.IsFree other) (apart : other ≠ location)
    (fits : new.isDirectory = true ∨ ¬ location <+: other) : (tree.put location new).IsFree other := by
  refine ⟨?_, fun above within => ?_⟩
  · rcases get?_put_leaf slot new leaf apart with ⟨-, hidden⟩ | ⟨is, -⟩ | kept
    · exact hidden
    · exact absurd is (not_hasDirectory_below free.1 List.prefix_rfl)
    · rw [kept]
      exact free.1
  · by_cases same : above = location
    · rw [same, hasDirectory, get?_put_self slot]
      exact .inr (fits.resolve_right fun noPrefix => noPrefix (same ▸ within))
    rcases get?_put_leaf slot new leaf same with ⟨-, hidden⟩ | ⟨-, stays⟩ | kept
    · exact .inl hidden
    · exact .inr stays
    · rw [hasDirectory, kept, ← hasDirectory]
      exact free.2 above within

end Slot

namespace Grows

variable {way : List Location} {grown : FileTree} (grows : Grows way tree grown)

include grows

theorem content?_eq (location : Location) : grown.content? location = tree.content? location := by
  induction grows with
  | same => rfl
  | @make grown made _ _ slot nothing ih =>
      rw [← ih]
      by_cases same : location = made
      · subst same
        have is := get?_put_self slot Node.emptyDirectory
        rw [content?_missing nothing, content?_directory (hasDirectory_iff.mpr ⟨[], is⟩)]
      · exact content?_put slot nothing rfl same

theorem isFree (free : tree.IsFree location) (offWay : location ∉ way) : grown.IsFree location := by
  induction grows with
  | same => exact free
  | make _ onWay slot _ ih =>
      refine isFree_put slot rfl ih ?_ (.inl rfl)
      rintro rfl
      exact offWay onWay

end Grows

/-! ## Files that are written -/

section Write

variable {path : Path} {directory : Location} {name : Text} (ends : tree.EndsAt path directory name)
    (short : Octet.size name ≤ maxNameSize) (noSlash : path.endsInSlash = false)

include ends short noSlash

theorem writeFile_free (nothing : tree.get? (directory ++ [name]) = none) (content : Content)
    (executable : Option Bool) : tree.writeFile path content executable =
      .ok (tree.put (directory ++ [name]) (.file content (executable.getD false))) := by
  rw [writeFile, fileOf, ends.place_absent short nothing (by simp [noSlash])]

theorem writeFile_over {old : Content} {mark : Bool}
    (there : tree.get? (directory ++ [name]) = some (.file old mark)) (content : Content)
    (executable : Option Bool) : tree.writeFile path content executable =
      .ok (tree.put (directory ++ [name]) (.file content (executable.getD mark))) := by
  rw [writeFile, fileOf, ends.place_file short there noSlash]

theorem resolve_file {content : Content} {mark : Bool}
    (there : tree.get? (directory ++ [name]) = some (.file content mark)) :
    tree.resolve path = .ok (directory ++ [name], .file content mark) := by
  rw [resolve, placeOf, ends.place_file short there noSlash]
  rfl

theorem copyFile_free (nothing : tree.get? (directory ++ [name]) = none) {source : Path} {origin : Location}
    {content : Content} {mark : Bool} (isSource : tree.resolve source = .ok (origin, .file content mark))
    (there : tree.get? origin = some (.file content mark)) :
    tree.copyFile source path = .ok (tree.put (directory ++ [name]) (.file content mark)) := by
  have slot := ends.hasSlot
  have noDirectory : ¬ tree.hasDirectory (directory ++ [name]) = true :=
    not_hasDirectory_below nothing List.prefix_rfl
  have emptiedEnds : (tree.put (directory ++ [name]) (.file (.text []) mark)).EndsAt path directory name :=
    ends.mono rfl fun _ _ is => hasDirectory_put_file _ slot noDirectory is
  have kept : (tree.put (directory ++ [name]) (.file (.text []) mark)).get? origin =
      some (.file content mark) := by
    rw [get?_put_apart slot _ (fun below => ?_) (fun above => ?_), there]
    · rw [missing_below nothing below] at there
      cases there
    · have apart : origin ≠ directory ++ [name] := by
        rintro rfl
        rw [nothing] at there
        cases there
      obtain ⟨entries, is⟩ := hasDirectory_iff.mp (slot.above above apart)
      rw [there] at is
      cases is
  unfold copyFile
  rw [isSource]
  simp only [writeFile_free ends short noSlash nothing, Option.getD_some, kept,
    writeFile_over emptiedEnds short noSlash (get?_put_self slot _), put_put slot]

end Write

end Relink.FileTree
