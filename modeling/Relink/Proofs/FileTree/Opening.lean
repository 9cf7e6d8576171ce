import Relink.Proofs.FileTree.Copying
import Relink.Proofs.FileTree.Distinct
import Relink.Proofs.FileTree.Outline

/-!
# Files that paths open

A path below a directory that holds no links leads by its names from where the path of the directory leads, through
whatever links. A file that is found so is found for writing too, and stays open while other files are written.
-/

set_option autoImplicit false

namespace Relink

/-! ## Listings of changed directories -/

theorem Entries.map_put {α : Type} {change : Text × Node → α} {name : Text} {old new : Node}
    {entries : List (Text × Node)} (is : Entries.get? name entries = some old)
    (same : change (name, new) = change (name, old)) : (Entries.put name new entries).map change = entries.map change := by
  induction entries with
  | nil => cases is
  | cons entry rest ih =>
      obtain ⟨first, node⟩ := entry
      by_cases isFirst : first = name
      · simp only [Entries.get?, isFirst, if_true, Option.some.injEq] at is
        simp [Entries.put, isFirst, same, is]
      · simp only [Entries.get?, isFirst, if_false] at is
        simp [Entries.put, isFirst, ih is]

/-- A listing stays where a node is replaced by one with the same listing. -/
theorem Node.files_put {node old new : Node} {location : Location} (present : node.get? location = some old)
    (same : new.files = old.files) : (Node.put new location node).files = node.files := by
  induction location generalizing node with
  | nil =>
      rw [get?_nil, Option.some.injEq] at present
      rw [put_nil, same, present]
  | cons name rest ih =>
      obtain ⟨entries, middle, rfl, first, later⟩ := directory_of_get?_cons present
      have listing : (Entries.put name (put new rest middle) entries).map (fun entry => (entry.1, entry.2.files)) =
          entries.map fun entry => (entry.1, entry.2.files) :=
        Entries.map_put first (Prod.ext rfl (ih later))
      rw [put, first, Option.getD_some, files, files, filesOfEntries_eq, filesOfEntries_eq, listing]

namespace FileTree

/-! ## Walks that go on -/

section Continue

variable {tree : FileTree} {footing : Footing} {base : Location} {entries : List (Text × Node)} {names : List Text}
    (nonempty : names ≠ [])

include nonempty

/-- A walk that has come to a directory goes on from there; at a link it takes the names along. -/
theorem stride_continue {here : Location} {segments : List Text} {stride : Stride}
    (ok : tree.stride footing here segments = .ok stride) (other : Footing) :
    (∀ base entries, stride = .arrived (.found base (.directory entries)) →
      tree.stride other here (segments ++ names) = tree.stride other base names) ∧
    ∀ directory target rest, stride = .detour directory target rest →
      tree.stride other here (segments ++ names) = .ok (.detour directory target (rest ++ names)) := by
  have strides := strides_iff.mp ok
  clear ok
  have more (rest : List Text) : rest ++ names ≠ [] := fun none => nonempty (List.append_eq_nil_iff.mp none).2
  induction strides with
  | arrived there => exact ⟨fun _ _ is => (by cases is; rfl), fun _ _ _ is => by cases is⟩
  | current _ ih => rwa [List.cons_append, stride_current]
  | parent _ ih => rwa [List.cons_append, stride_parent]
  | absent | file | link => exact ⟨fun _ _ is => (by cases is), fun _ _ _ is => by cases is⟩
  | down finds _ ih => rwa [List.cons_append, (finds.behind other (more _)).stride_down]
  | detour finds =>
      refine ⟨fun _ _ is => (by cases is), fun _ _ _ is => ?_⟩
      cases is
      exact strides_iff.mpr (.detour (finds.behind other (more _)) (by simp [more]))

theorem travel_continue {links : Nat} {here : Location} {segments : List Text}
    (ok : tree.travel links footing here segments = .ok (.found base (.directory entries))) :
    ∃ left, ∀ other, tree.travel links other here (segments ++ names) = tree.travel (left + 1) other base names := by
  have travels := travels_iff.mp ok
  clear ok
  generalize isPlace : Place.found base (.directory entries) = place at travels
  induction travels with
  | @arrives links _ _ _ _ walked =>
      subst isPlace
      refine ⟨links, fun other => ?_⟩
      rw [travel, (stride_continue nonempty walked other).1 base entries rfl, travel]
  | @follows _ _ _ _ _ rest _ _ walked named _ ih =>
      obtain ⟨left, goesOn⟩ := ih isPlace
      refine ⟨left, fun other => ?_⟩
      have notLast : (rest ++ names).isEmpty = false := by simp [nonempty]
      rw [travel, (stride_continue nonempty walked other).2 _ _ _ rfl]
      simp only [if_neg named, notLast, Bool.false_and, Bool.or_false, ← List.append_assoc]
      exact goesOn other

end Continue

/-! ## Names below a directory without links -/

section Names

variable {tree : FileTree} {footing : Footing} {base location : Location} {node : Node} {content : Content} {mark : Bool}

/-- In a directory without links a walk along names comes to the file of these names or to none. -/
theorem stride_names {names : Location} (there : tree.get? base = some node) (plain : node.isPlain = true)
    (each : ∀ name ∈ names, Path.isName name = true) {stride : Stride}
    (ok : tree.stride footing base names = .ok stride) :
    (∀ directory target rest, stride ≠ .detour directory target rest) ∧
    (∀ location content mark, stride = .arrived (.found location (.file content mark)) →
      location = base ++ names ∧ ∀ other : Footing, other.needsDirectory = false →
        tree.stride other base names = .ok (.arrived (.found location (.file content mark)))) := by
  induction names generalizing base node with
  | nil =>
      cases strides_iff.mp ok with
      | arrived is =>
          refine ⟨fun _ _ _ isDetour => (by cases isDetour), fun location content mark isFile => ?_⟩
          cases isFile
          exact ⟨(List.append_nil base).symm, fun other _ => stride_nil is⟩
  | cons name rest ih =>
      rw [List.forall_mem_cons] at each
      have childPlain {child : Node} (looked : tree.lookUp base name = .ok (some child)) :
          tree.get? (base ++ [name]) = some child ∧ child.isPlain = true := by
        have is := (lookUp_ok looked).2.2.symm
        refine ⟨is, ?_⟩
        rw [get?, Node.get?_append, ← get?, there, Option.bind_some] at is
        exact (Node.isPlain_get? plain is).1
      cases strides_iff.mp ok with
      | current => exact absurd rfl (Path.ne_current_of_isName each.1)
      | parent => exact absurd rfl (Path.ne_parent_of_isName each.1)
      | absent => exact ⟨fun _ _ _ isDetour => (by cases isDetour), fun _ _ _ isFile => (by cases isFile)⟩
      | down finds strides =>
          obtain ⟨is, isPlain⟩ := childPlain finds.looked
          obtain ⟨noLink, goesOn⟩ := ih is isPlain each.2 (strides_iff.mpr strides)
          refine ⟨noLink, fun location content mark isFile => ?_⟩
          obtain ⟨rfl, others⟩ := goesOn location content mark isFile
          refine ⟨List.append_assoc base [name] rest, fun other file => ?_⟩
          have again : tree.Finds other base name rest _ :=
            ⟨finds.current, finds.parent, by rw [file, Bool.and_false], finds.looked⟩
          rw [again.stride_down]
          exact others other file
      | link finds | detour finds => cases (childPlain finds.looked).2
      | file finds =>
          refine ⟨fun _ _ _ isDetour => (by cases isDetour), fun location _ _ isFile => ?_⟩
          cases isFile
          refine ⟨rfl, fun other file => strides_iff.mpr (.file ?_ file)⟩
          exact ⟨finds.current, finds.parent, by rw [file, Bool.and_false], finds.looked⟩

end Names

/-! ## Open files -/

/-- Whether a path leads to the file at a location, to be read and to be written, and what the file holds. -/
structure Opens (tree : FileTree) (path : Path) (location : Location) (content : Content) : Prop where
  slot : tree.HasSlot location
  read : ∃ mark, tree.placeOf path = .ok (.found location (.file content mark))
  write : ∃ mark, tree.fileOf path = .ok (.found location (.file content mark))

namespace Opens

variable {tree : FileTree} {path : Path} {location : Location} {content : Content}

theorem there (opens : tree.Opens path location content) : ∃ mark, tree.get? location = some (.file content mark) := by
  obtain ⟨mark, placed⟩ := opens.read
  exact ⟨mark, get?_of_place placed⟩

theorem content?_eq (opens : tree.Opens path location content) : tree.content? location = some content :=
  content?_eq_some.mpr opens.there

theorem readText {text : Text} (opens : tree.Opens path location (.text text)) : tree.readText path = .ok text := by
  obtain ⟨mark, placed⟩ := opens.read
  rw [FileTree.readText, resolve, placed]
  rfl

theorem writeText (opens : tree.Opens path location content) (text : Text) : ∃ mark,
    tree.writeText path text = .ok (tree.put location (.file (.text text) mark)) := by
  obtain ⟨mark, placed⟩ := opens.write
  refine ⟨mark, ?_⟩
  rw [FileTree.writeText, writeFile, placed]
  rfl

end Opens

section Output

variable {tree : FileTree} {output : Path} {base : Location} {entries : List (Text × Node)}
    (placed : tree.placeOf output = .ok (.found base (.directory entries)))
    (plain : (Node.directory entries).isPlain = true) {names : Location} (below : names.IsBelow)

include placed plain below

/-- A path below a directory without links opens the file that its names lead to from there. -/
theorem opens_below {location : Location} {content : Content} {mark : Bool}
    (found : tree.placeOf (output.join names.path) = .ok (.found location (.file content mark))) :
    location = base ++ names ∧ tree.Opens (output.join names.path) (base ++ names) content := by
  have relative := Path.isAbsolute_location below.2
  have noSlash := Path.endsInSlash_join_location output below
  have there := get?_of_place placed
  unfold placeOf place at placed
  split at placed
  · cases placed
  obtain ⟨left, goesOn⟩ := travel_continue below.1 placed
  have journeys : ∀ footing, tree.journey footing (output.join names.path) (output.join names.path).steps =
      tree.travel (left + 1) footing base names := by
    intro footing
    rw [journey, startOf_join relative, Path.steps_join relative, Path.steps_location below.2 below.1]
    exact goesOn footing
  unfold placeOf place at found
  split at found
  · cases found
  rename_i spelled
  rw [noSlash, journeys, travel] at found
  split at found
  · cases found
  · rename_i place walked
    cases found
    obtain ⟨rfl, again⟩ := (stride_names there plain below.2 walked).2 location content mark rfl
    have isThere := (strides_iff.mp walked).get? rfl
    refine ⟨rfl, ?_, ⟨mark, ?_⟩, ⟨mark, ?_⟩⟩
    · obtain ⟨front, name, rfl⟩ := (List.eq_nil_or_concat names).resolve_left below.1
      rw [List.concat_eq_append] at below isThere ⊢
      rw [← List.append_assoc] at isThere ⊢
      exact ⟨base ++ front, name, rfl, below.2 name (by simp), hasDirectory_iff.mpr (Node.directory_of_below isThere)⟩
    · rw [placeOf, place, spelled, noSlash]
      simp only
      rw [journeys, travel, again _ rfl]
    · rw [fileOf, place, spelled, noSlash]
      simp only
      rw [journeys, travel, again _ rfl]
  · rename_i directory target rest walked
    exact absurd rfl ((stride_names there plain below.2 walked).1 directory target rest)

end Output

/-! ## Files that are written over -/

/-- A tree with files written over, one after another. -/
inductive Overwrites (tree : FileTree) : FileTree → Prop
  | same : Overwrites tree tree
  | write {made : FileTree} {location : Location} {old content : Content} {mark executable : Bool}
      (overwrites : Overwrites tree made) (slot : made.HasSlot location)
      (there : made.get? location = some (.file old mark)) :
      Overwrites tree (made.put location (.file content executable))

namespace Overwrites

variable {tree made later : FileTree}

theorem trans (first : Overwrites tree made) (second : Overwrites made later) : Overwrites tree later := by
  induction second with
  | same => exact first
  | write _ slot there ih => exact .write ih slot there

theorem outline (overwrites : Overwrites tree made) : SameOutline tree made := by
  induction overwrites with
  | same => exact .refl tree
  | write _ slot there ih => exact ih.trans (.put slot there)

theorem node (overwrites : Overwrites tree made) {base : Location} {node : Node} (is : tree.get? base = some node) :
    ∃ changed, made.get? base = some changed ∧ changed.files = node.files ∧
      (node.isPlain = true → changed.isPlain = true) := by
  induction overwrites with
  | same => exact ⟨node, is, rfl, id⟩
  | @write made location old content mark executable _ slot there ih =>
      obtain ⟨before, isBefore, sameFiles, plain⟩ := ih
      by_cases inside : base <+: location
      · obtain ⟨rest, rfl⟩ := inside
        have isFile := there
        rw [get?, Node.get?_append, ← get?, isBefore, Option.bind_some] at isFile
        refine ⟨Node.put (.file content executable) rest before, ?_, ?_, fun isPlain =>
          Node.isPlain_put (plain isPlain) isFile rfl⟩
        · rw [put_append isBefore]
          exact Node.get?_put_self isBefore _
        · rw [← sameFiles]
          exact Node.files_put isFile rfl
      · refine ⟨before, ?_, sameFiles, plain⟩
        rw [get?_put_apart slot _ (fun below => ?_) inside, isBefore]
        rw [missing_below_leaf there rfl below] at isBefore
        · cases isBefore
        · rintro rfl
          exact inside List.prefix_rfl

end Overwrites

/-- A file stays open where the outline stays; it is read as it is then. -/
theorem SameOutline.opens {tree made : FileTree} {path : Path} {location : Location} {content other : Content}
    (same : SameOutline tree made) (opens : tree.Opens path location content)
    (is : made.content? location = some other) : made.Opens path location other := by
  have places : ∀ footing mark, tree.place footing path = .ok (.found location (.file content mark)) →
      ∃ mark, made.place footing path = .ok (.found location (.file other mark)) := by
    intro footing mark placed
    have outlines := same.place_eq footing path
    rw [placed] at outlines
    obtain ⟨place, isPlace, shape⟩ := map_eq_ok.mp outlines
    cases place with
    | absent directory name => cases shape
    | found found node =>
        cases node with
        | directory entries => cases shape
        | link target => cases shape
        | file held heldMark =>
            simp only [Place.outline, Place.found.injEq] at shape
            obtain ⟨rfl, -⟩ := shape
            have there := content?_eq_some.mpr ⟨heldMark, get?_of_place isPlace⟩
            rw [is, Option.some.injEq] at there
            exact ⟨heldMark, by rw [isPlace, there]⟩
  obtain ⟨⟨directory, name, split, isName, above⟩, ⟨mark, read⟩, ⟨writeMark, write⟩⟩ := opens
  exact ⟨⟨directory, name, split, isName, by rw [same.hasDirectory, above]⟩, places _ mark read,
    places _ writeMark write⟩

end FileTree

end Relink
