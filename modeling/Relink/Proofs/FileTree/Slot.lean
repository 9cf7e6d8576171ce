import Relink.Proofs.FileTree.Trail

/-!
# Slots

A slot is a place for an entry in a directory that is there, whether the entry is there or not. Putting
something into a slot and emptying it changes what is at and below it and nothing else.
-/

set_option autoImplicit false

namespace Relink.FileTree

/-- Whether a location is a name in a directory that is there. -/
def HasSlot (tree : FileTree) (location : Location) : Prop :=
  ∃ directory name, location = directory ++ [name] ∧ Path.isName name = true ∧
    tree.hasDirectory directory = true

variable {tree : FileTree} {location other : Location} {new : Node}

theorem put_append {old : Node} (there : tree.get? location = some old) (below : Location) (new : Node) :
    tree.put (location ++ below) new = tree.put location (Node.put new below old) := by
  rw [put, put, Node.put_append there]

/-- What is inside a directory does not matter where it is replaced. -/
theorem put_put_below {old : Node} (there : tree.get? location = some old) (below : Location) (node new : Node) :
    (tree.put (location ++ below) node).put location new = tree.put location new := by
  rw [put_append there, put, put, put, Node.put_put there]

theorem missing_below_leaf {node : Node} (there : tree.get? location = some node) (leaf : node.entries = [])
    (below : location <+: other) (apart : other ≠ location) : tree.get? other = none := by
  obtain ⟨rest, rfl⟩ := below
  cases rest with
  | nil => exact absurd (List.append_nil location) apart
  | cons name more =>
      rw [get?, Node.get?_append, ← get?, there, Option.bind_some, Node.get?, leaf]
      rfl

theorem not_concat_within (directory : Location) (name : Text) : ¬ directory ++ [name] <+: directory := by
  intro within
  have shorter := within.length_le
  rw [List.length_append, List.length_singleton] at shorter
  omega

section Slot

variable (slot : tree.HasSlot location)

include slot

theorem HasSlot.cases : ∃ directory name entries, location = directory ++ [name] ∧ Path.isName name = true ∧
    tree.root.get? directory = some (.directory entries) := by
  obtain ⟨directory, name, split, isName, there⟩ := slot
  obtain ⟨entries, is⟩ := hasDirectory_iff.mp there
  exact ⟨directory, name, entries, split, isName, is⟩

theorem get?_put_append (new : Node) (below : Location) :
    (tree.put location new).get? (location ++ below) = new.get? below := by
  obtain ⟨directory, name, entries, rfl, -, there⟩ := slot.cases
  rw [put, Node.put_entry there, get?, List.append_assoc, Node.get?_put_append there, List.singleton_append,
    Node.get?, Node.entries, Entries.get?_put_same]
  rfl

theorem get?_put_self (new : Node) : (tree.put location new).get? location = some new := by
  have self := get?_put_append slot new []
  rwa [List.append_nil, Node.get?_nil] at self

theorem get?_put_apart (new : Node) (noPrefix : ¬ location <+: other) (noSuffix : ¬ other <+: location) :
    (tree.put location new).get? other = tree.get? other := by
  obtain ⟨directory, name, entries, rfl, -, there⟩ := slot.cases
  rw [put, Node.put_entry there, get?, get?]
  exact Node.get?_put_directory there (fun _ apart => Entries.get?_put_other apart new entries) noPrefix noSuffix

theorem hasDirectory_put (new : Node) (is : tree.hasDirectory other = true) (outside : ¬ location <+: other) :
    (tree.put location new).hasDirectory other = true := by
  by_cases above : other <+: location
  · have self := get?_put_self slot new
    obtain ⟨rest, rfl⟩ := above
    cases rest with
    | nil => exact absurd (by simp) outside
    | cons name later => exact hasDirectory_iff.mpr (Node.directory_of_below self)
  · rwa [hasDirectory, get?_put_apart slot new outside above]

theorem HasSlot.above (above : other <+: location) (apart : other ≠ location) : tree.hasDirectory other = true := by
  obtain ⟨directory, name, rfl, -, there⟩ := slot
  rcases List.prefix_concat_iff.mp above with rfl | within
  · exact absurd rfl apart
  · exact hasDirectory_within within there

/-- Something without entries that is put hides what was below it. Directories above it stay, and so does what is
elsewhere. -/
theorem get?_put_leaf (new : Node) (leaf : new.entries = []) (apart : other ≠ location) :
    location <+: other ∧ (tree.put location new).get? other = none ∨
      tree.hasDirectory other = true ∧ (tree.put location new).hasDirectory other = true ∨
      (tree.put location new).get? other = tree.get? other := by
  by_cases below : location <+: other
  · exact .inl ⟨below, missing_below_leaf (get?_put_self slot new) leaf below apart⟩
  by_cases above : other <+: location
  · have is := slot.above above apart
    exact .inr (.inl ⟨is, hasDirectory_put slot new is below⟩)
  · exact .inr (.inr (get?_put_apart slot new below above))

theorem put_put (node new : Node) : (tree.put location node).put location new = tree.put location new := by
  obtain ⟨directory, name, entries, rfl, -, there⟩ := slot.cases
  have self := Node.get?_put_self there (.directory (Entries.put name node entries))
  rw [put, put, put, Node.put_entry there, Node.put_entry self, Node.put_put there, Entries.put_put,
    ← Node.put_entry there]

theorem isPlain_put (plain : tree.root.isPlain = true) (newPlain : new.isPlain = true) :
    (tree.put location new).root.isPlain = true := by
  obtain ⟨directory, name, entries, rfl, isName, there⟩ := slot.cases
  have directoryPlain := (Node.isPlain_get? plain there).1
  rw [put, Node.put_entry there]
  exact Node.isPlain_put plain there (Node.isPlain_putEntry directoryPlain isName newPlain)

/-! ## Emptying -/

theorem erase_put (new : Node) : (tree.put location new).erase location = tree.erase location := by
  obtain ⟨directory, name, entries, rfl, -, there⟩ := slot.cases
  have self := Node.get?_put_self there (.directory (Entries.put name new entries))
  rw [put, erase, erase, Node.put_entry there, Node.erase_entry there, Node.erase_entry self, Node.put_put there,
    Entries.erase_put]

theorem erase_missing (nothing : tree.get? location = none) : tree.erase location = tree := by
  obtain ⟨directory, name, entries, rfl, -, there⟩ := slot.cases
  rw [get?, Node.get?_entry there] at nothing
  rw [erase, Node.erase_entry there, Entries.erase_missing nothing, Node.put_get? there]

theorem get?_erase_self : (tree.erase location).get? location = none := by
  obtain ⟨directory, name, entries, rfl, -, there⟩ := slot.cases
  rw [erase, Node.erase_entry there, get?, Node.get?_entry (Node.get?_put_self there _),
    Entries.get?_erase_same]

theorem get?_erase_apart (noPrefix : ¬ location <+: other) (noSuffix : ¬ other <+: location) :
    (tree.erase location).get? other = tree.get? other := by
  obtain ⟨directory, name, entries, rfl, -, there⟩ := slot.cases
  rw [erase, Node.erase_entry there, get?, get?]
  exact Node.get?_put_directory there (fun _ apart => Entries.get?_erase_other apart entries) noPrefix noSuffix

theorem hasDirectory_erase (is : tree.hasDirectory other = true) (outside : ¬ location <+: other) :
    (tree.erase location).hasDirectory other = true := by
  by_cases above : other <+: location
  · obtain ⟨directory, name, entries, rfl, -, there⟩ := slot.cases
    have within : other <+: directory := by
      rcases List.prefix_concat_iff.mp above with rfl | within
      · exact absurd List.prefix_rfl outside
      · exact within
    refine hasDirectory_within within (hasDirectory_iff.mpr ⟨Entries.erase name entries, ?_⟩)
    rw [erase, Node.erase_entry there]
    exact Node.get?_put_self there _
  · rwa [hasDirectory, get?_erase_apart slot outside above]

theorem isPlain_erase (plain : tree.root.isPlain = true) : (tree.erase location).root.isPlain = true := by
  obtain ⟨directory, name, entries, rfl, -, there⟩ := slot.cases
  have directoryPlain := (Node.isPlain_get? plain there).1
  rw [erase, Node.erase_entry there]
  exact Node.isPlain_put plain there (Node.isPlain_eraseEntry directoryPlain name)

theorem erase_hasSlot : (tree.erase location).HasSlot location := by
  obtain ⟨directory, name, rfl, isName, there⟩ := slot
  exact ⟨directory, name, rfl, isName, hasDirectory_erase ⟨directory, name, rfl, isName, there⟩ there
    (not_concat_within directory name)⟩

end Slot

end Relink.FileTree
