import Mathlib.Data.List.Nodup
import Relink.FileTree

/-!
# Nodes at locations

What is at a location of a node that another is put into or taken out of. Where something is at a location,
putting replaces it and nothing else; below a directory, putting an entry that is missing adds it.
-/

set_option autoImplicit false

namespace Relink

/-! ## Entries -/

namespace Entries

variable {name other : Text} {node : Node}

theorem get?_put_same (name : Text) (node : Node) (entries : List (Text × Node)) :
    get? name (put name node entries) = some node := by
  induction entries with
  | nil => simp [put, get?]
  | cons entry rest ih =>
      obtain ⟨first, old⟩ := entry
      by_cases same : first = name
      · simp [put, get?, same]
      · simp [put, get?, same, ih]

theorem get?_put_other (apart : name ≠ other) (node : Node) (entries : List (Text × Node)) :
    get? other (put name node entries) = get? other entries := by
  induction entries with
  | nil => simp [put, get?, apart]
  | cons entry rest ih =>
      obtain ⟨first, old⟩ := entry
      by_cases same : first = name
      · simp [put, get?, same, apart]
      · simp [put, get?, same, ih]

theorem put_put (name : Text) (node new : Node) (entries : List (Text × Node)) :
    put name new (put name node entries) = put name new entries := by
  induction entries with
  | nil => simp [put]
  | cons entry rest ih =>
      obtain ⟨first, old⟩ := entry
      by_cases same : first = name
      · simp [put, same]
      · simp [put, same, ih]

theorem put_get? {entries : List (Text × Node)} (is : get? name entries = some node) :
    put name node entries = entries := by
  induction entries with
  | nil => cases is
  | cons entry rest ih =>
      obtain ⟨first, old⟩ := entry
      by_cases same : first = name
      · simp only [get?, same, if_true, Option.some.injEq] at is
        simp [put, same, is]
      · simp only [get?, same, if_false] at is
        simp [put, same, ih is]

theorem erase_missing {entries : List (Text × Node)} (none : get? name entries = none) :
    erase name entries = entries := by
  induction entries with
  | nil => rfl
  | cons entry rest ih =>
      obtain ⟨first, old⟩ := entry
      by_cases same : first = name
      · simp [get?, same] at none
      · simp only [get?, same, if_false] at none
        have rest_ := ih none
        simp only [erase] at rest_ ⊢
        simp [same, rest_]

theorem erase_put (name : Text) (node : Node) (entries : List (Text × Node)) :
    erase name (put name node entries) = erase name entries := by
  induction entries with
  | nil => simp [erase, put]
  | cons entry rest ih =>
      obtain ⟨first, old⟩ := entry
      simp only [erase] at ih ⊢
      by_cases same : first = name
      · simp [put, same]
      · simp [put, same, ih]

theorem get?_erase_same (name : Text) (entries : List (Text × Node)) :
    get? name (erase name entries) = none := by
  induction entries with
  | nil => rfl
  | cons entry rest ih =>
      obtain ⟨first, old⟩ := entry
      simp only [erase] at ih ⊢
      by_cases same : first = name
      · simp [same, ih]
      · simp [get?, same, ih]

theorem get?_erase_other (apart : name ≠ other) (entries : List (Text × Node)) :
    get? other (erase name entries) = get? other entries := by
  induction entries with
  | nil => rfl
  | cons entry rest ih =>
      obtain ⟨first, old⟩ := entry
      simp only [erase] at ih ⊢
      by_cases same : first = name
      · simp [get?, same, ih, apart]
      · simp [get?, same, ih]

theorem mem_of_get? {entries : List (Text × Node)} (is : get? name entries = some node) :
    (name, node) ∈ entries := by
  induction entries with
  | nil => cases is
  | cons entry rest ih =>
      obtain ⟨first, old⟩ := entry
      by_cases same : first = name
      · simp only [get?, same, if_true, Option.some.injEq] at is
        simp [same, is]
      · simp only [get?, same, if_false] at is
        exact List.mem_cons_of_mem _ (ih is)

theorem get?_of_mem {entries : List (Text × Node)} (distinct : (entries.map Prod.fst).Nodup)
    (member : (name, node) ∈ entries) : get? name entries = some node := by
  induction entries with
  | nil => cases member
  | cons entry rest ih =>
      obtain ⟨first, old⟩ := entry
      rw [List.map_cons, List.nodup_cons] at distinct
      rcases List.mem_cons.mp member with same | later
      · cases same
        simp [get?]
      · have apart : first ≠ name := by
          rintro rfl
          exact distinct.1 (List.mem_map.mpr ⟨_, later, rfl⟩)
        simp only [get?, apart, if_false]
        exact ih distinct.2 later

end Entries

/-! ## Locations -/

namespace Node

variable {node new old child : Node} {location below : Location} {name : Text}

@[simp] theorem get?_nil (node : Node) : node.get? [] = some node := by rw [get?]

@[simp] theorem put_nil (new node : Node) : put new [] node = new := by rw [put]

theorem get?_append (node : Node) (location below : Location) :
    node.get? (location ++ below) = (node.get? location).bind (get? below) := by
  induction location generalizing node with
  | nil => rw [List.nil_append, get?_nil, Option.bind_some]
  | cons name rest ih =>
      rw [List.cons_append, get?, get?]
      cases Entries.get? name node.entries with
      | none => rfl
      | some child => exact ih child

theorem directory_of_get?_cons {rest : Location} (is : node.get? (name :: rest) = some child) :
    ∃ entries middle, node = .directory entries ∧ Entries.get? name entries = some middle ∧
      middle.get? rest = some child := by
  rw [get?] at is
  obtain ⟨middle, first, later⟩ := Option.bind_eq_some_iff.mp is
  cases node with
  | directory entries => exact ⟨entries, middle, rfl, first, later⟩
  | file content executable => cases first
  | link target => cases first

section Replace

variable (present : node.get? location = some old)

include present

theorem get?_put_append (new : Node) (below : Location) :
    (put new location node).get? (location ++ below) = new.get? below := by
  induction location generalizing node with
  | nil => rw [put_nil, List.nil_append]
  | cons name rest ih =>
      obtain ⟨entries, middle, rfl, first, later⟩ := directory_of_get?_cons present
      rw [put, List.cons_append, get?]
      simp only [Node.entries, Entries.get?_put_same, Option.bind_some, first, Option.getD_some]
      exact ih later

theorem get?_put_self (new : Node) : (put new location node).get? location = some new := by
  have here := get?_put_append present new []
  rwa [List.append_nil, get?_nil] at here

theorem get?_put_apart {other : Location} (new : Node) (noPrefix : ¬ location <+: other)
    (noSuffix : ¬ other <+: location) : (put new location node).get? other = node.get? other := by
  induction location generalizing node other with
  | nil => exact absurd List.nil_prefix noPrefix
  | cons name rest ih =>
      obtain ⟨entries, middle, rfl, first, later⟩ := directory_of_get?_cons present
      cases other with
      | nil => exact absurd List.nil_prefix noSuffix
      | cons otherName otherRest =>
          rw [put, get?, get?]
          simp only [Node.entries]
          by_cases same : name = otherName
          · subst same
            rw [List.cons_prefix_cons, and_iff_right rfl] at noPrefix noSuffix
            simp only [Entries.get?_put_same, first, Option.bind_some, Option.getD_some]
            exact ih later noPrefix noSuffix
          · rw [Entries.get?_put_other same]

theorem put_put (new next : Node) : put next location (put new location node) = put next location node := by
  induction location generalizing node with
  | nil => rw [put_nil, put_nil]
  | cons name rest ih =>
      obtain ⟨entries, middle, rfl, first, later⟩ := directory_of_get?_cons present
      simp only [put, Entries.get?_put_same, Entries.put_put, first, Option.getD_some, ih later]

theorem put_get? : put old location node = node := by
  induction location generalizing node with
  | nil =>
      rw [get?_nil, Option.some.injEq] at present
      rw [put_nil, present]
  | cons name rest ih =>
      obtain ⟨entries, middle, rfl, first, later⟩ := directory_of_get?_cons present
      simp only [put, first, Option.getD_some, ih later, Entries.put_get? first]

/-- What is put or erased below a node replaces the node. -/
theorem put_append (new : Node) (below : Location) :
    put new (location ++ below) node = put (put new below old) location node := by
  induction location generalizing node with
  | nil =>
      rw [get?_nil, Option.some.injEq] at present
      rw [List.nil_append, put_nil, present]
  | cons name rest ih =>
      obtain ⟨entries, middle, rfl, first, later⟩ := directory_of_get?_cons present
      simp only [List.cons_append, put, first, Option.getD_some, ih later]

theorem erase_append (below : Location) (nonempty : below ≠ []) :
    erase (location ++ below) node = put (erase below old) location node := by
  induction location generalizing node with
  | nil =>
      rw [get?_nil, Option.some.injEq] at present
      rw [List.nil_append, put_nil, present]
  | cons name rest ih =>
      obtain ⟨entries, middle, rfl, first, later⟩ := directory_of_get?_cons present
      have goesOn : rest ++ below ≠ [] := by simp [nonempty]
      obtain ⟨next, others, shape⟩ := List.exists_cons_of_ne_nil goesOn
      rw [List.cons_append, shape, erase, put]
      · simp only [first, Option.getD_some]
        rw [← shape, ih later]
      · simp

end Replace

section Entry

variable {entries : List (Text × Node)} (present : node.get? location = some (.directory entries))

include present

theorem get?_entry (name : Text) : node.get? (location ++ [name]) = Entries.get? name entries := by
  rw [get?_append, present, Option.bind_some, get?]
  cases is : Entries.get? name entries with
  | none => simp [Node.entries, is]
  | some child => simp [Node.entries, is]

theorem put_entry (name : Text) (new : Node) :
    put new (location ++ [name]) node = put (.directory (Entries.put name new entries)) location node := by
  rw [put_append present, put, put_nil]

theorem erase_entry (name : Text) :
    erase (location ++ [name]) node = put (.directory (Entries.erase name entries)) location node := by
  rw [erase_append present [name] (List.cons_ne_nil name []), erase]

/-- Where one entry of a directory is changed, what is elsewhere stays. -/
theorem get?_put_directory {changed : List (Text × Node)} {other : Location}
    (others : ∀ first, name ≠ first → Entries.get? first changed = Entries.get? first entries)
    (noPrefix : ¬ location ++ [name] <+: other) (noSuffix : ¬ other <+: location ++ [name]) :
    (put (.directory changed) location node).get? other = node.get? other := by
  by_cases inside : location <+: other
  · obtain ⟨rest, rfl⟩ := inside
    cases rest with
    | nil =>
        rw [List.append_nil] at noSuffix
        exact absurd (List.prefix_append location [name]) noSuffix
    | cons first later =>
        have apart : name ≠ first := by
          rintro rfl
          exact noPrefix ⟨later, by simp⟩
        rw [get?_put_append present, get?_append, present, Option.bind_some, get?, get?, Node.entries,
          Node.entries, others first apart]
  · exact get?_put_apart present _ inside fun above =>
      noSuffix (above.trans (List.prefix_append location [name]))

end Entry

theorem directory_of_below (is : node.get? (location ++ name :: below) = some child) :
    ∃ entries, node.get? location = some (.directory entries) := by
  rw [get?_append] at is
  obtain ⟨middle, here, later⟩ := Option.bind_eq_some_iff.mp is
  obtain ⟨entries, -, rfl, -⟩ := directory_of_get?_cons later
  exact ⟨entries, here⟩

end Node

/-! ## Plain trees -/

/-- Whether a text may be the name of an entry. -/
def Path.isName (segment : Text) : Bool :=
  !isVoid segment && segment != parentSegment && !segment.contains '/'

mutual

/-- Whether nothing at or below a node is a link, and every entry has a name of its own. -/
def Node.isPlain : Node → Bool
  | .file _ _ => true
  | .link _ => false
  | .directory entries => decide (entries.map Prod.fst).Nodup && Node.arePlain entries

/-- The same for the entries of a directory. -/
def Node.arePlain : List (Text × Node) → Bool
  | [] => true
  | (name, node) :: rest => Path.isName name && node.isPlain && Node.arePlain rest

end

namespace Node

theorem arePlain_iff {entries : List (Text × Node)} :
    arePlain entries = true ↔
      ∀ entry ∈ entries, Path.isName entry.1 = true ∧ entry.2.isPlain = true := by
  induction entries with
  | nil => simp [arePlain]
  | cons entry rest ih =>
      obtain ⟨name, node⟩ := entry
      simp [arePlain, ih]

theorem isPlain_directory {entries : List (Text × Node)} :
    (directory entries).isPlain = true ↔ (entries.map Prod.fst).Nodup ∧
      ∀ entry ∈ entries, Path.isName entry.1 = true ∧ entry.2.isPlain = true := by
  rw [isPlain, Bool.and_eq_true, decide_eq_true_iff, arePlain_iff]

end Node

theorem Entries.mem_put {name : Text} {node : Node} {entries : List (Text × Node)} {entry : Text × Node}
    (member : entry ∈ put name node entries) : entry = (name, node) ∨ entry ∈ entries := by
  induction entries with
  | nil => exact .inl (List.mem_singleton.mp member)
  | cons first rest ih =>
      obtain ⟨other, old⟩ := first
      by_cases same : other = name
      · simp only [put, same, if_true, List.mem_cons] at member
        exact member.imp_right (List.mem_cons_of_mem _)
      · simp only [put, same, if_false, List.mem_cons] at member
        rcases member with rfl | later
        · exact .inr (List.mem_cons_self ..)
        · exact (ih later).imp_right (List.mem_cons_of_mem _)

theorem Entries.nodup_put {entries : List (Text × Node)} (distinct : (entries.map Prod.fst).Nodup)
    (name : Text) (node : Node) : ((put name node entries).map Prod.fst).Nodup := by
  induction entries with
  | nil => simp [put]
  | cons first rest ih =>
      obtain ⟨other, old⟩ := first
      rw [List.map_cons, List.nodup_cons] at distinct
      by_cases same : other = name
      · simp only [put, same, if_true, List.map_cons, List.nodup_cons]
        exact same ▸ distinct
      · simp only [put, same, if_false, List.map_cons, List.nodup_cons]
        refine ⟨fun member => ?_, ih distinct.2⟩
        obtain ⟨entry, later, isOther⟩ := List.mem_map.mp member
        rcases mem_put later with rfl | old
        · exact same isOther.symm
        · exact distinct.1 (List.mem_map.mpr ⟨entry, old, isOther⟩)

namespace Node

variable {node new old child : Node} {location : Location} {name : Text} {entries : List (Text × Node)}

theorem isPlain_putEntry (plain : (directory entries).isPlain = true) (isName : Path.isName name = true)
    (newPlain : new.isPlain = true) : (directory (Entries.put name new entries)).isPlain = true := by
  obtain ⟨distinct, each⟩ := isPlain_directory.mp plain
  refine isPlain_directory.mpr ⟨Entries.nodup_put distinct name new, fun entry member => ?_⟩
  rcases Entries.mem_put member with rfl | old
  · exact ⟨isName, newPlain⟩
  · exact each entry old

theorem isPlain_eraseEntry (plain : (directory entries).isPlain = true) (name : Text) :
    (directory (Entries.erase name entries)).isPlain = true := by
  obtain ⟨distinct, each⟩ := isPlain_directory.mp plain
  have sublist : (Entries.erase name entries).Sublist entries := List.filter_sublist
  exact isPlain_directory.mpr ⟨distinct.sublist (sublist.map Prod.fst), fun entry member =>
    each entry (sublist.subset member)⟩

theorem isPlain_get? (plain : node.isPlain = true) (is : node.get? location = some child) :
    child.isPlain = true ∧ ∀ name ∈ location, Path.isName name = true := by
  induction location generalizing node with
  | nil =>
      rw [get?_nil, Option.some.injEq] at is
      exact ⟨is ▸ plain, nofun⟩
  | cons name rest ih =>
      obtain ⟨entries, middle, rfl, first, later⟩ := directory_of_get?_cons is
      obtain ⟨isName, middlePlain⟩ := (isPlain_directory.mp plain).2 _ (Entries.mem_of_get? first)
      obtain ⟨childPlain, names⟩ := ih middlePlain later
      exact ⟨childPlain, List.forall_mem_cons.mpr ⟨isName, names⟩⟩

theorem isPlain_put (plain : node.isPlain = true) (present : node.get? location = some old)
    (newPlain : new.isPlain = true) : (put new location node).isPlain = true := by
  induction location generalizing node with
  | nil => rwa [put_nil]
  | cons name rest ih =>
      obtain ⟨entries, middle, rfl, first, later⟩ := directory_of_get?_cons present
      obtain ⟨isName, middlePlain⟩ := (isPlain_directory.mp plain).2 _ (Entries.mem_of_get? first)
      simp only [put, first, Option.getD_some]
      exact isPlain_putEntry plain isName (ih middlePlain later)

end Node

/-! ## Orderly trees -/

mutual

/-- Whether every entry below a node has a name, and one of its own. Links may be among them. -/
def Node.isOrderly : Node → Bool
  | .file _ _ => true
  | .link _ => true
  | .directory entries => decide (entries.map Prod.fst).Nodup && Node.areOrderly entries

/-- The same for the entries of a directory. -/
def Node.areOrderly : List (Text × Node) → Bool
  | [] => true
  | (name, node) :: rest => Path.isName name && node.isOrderly && Node.areOrderly rest

end

namespace Node

theorem areOrderly_iff {entries : List (Text × Node)} :
    areOrderly entries = true ↔
      ∀ entry ∈ entries, Path.isName entry.1 = true ∧ entry.2.isOrderly = true := by
  induction entries with
  | nil => simp [areOrderly]
  | cons entry rest ih => simp [areOrderly, ih]

theorem isOrderly_directory {entries : List (Text × Node)} :
    (directory entries).isOrderly = true ↔ (entries.map Prod.fst).Nodup ∧
      ∀ entry ∈ entries, Path.isName entry.1 = true ∧ entry.2.isOrderly = true := by
  rw [isOrderly, Bool.and_eq_true, decide_eq_true_iff, areOrderly_iff]

mutual

theorem isOrderly_of_isPlain : ∀ {node : Node}, node.isPlain = true → node.isOrderly = true
  | .file _ _, _ => rfl
  | .directory entries, plain => by
      rw [isPlain, Bool.and_eq_true] at plain
      rw [isOrderly, plain.1, areOrderly_of_arePlain plain.2]
      rfl

theorem areOrderly_of_arePlain : ∀ {entries : List (Text × Node)}, arePlain entries = true → areOrderly entries = true
  | [], _ => rfl
  | (name, node) :: rest, plain => by
      rw [arePlain, Bool.and_eq_true, Bool.and_eq_true] at plain
      rw [areOrderly, plain.1.1, isOrderly_of_isPlain plain.1.2, areOrderly_of_arePlain plain.2]
      rfl

end

theorem isOrderly_get? {node found : Node} {location : Location} (orderly : node.isOrderly = true)
    (is : node.get? location = some found) : found.isOrderly = true := by
  induction location generalizing node with
  | nil =>
      rw [get?_nil, Option.some.injEq] at is
      exact is ▸ orderly
  | cons name rest ih =>
      obtain ⟨entries, middle, rfl, first, later⟩ := directory_of_get?_cons is
      exact ih ((isOrderly_directory.mp orderly).2 _ (Entries.mem_of_get? first)).2 later

end Node

end Relink
