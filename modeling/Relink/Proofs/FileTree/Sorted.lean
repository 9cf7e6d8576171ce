import Relink.Proofs.FileTree.Distinct
import Relink.Proofs.Text.Octet

/-!
# Sorted listings

A walk that goes through every directory in the order of its names comes to the files in one order of their
locations, name by name from the top. So a listing does not tell in which order a directory has its entries.
-/

set_option autoImplicit false

namespace Relink

/-- The order of locations by the bytes of the first names in which they differ, read from the top. -/
def Location.Before : Location → Location → Prop := List.Lex fun name next => Octet.before name next = true

theorem Location.Before.asymm {one other : Location} (first : one.Before other) : ¬ other.Before one := by
  induction first with
  | nil => nofun
  | @cons name one other before ih =>
      intro back
      cases back with
      | cons behind => exact ih behind
      | rel same => exact absurd same (by simp [Octet.before_asymm same])
  | rel before =>
      intro back
      cases back with
      | cons behind => exact absurd before (by simp [Octet.before_asymm before])
      | rel behind => exact absurd behind (by simp [Octet.before_asymm before])

namespace Listing

variable {α : Type}

theorem insertByName_sorted {entry : Text × α} {sorted : List (Text × α)}
    (is : sorted.Pairwise fun one other => Octet.before one.1 other.1 = true)
    (apart : ∀ other ∈ sorted, entry.1 ≠ other.1) :
    (insertByName entry sorted).Pairwise fun one other => Octet.before one.1 other.1 = true := by
  induction sorted with
  | nil => exact List.pairwise_singleton _ entry
  | cons other rest ih =>
      rw [List.forall_mem_cons] at apart
      obtain ⟨first, later⟩ := List.pairwise_cons.mp is
      rw [insertByName]
      split
      · rename_i behind
        refine List.pairwise_cons.mpr ⟨fun next member => ?_, ih later apart.2⟩
        rcases List.mem_cons.mp ((insertByName_perm entry rest).mem_iff.mp member) with rfl | old
        · exact behind
        · exact first next old
      · rename_i ahead
        have before := Octet.before_of_ne (Ne.symm apart.1) (by simpa using ahead)
        exact List.pairwise_cons.mpr ⟨List.forall_mem_cons.mpr
          ⟨before, fun next member => Octet.before_trans before (first next member)⟩, is⟩

theorem sortByName_sorted {entries : List (Text × α)} (distinct : (entries.map Prod.fst).Nodup) :
    (sortByName entries).Pairwise fun one other => Octet.before one.1 other.1 = true := by
  induction entries with
  | nil => exact .nil
  | cons entry rest ih =>
      rw [List.map_cons, List.nodup_cons] at distinct
      refine insertByName_sorted (ih distinct.2) fun other member same => distinct.1 ?_
      rw [same]
      exact List.mem_map_of_mem ((sortByName_perm rest).mem_iff.mp member)

theorem gather_sorted {listed : List (Text × List Location)} (distinct : (listed.map Prod.fst).Nodup)
    (each : ∀ entry ∈ listed, entry.2.Pairwise Location.Before) : (gather listed).Pairwise Location.Before := by
  rw [gather, List.pairwise_flatMap]
  refine ⟨fun entry member => ?_, (sortByName_sorted distinct).imp fun {one other} before => ?_⟩
  · exact List.pairwise_map.mpr ((each entry ((sortByName_perm listed).mem_iff.mp member)).imp .cons)
  · -- Below different entries the first names decide, however long the rest is.
    intro location inOne otherLocation inOther
    obtain ⟨below, -, rfl⟩ := List.mem_map.mp inOne
    obtain ⟨otherBelow, -, rfl⟩ := List.mem_map.mp inOther
    exact .rel before

end Listing

namespace Node

mutual

theorem files_sorted : ∀ {node : Node}, node.isOrderly = true → node.files.Pairwise Location.Before
  | .file _ _, _ => List.pairwise_singleton _ []
  | .link _, _ => .nil
  | .directory entries, orderly => by
      obtain ⟨distinct, each⟩ := isOrderly_directory.mp orderly
      rw [files]
      refine Listing.gather_sorted ?_ (filesOfEntries_sorted fun entry member => (each entry member).2)
      rwa [filesOfEntries_eq, List.map_map]

theorem filesOfEntries_sorted : ∀ {entries : List (Text × Node)}, (∀ entry ∈ entries, entry.2.isOrderly = true) →
    ∀ listed ∈ filesOfEntries entries, listed.2.Pairwise Location.Before
  | [], _ => nofun
  | (name, node) :: rest, orderly => by
      rw [List.forall_mem_cons] at orderly
      rw [filesOfEntries, List.forall_mem_cons]
      exact ⟨files_sorted orderly.1, filesOfEntries_sorted orderly.2⟩

end

/-- Where the same files are at and below two nodes, they are listed in the same order. -/
theorem files_eq {node other : Node} (orderly : node.isOrderly = true) (otherOrderly : other.isOrderly = true)
    (same : ∀ location, location ∈ node.files ↔ location ∈ other.files) : node.files = other.files :=
  List.Perm.eq_of_pairwise (fun _ _ _ _ before after => absurd after before.asymm) (files_sorted orderly)
    (files_sorted otherOrderly)
    ((List.perm_ext_iff_of_nodup (files_nodup orderly) (files_nodup otherOrderly)).mpr same)

end Node

/-! ## Other orders of entries -/

mutual

/-- Two nodes that differ in nothing but the orders in which directories have their entries. -/
inductive Node.Rearranged : Node → Node → Prop where
  | file (content : Content) (executable : Bool) :
      Node.Rearranged (.file content executable) (.file content executable)
  | link (target : Path) : Node.Rearranged (.link target) (.link target)
  | directory {entries middle others : List (Text × Node)} :
      Entries.Rearranged entries middle → middle.Perm others → Node.Rearranged (.directory entries) (.directory others)

/-- The same for the entries of a directory, one by one. -/
inductive Entries.Rearranged : List (Text × Node) → List (Text × Node) → Prop where
  | nil : Entries.Rearranged [] []
  | cons (name : Text) {node other : Node} {rest others : List (Text × Node)} :
      Node.Rearranged node other → Entries.Rearranged rest others →
      Entries.Rearranged ((name, node) :: rest) ((name, other) :: others)

end

namespace Node

theorem mem_files_cons {name : Text} {node : Node} {rest : List (Text × Node)} {location : Location} :
    location ∈ (directory ((name, node) :: rest)).files ↔
      (∃ below ∈ node.files, name :: below = location) ∨ location ∈ (directory rest).files := by
  simp only [mem_files_directory, List.exists_mem_cons_iff]

theorem Rearranged.isDirectory {node other : Node} (same : node.Rearranged other) :
    other.isDirectory = node.isDirectory := by
  cases same <;> rfl

end Node

theorem Entries.Rearranged.names {entries others : List (Text × Node)} (same : Entries.Rearranged entries others) :
    others.map Prod.fst = entries.map Prod.fst := by
  induction entries generalizing others with
  | nil =>
      cases same
      rfl
  | cons entry rest ih =>
      cases same with
      | cons name node later => rw [List.map_cons, List.map_cons, ih later]

mutual

theorem Node.Rearranged.isOrderly : ∀ {node other : Node}, node.Rearranged other → node.isOrderly = true →
    other.isOrderly = true
  | _, _, .file _ _, _ => rfl
  | _, _, .link _, _ => rfl
  | _, _, .directory each perm, orderly => by
      rw [Node.isOrderly, Bool.and_eq_true, decide_eq_true_iff] at orderly
      refine Node.isOrderly_directory.mpr ⟨?_, fun entry member => ?_⟩
      · rw [← (perm.map Prod.fst).nodup_iff, each.names]
        exact orderly.1
      · exact Node.areOrderly_iff.mp (each.areOrderly orderly.2) entry (perm.mem_iff.mpr member)

theorem Entries.Rearranged.areOrderly : ∀ {entries others : List (Text × Node)}, Entries.Rearranged entries others →
    Node.areOrderly entries = true → Node.areOrderly others = true
  | _, _, .nil, _ => rfl
  | _, _, .cons name node rest, orderly => by
      rw [Node.areOrderly, Bool.and_eq_true, Bool.and_eq_true] at orderly ⊢
      exact ⟨⟨orderly.1.1, node.isOrderly orderly.1.2⟩, rest.areOrderly orderly.2⟩

end

mutual

theorem Node.Rearranged.mem_files : ∀ {node other : Node}, node.Rearranged other → ∀ {location : Location},
    location ∈ node.files ↔ location ∈ other.files
  | _, _, .file _ _, _ => Iff.rfl
  | _, _, .link _, _ => Iff.rfl
  | _, _, .directory each perm, _ =>
      each.mem_files.trans (by simp only [Node.mem_files_directory, perm.mem_iff])

theorem Entries.Rearranged.mem_files : ∀ {entries others : List (Text × Node)}, Entries.Rearranged entries others →
    ∀ {location : Location}, location ∈ (Node.directory entries).files ↔ location ∈ (Node.directory others).files
  | _, _, .nil, _ => Iff.rfl
  | _, _, .cons _ node rest, _ => by
      rw [Node.mem_files_cons, Node.mem_files_cons, rest.mem_files]
      simp only [node.mem_files]

end

/-- A listing does not tell in which orders directories have their entries. -/
theorem Node.Rearranged.files {node other : Node} (same : node.Rearranged other) (orderly : node.isOrderly = true) :
    other.files = node.files :=
  Node.files_eq (same.isOrderly orderly) orderly fun _ => same.mem_files.symm

end Relink
