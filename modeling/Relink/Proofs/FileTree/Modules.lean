import Relink.Pass
import Relink.Proofs.FileTree.Opening

/-!
# Modules of a tree

A pass over modules that are different files of a tree leaves its outline. So every module comes to what its own
text comes to on the tree as it was before the pass, and no other file is changed.
-/

set_option autoImplicit false

namespace Relink

/-- What a module comes to that has that text. -/
def moduleResult (isFile : Path → Bool) (options : Options) (file : Path) (text : Text) :
    Except ModuleFault Outcome :=
  match relinkText isFile options file text with
  | .error fault => .error (.unparsable file fault)
  | .ok relinking => .ok relinking.outcome

/-- The text that a module has once it is relinked: the new one, or the one it had if there is none. -/
def moduleText (isFile : Path → Bool) (options : Options) (file : Path) (text : Text) : Text :=
  match relinkText isFile options file text with
  | .error _ => text
  | .ok relinking => relinking.outcome.text.getD text

namespace FileTree

variable {tree : FileTree} {path : Path} {content : Content}

/-! ## Files that paths name -/

theorem Holds.opens (holds : tree.Holds path content) :
    tree.Opens path (path.locationFrom tree.workingDirectory) content := by
  obtain ⟨directory, name, ends, short, noSlash, there⟩ := holds
  obtain ⟨mark, is⟩ := content?_eq_some.mp there
  rw [ends.location_eq]
  exact ⟨ends.hasSlot, ⟨mark, ends.place_file short is noSlash⟩, ⟨mark, ends.place_file short is noSlash⟩⟩

/-! ## One module -/

theorem relinkModule_opens (options : Options) {location : Location} {text : Text}
    (opens : tree.Opens path location (.text text)) :
    (relinkModule options tree path).result = moduleResult tree.isFile options path text ∧
      Overwrites tree (relinkModule options tree path).files ∧
      ∀ other, (relinkModule options tree path).files.content? other =
        if other = location then some (.text (moduleText tree.isFile options path text)) else tree.content? other := by
  have unread : ∀ other, tree.content? other = if other = location then some (.text text) else tree.content? other := by
    intro other
    split
    · rename_i same
      rw [same, opens.content?_eq]
    · rfl
  have isRead : ModuleFiles.read tree path = .ok text := opens.readText
  have sameCheck : ModuleFiles.isFile tree = tree.isFile := rfl
  rw [relinkModule, isRead, sameCheck, moduleResult, moduleText]
  cases parsed : relinkText tree.isFile options path text with
  | error fault =>
      simp only [parsed]
      exact ⟨trivial, .same, unread⟩
  | ok relinking =>
      cases isText : relinking.outcome.text with
      | none =>
          simp only [parsed, writeOutcome, isText, Option.getD_none]
          exact ⟨trivial, .same, unread⟩
      | some newText =>
          obtain ⟨old, there⟩ := opens.there
          obtain ⟨mark, isWritten⟩ := opens.writeText newText
          have written : ModuleFiles.write tree path newText = _ := isWritten
          simp only [parsed, writeOutcome, isText, written, Option.getD_some]
          exact ⟨trivial, .write .same opens.slot there, content?_put_over opens.slot there⟩

/-! ## A pass -/

section Pass

variable {α : Type} (options : Options) (root : Path) (path : α → Path) (text : α → Text)

/-- What a pass makes of modules that are open at places, each given with its text. -/
structure Passed (place : α → Location) (tree : FileTree) (modules : List α)
    (run : Run FileTree (List ModuleReport)) : Prop where
  overwrites : Overwrites tree run.files
  reports : run.result = modules.map fun entry => ⟨path entry,
    ModuleStatus.ofResult (moduleResult tree.isFile options (root.join (path entry)) (text entry))⟩
  texts : ∀ entry ∈ modules, run.files.content? (place entry) =
    some (.text (moduleText tree.isFile options (root.join (path entry)) (text entry)))
  others : ∀ location, (∀ entry ∈ modules, place entry ≠ location) →
    run.files.content? location = tree.content? location

theorem relinkModules_opens {place : α → Location} {modules : List α}
    (opens : ∀ entry ∈ modules, tree.Opens (root.join (path entry)) (place entry) (.text (text entry)))
    (apart : modules.Pairwise fun one other => place one ≠ place other) :
    Passed options root path text place tree modules (relinkModules options root tree (modules.map path)) := by
  induction modules generalizing tree with
  | nil => exact ⟨.same, rfl, nofun, fun _ _ => rfl⟩
  | cons first rest ih =>
      rw [List.forall_mem_cons] at opens
      rw [List.pairwise_cons] at apart
      obtain ⟨result, overwrites, contents⟩ := relinkModule_opens options opens.1
      have outline := overwrites.outline
      have checks := funext outline.isFile_eq
      -- The other modules are read as they were, and their checks are answered as before.
      obtain ⟨later, reports, texts, others⟩ := @ih (relinkModule options tree (root.join (path first))).files
        (fun entry member => outline.opens (opens.2 entry member) (by
          rw [contents, if_neg (apart.1 entry member).symm, (opens.2 entry member).content?_eq]))
        apart.2
      rw [checks] at reports texts
      rw [List.map_cons]
      refine ⟨overwrites.trans later, ?_, ?_, ?_⟩
      · rw [relinkModules, List.map_cons, result, reports]
      · rw [List.forall_mem_cons]
        refine ⟨?_, texts⟩
        exact (others _ fun entry member => (apart.1 entry member).symm).trans (by rw [contents, if_pos rfl])
      · intro location notThere
        rw [List.forall_mem_cons] at notThere
        exact (others location notThere.2).trans (by rw [contents, if_neg notThere.1.symm])

/-- What a pass makes of modules below a root, each given with its text. -/
structure Relinked (tree : FileTree) (modules : List α) (run : Run FileTree (List ModuleReport)) : Prop where
  outline : SameOutline tree run.files
  reports : run.result = modules.map fun entry => ⟨path entry,
    ModuleStatus.ofResult (moduleResult tree.isFile options (root.join (path entry)) (text entry))⟩
  texts : ∀ entry ∈ modules, run.files.content? ((root.join (path entry)).locationFrom tree.workingDirectory) =
    some (.text (moduleText tree.isFile options (root.join (path entry)) (text entry)))
  others : ∀ location,
    (∀ entry ∈ modules, (root.join (path entry)).locationFrom tree.workingDirectory ≠ location) →
      run.files.content? location = tree.content? location

theorem relinkModules_holds {modules : List α}
    (holds : ∀ entry ∈ modules, tree.Holds (root.join (path entry)) (.text (text entry)))
    (apart : modules.Pairwise fun one other => (root.join (path one)).locationFrom tree.workingDirectory ≠
      (root.join (path other)).locationFrom tree.workingDirectory) :
    Relinked options root path text tree modules (relinkModules options root tree (modules.map path)) := by
  obtain ⟨overwrites, reports, texts, others⟩ :=
    relinkModules_opens options root path text (fun entry member => (holds entry member).opens) apart
  exact ⟨overwrites.outline, reports, texts, others⟩

end Pass

end FileTree

end Relink
