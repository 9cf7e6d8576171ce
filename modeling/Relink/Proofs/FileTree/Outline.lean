import Relink.Proofs.FileTree.Writing

/-!
# Trees of the same outline

Where two trees have files, links and directories at the same locations, and the links lead to the same paths,
every path leads to the same place in both, whatever the files hold. Writing over a file leaves the outline.
-/

set_option autoImplicit false

namespace Relink

/-- A node without its contents and entries. -/
def Node.outline : Node → Node
  | .file _ _ => .file (.text []) false
  | .link target => .link target
  | .directory _ => .directory []

def Place.outline : Place → Place
  | .found location node => .found location node.outline
  | .absent directory name => .absent directory name

def Stride.outline : Stride → Stride
  | .arrived place => .arrived place.outline
  | .detour directory target rest => .detour directory target rest

theorem Node.isFile_outline (node : Node) : node.outline.isFile = node.isFile := by cases node <;> rfl

theorem Node.isDirectory_outline (node : Node) : node.outline.isDirectory = node.isDirectory := by
  cases node <;> rfl

namespace FileTree

theorem map_eq_error {ε α β : Type} {change : α → β} {result : Except ε α} {fault : ε} :
    result.map change = .error fault ↔ result = .error fault := by
  cases result <;> simp [Except.map]

theorem map_eq_ok {ε α β : Type} {change : α → β} {result : Except ε α} {value : β} :
    result.map change = .ok value ↔ ∃ before, result = .ok before ∧ change before = value := by
  cases result <;> simp [Except.map]

/-- Whether two trees have the same outline, seen from the same directory. -/
structure SameOutline (tree other : FileTree) : Prop where
  workingDirectory : other.workingDirectory = tree.workingDirectory
  nodes : ∀ location, (other.get? location).map Node.outline = (tree.get? location).map Node.outline

namespace SameOutline

theorem refl (tree : FileTree) : SameOutline tree tree := ⟨rfl, fun _ => rfl⟩

theorem trans {tree other later : FileTree} (first : SameOutline tree other) (second : SameOutline other later) :
    SameOutline tree later :=
  ⟨second.workingDirectory.trans first.workingDirectory,
    fun location => (second.nodes location).trans (first.nodes location)⟩

variable {tree other : FileTree} (same : SameOutline tree other)

include same

theorem hasDirectory (location : Location) : other.hasDirectory location = tree.hasDirectory location := by
  have nodes := same.nodes location
  unfold FileTree.hasDirectory
  cases there : tree.get? location with
  | none =>
      rw [there, Option.map_none, Option.map_eq_none_iff] at nodes
      rw [nodes]
  | some node =>
      rw [there, Option.map_some, Option.map_eq_some_iff] at nodes
      obtain ⟨otherNode, isOther, outlines⟩ := nodes
      rw [isOther, Option.any_some, Option.any_some, ← Node.isDirectory_outline, outlines,
        Node.isDirectory_outline]

theorem lookUp_eq (directory : Location) (name : Text) :
    (other.lookUp directory name).map (Option.map Node.outline) =
      (tree.lookUp directory name).map (Option.map Node.outline) := by
  unfold lookUp
  rw [same.hasDirectory]
  split
  · rfl
  split
  · rfl
  · rw [Except.map, Except.map, same.nodes]

theorem stride_eq (footing : Footing) (here : Location) (segments : List Text) :
    (other.stride footing here segments).map Stride.outline =
      (tree.stride footing here segments).map Stride.outline := by
  induction segments generalizing here with
  | nil =>
      have nodes := same.nodes here
      rw [stride, stride]
      cases there : tree.get? here with
      | none =>
          rw [there, Option.map_none, Option.map_eq_none_iff] at nodes
          rw [nodes]
      | some node =>
          rw [there, Option.map_some, Option.map_eq_some_iff] at nodes
          obtain ⟨otherNode, isOther, outlines⟩ := nodes
          rw [isOther]
          simp only [Except.map, Stride.outline, Place.outline, outlines]
  | cons segment rest ih =>
      rw [stride, stride]
      split
      · exact ih here
      split
      · exact ih here.dropLast
      split
      · rfl
      have entries := same.lookUp_eq here segment
      cases looked : tree.lookUp here segment with
      | error fault =>
          rw [looked] at entries
          rw [map_eq_error.mp entries]
      | ok entry =>
          rw [looked] at entries
          obtain ⟨otherEntry, otherLooked, outlines⟩ := map_eq_ok.mp entries
          rw [otherLooked]
          cases entry with
          | none =>
              rw [Option.map_none, Option.map_eq_none_iff] at outlines
              rw [outlines]
          | some node =>
              rw [Option.map_some, Option.map_eq_some_iff] at outlines
              obtain ⟨otherNode, rfl, outlines⟩ := outlines
              cases node <;> cases otherNode <;> try cases outlines
              · simp only
                split <;> rfl
              · rfl
              · exact ih (here ++ [segment])

theorem travel_eq (links : Nat) (footing : Footing) (here : Location) (segments : List Text) :
    (other.travel links footing here segments).map Place.outline =
      (tree.travel links footing here segments).map Place.outline := by
  induction links generalizing footing here segments with
  | zero => rfl
  | succ links ih =>
      have strides := same.stride_eq footing here segments
      rw [travel, travel]
      cases walked : tree.stride footing here segments with
      | error fault =>
          rw [walked] at strides
          rw [map_eq_error.mp strides]
      | ok stride =>
          rw [walked] at strides
          obtain ⟨otherStride, otherWalked, outlines⟩ := map_eq_ok.mp strides
          rw [otherWalked]
          cases stride with
          | arrived place =>
              cases otherStride with
              | arrived otherPlace => simpa [Except.map, Stride.outline] using outlines
              | detour directory target left => cases outlines
          | detour directory target left =>
              cases otherStride with
              | arrived otherPlace => cases outlines
              | detour otherDirectory otherTarget otherLeft =>
                  cases outlines
                  simp only
                  split
                  · rfl
                  · exact ih _ _ _

theorem place_eq (footing : Footing) (path : Path) :
    (other.place footing path).map Place.outline = (tree.place footing path).map Place.outline := by
  unfold place
  split
  · rfl
  · rw [journey, journey, same.workingDirectory]
    exact same.travel_eq _ _ _ _

theorem isFile_eq (path : Path) : other.isFile path = tree.isFile path := by
  have places := same.place_eq ⟨true, path.endsInSlash, false⟩ path
  rw [← placeOf, ← placeOf] at places
  unfold isFile node? resolve
  cases placed : tree.placeOf path with
  | error fault =>
      rw [placed] at places
      rw [map_eq_error.mp places]
  | ok place =>
      rw [placed] at places
      obtain ⟨otherPlace, otherPlaced, outlines⟩ := map_eq_ok.mp places
      rw [otherPlaced]
      cases place with
      | absent directory name =>
          cases otherPlace with
          | absent otherDirectory otherName => rfl
          | found location node => cases outlines
      | found location node =>
          cases otherPlace with
          | absent directory name => cases outlines
          | found otherLocation otherNode =>
              simp only [Place.outline, Place.found.injEq] at outlines
              simp only [arrive, Except.toOption, Option.map_some, Option.any_some]
              rw [← Node.isFile_outline, outlines.2, Node.isFile_outline]

end SameOutline

/-! ## Files that are written -/

theorem content?_put_file {tree : FileTree} {location : Location} (slot : tree.HasSlot location)
    (noDirectory : ¬ tree.hasDirectory location = true) (content : Content) (mark : Bool) (other : Location) :
    (tree.put location (.file content mark)).content? other =
      if other = location then some content else tree.content? other := by
  split
  · rename_i same
    rw [same]
    exact content?_eq_some.mpr ⟨mark, get?_put_self slot _⟩
  · rename_i apart
    rcases get?_put_leaf slot (.file content mark) rfl apart with ⟨below, hidden⟩ | ⟨is, stays⟩ | kept
    · rw [content?_missing hidden]
      cases there : tree.get? location with
      | none => rw [content?_missing (missing_below there below)]
      | some node =>
          cases node with
          | file old oldMark => rw [content?_missing (missing_below_leaf there rfl below apart)]
          | link target => rw [content?_missing (missing_below_leaf there rfl below apart)]
          | directory entries => exact absurd (hasDirectory_iff.mpr ⟨entries, there⟩) noDirectory
    · rw [content?_directory is, content?_directory stays]
    · exact content?_congr kept

section Over

variable {tree : FileTree} {location : Location} {old content : Content} {mark executable : Bool}
    (slot : tree.HasSlot location) (there : tree.get? location = some (.file old mark))

include slot there

theorem SameOutline.put : SameOutline tree (tree.put location (.file content executable)) := by
  refine ⟨rfl, fun other => ?_⟩
  by_cases same : other = location
  · rw [same, get?_put_self slot, there]
    rfl
  rcases get?_put_leaf slot (.file content executable) rfl same with ⟨below, hidden⟩ | ⟨is, stays⟩ | kept
  · rw [hidden, missing_below_leaf there rfl below same]
  · obtain ⟨entries, isDirectory⟩ := hasDirectory_iff.mp is
    obtain ⟨changed, staysDirectory⟩ := hasDirectory_iff.mp stays
    rw [isDirectory, staysDirectory]
    rfl
  · rw [kept]

theorem content?_put_over (other : Location) : (tree.put location (.file content executable)).content? other =
    if other = location then some content else tree.content? other := by
  refine content?_put_file slot (fun is => ?_) content executable other
  obtain ⟨entries, isDirectory⟩ := hasDirectory_iff.mp is
  rw [there] at isDirectory
  cases isDirectory

end Over

end FileTree

end Relink
