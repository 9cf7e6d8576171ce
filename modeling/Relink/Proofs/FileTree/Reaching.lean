import Relink.Proofs.FileTree.Opening

/-!
# Directories that paths reach

Where a path leads to a directory depends on its moves alone, in trees with links too, and it passes every directory
on the way: a path that ends in a name reaches the directory that the entry of this name is in. Where a later tree
keeps what a tree has, paths lead to the same places in both.
-/

set_option autoImplicit false

namespace Relink

theorem Path.movesOf_movesOf (segments : List Text) : movesOf (movesOf segments) = movesOf segments := by
  simp [movesOf]

/-- A node without its entries. -/
def Node.bare : Node → Node
  | .directory _ => .emptyDirectory
  | other => other

namespace Node

variable {node other : Node}

theorem bare_file {content : Content} {executable : Bool} (same : other.bare = (file content executable).bare) :
    other = .file content executable := by
  cases other <;> first | exact same | cases same

theorem bare_link {target : Path} (same : other.bare = (link target).bare) : other = .link target := by
  cases other <;> first | exact same | cases same

theorem bare_directory {entries : List (Text × Node)} (same : other.bare = (directory entries).bare) :
    ∃ others, other = .directory others := by
  cases other with
  | directory others => exact ⟨others, rfl⟩
  | file => cases same
  | link => cases same

end Node

namespace FileTree

/-! ## Trees that keep what was there -/

def bare? (tree : FileTree) (location : Location) : Option Node := (tree.get? location).map Node.bare

/-- Whether a later tree keeps what a tree has. Directories may get more entries. -/
structure Persists (tree later : FileTree) : Prop where
  workingDirectory : later.workingDirectory = tree.workingDirectory
  nodes : ∀ location node, tree.bare? location = some node → later.bare? location = some node

namespace Persists

theorem refl (tree : FileTree) : Persists tree tree := ⟨rfl, fun _ _ => id⟩

theorem trans {tree middle later : FileTree} (first : Persists tree middle) (second : Persists middle later) :
    Persists tree later :=
  ⟨second.workingDirectory.trans first.workingDirectory, fun location node there =>
    second.nodes location node (first.nodes location node there)⟩

variable {tree later : FileTree} (persists : Persists tree later)

include persists

theorem get? {location : Location} {node : Node} (there : tree.get? location = some node) :
    ∃ other, later.get? location = some other ∧ other.bare = node.bare := by
  have kept := persists.nodes location node.bare (by rw [bare?, there]; rfl)
  exact Option.map_eq_some_iff.mp kept

theorem hasDirectory {location : Location} (is : tree.hasDirectory location = true) :
    later.hasDirectory location = true := by
  obtain ⟨entries, there⟩ := hasDirectory_iff.mp is
  obtain ⟨other, isOther, same⟩ := persists.get? there
  obtain ⟨others, rfl⟩ := Node.bare_directory same
  exact hasDirectory_iff.mpr ⟨others, isOther⟩

theorem lookUp {directory : Location} {name : Text} {node : Node}
    (looked : tree.lookUp directory name = .ok (some node)) :
    ∃ other, later.lookUp directory name = .ok (some other) ∧ other.bare = node.bare := by
  obtain ⟨is, short, there⟩ := lookUp_ok looked
  obtain ⟨other, isOther, same⟩ := persists.get? there.symm
  exact ⟨other, by rw [lookUp_of_directory (persists.hasDirectory is) short, isOther], same⟩

/-! ### Walks -/

variable {footing : Footing} {here : Location} {segments : List Text}

theorem finds {name : Text} {node : Node} (finds : tree.Finds footing here name segments (some node)) :
    ∃ other, later.Finds footing here name segments (some other) ∧ other.bare = node.bare := by
  obtain ⟨other, looked, same⟩ := persists.lookUp finds.looked
  exact ⟨other, ⟨finds.current, finds.parent, finds.fits, looked⟩, same⟩

theorem stride {stride : Stride} (walked : tree.stride footing here segments = .ok stride) :
    (∀ location node, stride = .arrived (.found location node) →
      ∃ other, later.stride footing here segments = .ok (.arrived (.found location other)) ∧
        other.bare = node.bare) ∧
    ∀ directory target rest, stride = .detour directory target rest →
      later.stride footing here segments = .ok (.detour directory target rest) := by
  have strides := strides_iff.mp walked
  clear walked
  induction strides with
  | arrived there =>
      refine ⟨fun _ _ is => ?_, nofun⟩
      cases is
      obtain ⟨other, isOther, same⟩ := persists.get? there
      exact ⟨other, stride_nil isOther, same⟩
  | current _ ih =>
      rw [stride_current]
      exact ih
  | parent _ ih =>
      rw [stride_parent]
      exact ih
  | absent => exact ⟨nofun, nofun⟩
  | down finds _ ih =>
      obtain ⟨other, again, same⟩ := persists.finds finds
      obtain ⟨others, rfl⟩ := Node.bare_directory same
      rw [again.stride_down]
      exact ih
  | file finds noDirectory =>
      obtain ⟨other, again, same⟩ := persists.finds finds
      cases Node.bare_file same
      refine ⟨fun _ _ is => ?_, nofun⟩
      cases is
      exact ⟨_, strides_iff.mpr (.file again noDirectory), rfl⟩
  | link finds noDirectory stays =>
      obtain ⟨other, again, same⟩ := persists.finds finds
      cases Node.bare_link same
      refine ⟨fun _ _ is => ?_, nofun⟩
      cases is
      exact ⟨_, strides_iff.mpr (.link again noDirectory stays), rfl⟩
  | detour finds follows =>
      obtain ⟨other, again, same⟩ := persists.finds finds
      cases Node.bare_link same
      refine ⟨nofun, fun _ _ _ is => ?_⟩
      cases is
      exact strides_iff.mpr (.detour again follows)

theorem travel {links : Nat} {location : Location} {node : Node}
    (walked : tree.travel links footing here segments = .ok (.found location node)) :
    ∃ other, later.travel links footing here segments = .ok (.found location other) ∧ other.bare = node.bare := by
  have travels := travels_iff.mp walked
  clear walked
  generalize isPlace : Place.found location node = place at travels
  induction travels with
  | arrives arrived =>
      subst isPlace
      obtain ⟨other, isOther, same⟩ := (persists.stride arrived).1 _ _ rfl
      exact ⟨other, travels_iff.mpr (.arrives isOther), same⟩
  | follows detour named _ ih =>
      obtain ⟨other, isOther, same⟩ := ih isPlace
      have again := (persists.stride detour).2 _ _ _ rfl
      exact ⟨other, travels_iff.mpr (.follows again named (travels_iff.mp isOther)), same⟩

theorem journey {path : Path} {location : Location} {node : Node}
    (walked : tree.journey footing path segments = .ok (.found location node)) :
    ∃ other, later.journey footing path segments = .ok (.found location other) ∧ other.bare = node.bare := by
  rw [FileTree.journey, persists.workingDirectory]
  exact persists.travel walked

end Persists

variable {tree later : FileTree} {path : Path} {here base : Location} {segments moves : List Text}
  {entries : List (Text × Node)}

/-! ## Moves alone -/

/-- Where a stride comes to or goes on from, if that is a directory. -/
def onward : Except SystemFault Stride → Option ((Location × List (Text × Node)) ⊕ (Location × Path × List Text))
  | .ok (.arrived (.found location (.directory entries))) => some (.inl (location, entries))
  | .ok (.detour directory target rest) => some (.inr (directory, target, Path.movesOf rest))
  | _ => none

theorem stride_onward (tree : FileTree) (needsDirectory : Bool) (here : Location) (segments : List Text) :
    onward (tree.stride ⟨true, needsDirectory, false⟩ here segments) =
      onward (tree.stride ⟨true, true, false⟩ here (Path.movesOf segments)) := by
  induction segments generalizing here with
  | nil => rfl
  | cons segment rest ih =>
      by_cases current : segment = Path.currentSegment
      · rw [current, Path.movesOf_cons_current, stride_current, ih]
      rw [Path.movesOf_cons current]
      by_cases parent : segment = Path.parentSegment
      · rw [parent, stride_parent, stride_parent, ih]
      simp only [stride, if_neg current, if_neg parent, Bool.and_false, Bool.false_and, Bool.false_eq_true,
        if_false, Bool.not_true, Bool.and_true]
      split
      · rfl
      · split <;> split <;> rfl
      · exact ih _
      · split <;> rfl
      · simp only [onward, Path.movesOf_movesOf]

theorem onward_arrived {result : Except SystemFault Stride} :
    onward result = some (.inl (base, entries)) ↔ result = .ok (.arrived (.found base (.directory entries))) := by
  unfold onward
  split <;> simp_all

theorem onward_detour {result : Except SystemFault Stride} {directory : Location} {target : Path} :
    onward result = some (.inr (directory, target, moves)) ↔
      ∃ rest, result = .ok (.detour directory target rest) ∧ Path.movesOf rest = moves := by
  unfold onward
  split <;> simp_all [and_assoc]

/-- A walk comes to a directory or not, whatever the dots on its way, and whether or not it must. -/
theorem travel_moves (links : Nat) (needsDirectory : Bool) (here : Location) (segments : List Text) :
    tree.travel links ⟨true, needsDirectory, false⟩ here segments = .ok (.found base (.directory entries)) ↔
      tree.travel links ⟨true, true, false⟩ here (Path.movesOf segments) = .ok (.found base (.directory entries)) := by
  induction links generalizing needsDirectory here segments with
  | zero => simp [travel]
  | succ links ih =>
      -- What a walk comes to follows from where its first stride goes on.
      have step : ∀ needsDirectory here segments,
          tree.travel (links + 1) ⟨true, needsDirectory, false⟩ here segments = .ok (.found base (.directory entries)) ↔
            onward (tree.stride ⟨true, needsDirectory, false⟩ here segments) = some (.inl (base, entries)) ∨
            ∃ directory target moves,
              onward (tree.stride ⟨true, needsDirectory, false⟩ here segments) =
                some (.inr (directory, target, moves)) ∧ target.spelling ≠ [] ∧
              tree.travel links ⟨true, true, false⟩ (startOf directory target)
                (Path.movesOf target.steps ++ moves) = .ok (.found base (.directory entries)) := by
        intro needsDirectory here segments
        simp only [onward_arrived, onward_detour]
        rw [travel]
        cases walked : tree.stride ⟨true, needsDirectory, false⟩ here segments with
        | error fault => simp
        | ok stride =>
            cases stride with
            | arrived place => simp
            | detour directory target rest =>
                by_cases named : target.spelling = []
                · simp [named]
                · simp only [if_neg named]
                  rw [ih, Path.movesOf_append]
                  simp [named]
      rw [step, step, stride_onward, stride_onward tree true, Path.movesOf_movesOf]

/-- Whether moves from where a path starts come to a directory. -/
def Reaches (tree : FileTree) (path : Path) (moves : List Text) (base : Location) (entries : List (Text × Node)) :
    Prop :=
  tree.journey ⟨true, true, false⟩ path moves = .ok (.found base (.directory entries))

theorem reaches_of_journey {needsDirectory : Bool} (walked :
    tree.journey ⟨true, needsDirectory, false⟩ path segments = .ok (.found base (.directory entries))) :
    tree.Reaches path (Path.movesOf segments) base entries := (travel_moves ..).mp walked

theorem Reaches.journey (reaches : tree.Reaches path (Path.movesOf segments) base entries) (needsDirectory : Bool) :
    tree.journey ⟨true, needsDirectory, false⟩ path segments = .ok (.found base (.directory entries)) :=
  (travel_moves ..).mpr reaches

/-- A path names a directory where its moves reach one. -/
theorem resolve_directory_iff : tree.resolve path = .ok (base, .directory entries) ↔
    path.spellingFault? = none ∧ tree.Reaches path path.moves base entries := by
  constructor
  · intro resolved
    have placed := resolve_ok resolved
    unfold placeOf place at placed
    split at placed
    · cases placed
    · exact ⟨‹_›, reaches_of_journey placed⟩
  · rintro ⟨spelled, reaches⟩
    rw [resolve, placeOf, place, spelled]
    exact congrArg arrive (reaches.journey _)

theorem isDirectory_iff_resolve : tree.isDirectory path = true ↔
    ∃ base entries, tree.resolve path = .ok (base, .directory entries) := by
  rw [isDirectory, node?]
  cases tree.resolve path with
  | error fault => simp [Except.toOption]
  | ok found =>
      obtain ⟨base, node⟩ := found
      cases node <;> simp [Except.toOption, Node.isDirectory]

theorem Persists.reaches (persists : Persists tree later) (reaches : tree.Reaches path moves base entries) :
    ∃ others, later.Reaches path moves base others := by
  obtain ⟨other, walked, same⟩ := persists.journey reaches
  obtain ⟨others, rfl⟩ := Node.bare_directory same
  exact ⟨others, walked⟩

theorem Persists.resolve_directory (persists : Persists tree later)
    (resolved : tree.resolve path = .ok (base, .directory entries)) :
    ∃ others, later.resolve path = .ok (base, .directory others) := by
  obtain ⟨spelled, reaches⟩ := resolve_directory_iff.mp resolved
  obtain ⟨others, again⟩ := persists.reaches reaches
  exact ⟨others, resolve_directory_iff.mpr ⟨spelled, again⟩⟩

theorem Reaches.hasDirectory (reaches : tree.Reaches path moves base entries) : tree.hasDirectory base = true :=
  hasDirectory_iff.mpr ⟨entries, get?_of_travel reaches⟩

/-! ## One name more -/

section Name

variable {footing : Footing} {name : Text} (current : name ≠ Path.currentSegment) (parent : name ≠ Path.parentSegment)

include current parent

/-- A stride gets to its last name from a directory, or from a link before it. -/
theorem stride_concat {stride : Stride} (walked : tree.stride footing here (segments ++ [name]) = .ok stride) :
    (∃ base entries,
        tree.stride ⟨true, true, false⟩ here segments = .ok (.arrived (.found base (.directory entries)))) ∨
      ∃ directory target rest, tree.stride ⟨true, true, false⟩ here segments = .ok (.detour directory target rest) := by
  induction segments generalizing here with
  | nil =>
      have is : tree.hasDirectory here = true := by
        cases strides_iff.mp walked with
        | current => exact absurd rfl current
        | parent => exact absurd rfl parent
        | absent finds | down finds | file finds | link finds | detour finds => exact (lookUp_ok finds.looked).1
      obtain ⟨entries, there⟩ := hasDirectory_iff.mp is
      exact .inl ⟨here, entries, stride_nil there⟩
  | cons segment rest ih =>
      -- The last name is still to come, so a name is a directory's or a link's.
      have more : rest ++ [name] ≠ [] := by simp
      rw [List.cons_append] at walked
      generalize behind : rest ++ [name] = others at walked more
      cases strides_iff.mp walked with
      | current strides =>
          rw [stride_current]
          exact ih (behind ▸ strides_iff.mpr strides)
      | parent strides =>
          rw [stride_parent]
          exact ih (behind ▸ strides_iff.mpr strides)
      | absent | file | link => exact absurd rfl more
      | down finds strides =>
          have again : tree.Finds ⟨true, true, false⟩ here segment rest _ :=
            ⟨finds.current, finds.parent, by simp, finds.looked⟩
          rw [again.stride_down]
          exact ih (behind ▸ strides_iff.mpr strides)
      | @detour _ _ _ target finds =>
          refine .inr ⟨here, target, rest, strides_iff.mpr (.detour ?_ (by simp))⟩
          exact ⟨finds.current, finds.parent, by simp, finds.looked⟩

theorem travel_concat {links : Nat} {place : Place}
    (walked : tree.travel links footing here (segments ++ [name]) = .ok place) :
    ∃ base entries, tree.travel links ⟨true, true, false⟩ here segments = .ok (.found base (.directory entries)) := by
  induction links generalizing footing here segments with
  | zero => cases walked
  | succ links ih =>
      have strides : ∃ stride, tree.stride footing here (segments ++ [name]) = .ok stride := by
        cases travels_iff.mp walked with
        | arrives strode | follows strode => exact ⟨_, strode⟩
      obtain ⟨stride, strode⟩ := strides
      rcases stride_concat current parent strode with ⟨base, entries, arrived⟩ | ⟨directory, target, rest, detour⟩
      · exact ⟨base, entries, by rw [travel, arrived]⟩
      · rw [travel, (stride_continue (List.cons_ne_nil name []) detour footing).2 directory target rest rfl] at walked
        simp only [← List.append_assoc] at walked
        split at walked
        · cases walked
        rename_i named
        obtain ⟨base, entries, goesOn⟩ := ih walked
        refine ⟨base, entries, ?_⟩
        rw [travel, detour]
        simp only [if_neg named, Bool.true_or]
        exact goesOn

/-- A path that reaches a directory by a name reaches the one that has the entry of this name. -/
theorem reaches_concat (reaches : tree.Reaches path (moves ++ [name]) base entries) :
    ∃ directory others node, tree.Reaches path moves directory others ∧
      tree.lookUp directory name = .ok (some node) := by
  obtain ⟨directory, others, before⟩ := travel_concat current parent reaches
  obtain ⟨left, goesOn⟩ := travel_continue (List.cons_ne_nil name []) before
  rw [Reaches, journey, goesOn, travel, stride, if_neg current, if_neg parent] at reaches
  cases looked : tree.lookUp directory name with
  | error fault =>
      rw [looked] at reaches
      cases reaches
  | ok found =>
      cases found with
      | none =>
          rw [looked] at reaches
          cases reaches
      | some node => exact ⟨directory, others, node, before, looked⟩

/-- Behind a directory that a walk has come to, a name leads to its entry there. -/
theorem travel_name {links : Nat} {node : Node} (looked : tree.lookUp here name = .ok (some node))
    (noFile : footing.makesFile = false)
    (fits : node.isDirectory = true ∨ footing.needsDirectory = false ∧ footing.followLast = false) :
    tree.travel (links + 1) footing here [name] = .ok (.found (here ++ [name]) node) := by
  have there := (lookUp_ok looked).2.2
  rw [travel, stride, if_neg current, if_neg parent, noFile, looked]
  cases node with
  | directory => simp [stride, ← there]
  | file =>
      obtain ⟨notNeeded, -⟩ := fits.resolve_left Bool.false_ne_true
      simp [notNeeded]
  | link =>
      obtain ⟨notNeeded, notFollowed⟩ := fits.resolve_left Bool.false_ne_true
      simp [notNeeded, notFollowed]

end Name

/-! ## Landings -/

/-- Whether a path ends in a name and reaches a directory before it. -/
structure LandsAt (tree : FileTree) (path : Path) (directory : Location) (name : Text) : Prop where
  spelled : path.spellingFault? = none
  ends : ∃ front entries, path.steps = front ++ [name] ∧
    tree.Reaches path (Path.movesOf front) directory entries
  isName : Path.isName name = true

theorem landsAt_of_landing {landing : Landing} (landed : tree.landing path = .ok landing)
    (isEntry : landing.isEntry = true) {found : Option Node}
    (looked : tree.lookUp landing.directory landing.segment = .ok found) :
    tree.LandsAt path landing.directory landing.segment ∧ landing.spelledDirectory = path.endsInSlash := by
  have is := (lookUp_ok looked).1
  unfold FileTree.landing at landed
  split at landed
  · cases landed
  · cases landed
    cases isEntry
  · rename_i last spelled isLast
    split at landed
    · cases landed
    · cases landed
    · rename_i location node walked
      cases landed
      obtain ⟨front, split⟩ := List.getLast?_eq_some_iff.mp isLast
      simp only [Landing.isEntry, Bool.and_eq_true, bne_iff_ne] at isEntry
      have member : last ∈ path.steps := by simp [split]
      obtain ⟨entries, there⟩ := hasDirectory_iff.mp is
      obtain rfl := Option.some.inj ((get?_of_travel walked).symm.trans there)
      rw [split, List.dropLast_concat] at walked
      exact ⟨⟨spelled, ⟨front, entries, split, reaches_of_journey walked⟩,
        Path.isName_of_mem_steps member isEntry.1.2 isEntry.2⟩, rfl⟩

namespace LandsAt

variable {directory : Location} {name : Text} (lands : tree.LandsAt path directory name)

include lands

theorem hasSlot : tree.HasSlot (directory ++ [name]) := by
  obtain ⟨front, entries, -, reaches⟩ := lands.ends
  exact ⟨directory, name, rfl, lands.isName, reaches.hasDirectory⟩

theorem place_eq {footing : Footing} {node : Node} (looked : tree.lookUp directory name = .ok (some node))
    (noFile : footing.makesFile = false)
    (fits : node.isDirectory = true ∨ footing.needsDirectory = false ∧ footing.followLast = false) :
    tree.place footing path = .ok (.found (directory ++ [name]) node) := by
  obtain ⟨front, entries, split, reaches⟩ := lands.ends
  obtain ⟨left, goesOn⟩ := travel_continue (List.cons_ne_nil name []) (reaches.journey true)
  rw [place, lands.spelled, split]
  exact (goesOn footing).trans (travel_name (Path.ne_current_of_isName lands.isName)
    (Path.ne_parent_of_isName lands.isName) looked noFile fits)

theorem resolve_eq (looked : tree.lookUp directory name = .ok (some (.directory entries))) :
    tree.resolve path = .ok (directory ++ [name], .directory entries) := by
  have placed : tree.placeOf path = _ := lands.place_eq looked rfl (.inl rfl)
  rw [resolve, placed]
  rfl

theorem persists (persists : Persists tree later) : later.LandsAt path directory name := by
  obtain ⟨front, entries, split, reaches⟩ := lands.ends
  obtain ⟨others, again⟩ := persists.reaches reaches
  exact ⟨lands.spelled, ⟨front, others, split, again⟩, lands.isName⟩

end LandsAt

end FileTree

end Relink
