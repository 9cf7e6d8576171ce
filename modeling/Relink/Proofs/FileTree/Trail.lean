import Relink.FileTree.Walk
import Relink.Proofs.FileTree.Node
import Relink.Proofs.Path.Moves

/-!
# Walks without links

Where nothing is a link, a walk goes where its moves say: a name leads one location down and `..` one up. It
comes to a directory where all that it passes are directories, and to what is under its last name, or to
nothing, where that holds for all the moves before.
-/

set_option autoImplicit false

namespace Relink

/-! ## Trails -/

namespace Location

/-- Where a move leads. -/
def after (here : Location) (move : Text) : Location :=
  if move = Path.parentSegment then here.dropLast else here ++ [move]

def along (here : Location) (moves : List Text) : Location := moves.foldl after here

/-- What moves pass, from where they start to where they lead. -/
def trail (here : Location) : List Text → List Location
  | [] => [here]
  | move :: rest => here :: trail (after here move) rest

theorem after_name {move : Text} (isName : move ≠ Path.parentSegment) (here : Location) :
    after here move = here ++ [move] := by rw [after, if_neg isName]

@[simp] theorem along_nil (here : Location) : along here [] = here := rfl

@[simp] theorem along_cons (here : Location) (move : Text) (rest : List Text) :
    along here (move :: rest) = along (after here move) rest := rfl

theorem along_append (here : Location) (first later : List Text) :
    along here (first ++ later) = along (along here first) later := List.foldl_append ..

theorem along_concat (here : Location) (moves : List Text) {name : Text} (isName : name ≠ Path.parentSegment) :
    along here (moves ++ [name]) = along here moves ++ [name] := by
  rw [along_append, along_cons, along_nil, after_name isName]

theorem along_names {here names : Location} (each : ∀ name ∈ names, name ≠ Path.parentSegment) :
    along here names = here ++ names := by
  induction names generalizing here with
  | nil => simp
  | cons name rest ih =>
      rw [List.forall_mem_cons] at each
      rw [along_cons, after_name each.1, ih each.2, List.append_assoc, List.singleton_append]

theorem mem_trail_start (here : Location) (moves : List Text) : here ∈ trail here moves := by
  cases moves with
  | nil => exact List.mem_singleton.mpr rfl
  | cons move rest => exact List.mem_cons_self ..

theorem mem_trail_append {here location : Location} {first later : List Text} :
    location ∈ trail here (first ++ later) ↔
      location ∈ trail here first ∨ location ∈ trail (along here first) later := by
  induction first generalizing here with
  | nil =>
      refine ⟨.inr, fun either => ?_⟩
      rcases either with start | there
      · rw [List.mem_singleton.mp start]
        exact mem_trail_start here later
      · exact there
  | cons move rest ih => simp only [List.cons_append, trail, List.mem_cons, ih, along_cons, or_assoc]

theorem mem_trail_end (here : Location) (moves : List Text) : along here moves ∈ trail here moves := by
  have whole := @mem_trail_append here (along here moves) moves []
  rw [List.append_nil] at whole
  exact whole.mpr (.inr (List.mem_singleton.mpr rfl))

theorem mem_trail_concat {here location : Location} {moves : List Text} {move : Text} :
    location ∈ trail here (moves ++ [move]) ↔
      location ∈ trail here moves ∨ location = along here (moves ++ [move]) := by
  rw [mem_trail_append, trail, trail, List.mem_cons, List.mem_singleton, along_append, along_cons, along_nil]
  constructor
  · rintro (within | rfl | last)
    · exact .inl within
    · exact .inl (mem_trail_end here moves)
    · exact .inr last
  · rintro (within | last)
    · exact .inl within
    · exact .inr (.inr last)

theorem mem_trail_dropLast {here location : Location} {moves : List Text}
    (member : location ∈ trail here moves.dropLast) : location ∈ trail here moves := by
  rcases List.eq_nil_or_concat moves with rfl | ⟨front, last, rfl⟩
  · exact member
  · rw [List.concat_eq_append, List.dropLast_concat] at member
    rw [List.concat_eq_append]
    exact mem_trail_append.mpr (.inl member)

theorem prefix_of_mem_trail {here location names : Location} (each : ∀ name ∈ names, name ≠ Path.parentSegment)
    (member : location ∈ trail here names) : here <+: location := by
  induction names generalizing here with
  | nil => exact List.mem_singleton.mp member ▸ List.prefix_rfl
  | cons name rest ih =>
      rw [List.forall_mem_cons] at each
      rw [trail, List.mem_cons, after_name each.1] at member
      rcases member with rfl | later
      · exact List.prefix_rfl
      · exact (List.prefix_append here [name]).trans (ih each.2 later)

theorem within_of_mem_trail {here location names : Location}
    (each : ∀ name ∈ names, name ≠ Path.parentSegment) (member : location ∈ trail here names) :
    location <+: here ++ names := by
  induction names generalizing here with
  | nil => simp [List.mem_singleton.mp member]
  | cons name rest ih =>
      rw [List.forall_mem_cons] at each
      rw [trail, List.mem_cons, after_name each.1] at member
      rcases member with rfl | later
      · exact List.prefix_append _ _
      · have within := ih each.2 later
        rwa [List.append_assoc, List.singleton_append] at within

end Location

/-- Where a path leads from a working directory. -/
def Path.locationFrom (home : Location) (path : Path) : Location :=
  Location.along (FileTree.startOf home path) path.moves

/-- What a walk along a path passes. -/
def Path.trailFrom (home : Location) (path : Path) : List Location :=
  Location.trail (FileTree.startOf home path) path.moves

theorem Path.locationFrom_mem_trailFrom (home : Location) (path : Path) :
    path.locationFrom home ∈ path.trailFrom home := Location.mem_trail_end _ _

namespace FileTree

/-! ## Directories on the way -/

theorem hasDirectory_iff {tree : FileTree} {location : Location} :
    tree.hasDirectory location = true ↔ ∃ entries, tree.get? location = some (.directory entries) := by
  rw [hasDirectory]
  cases tree.get? location with
  | none => simp
  | some node => cases node <;> simp [Node.isDirectory]

theorem hasDirectory_above {tree : FileTree} {location below : Location}
    (is : tree.hasDirectory (location ++ below) = true) : tree.hasDirectory location = true := by
  cases below with
  | nil => rwa [List.append_nil] at is
  | cons name rest =>
      obtain ⟨entries, there⟩ := hasDirectory_iff.mp is
      exact hasDirectory_iff.mpr (Node.directory_of_below there)

theorem hasDirectory_within {tree : FileTree} {location below : Location} (above : location <+: below)
    (is : tree.hasDirectory below = true) : tree.hasDirectory location = true := by
  obtain ⟨rest, rfl⟩ := above
  exact hasDirectory_above is

/-- Whether moves pass only directories and take no name that is too long. -/
def Leads (tree : FileTree) (here : Location) (moves : List Text) : Prop :=
  (∀ move ∈ moves, Octet.size move ≤ maxNameSize) ∧
    ∀ location ∈ Location.trail here moves, tree.hasDirectory location = true

instance (tree : FileTree) (here : Location) (moves : List Text) : Decidable (tree.Leads here moves) :=
  inferInstanceAs (Decidable (_ ∧ _))

namespace Leads

variable {tree : FileTree} {here : Location} {moves first later : List Text} {move : Text}

theorem nil_iff : tree.Leads here [] ↔ tree.hasDirectory here = true := by
  simp [Leads, Location.trail]

theorem cons_iff : tree.Leads here (move :: moves) ↔ tree.hasDirectory here = true ∧
    Octet.size move ≤ maxNameSize ∧ tree.Leads (Location.after here move) moves := by
  simp only [Leads, Location.trail, List.forall_mem_cons]
  constructor
  · rintro ⟨⟨short, others⟩, start, trail⟩
    exact ⟨start, short, others, trail⟩
  · rintro ⟨start, short, others, trail⟩
    exact ⟨⟨short, others⟩, start, trail⟩

theorem append_iff : tree.Leads here (first ++ later) ↔
    tree.Leads here first ∧ tree.Leads (Location.along here first) later := by
  induction first generalizing here with
  | nil =>
      rw [List.nil_append, nil_iff, Location.along_nil]
      exact ⟨fun leads => ⟨leads.2 _ (Location.mem_trail_start here later), leads⟩, And.right⟩
  | cons move rest ih => rw [List.cons_append, cons_iff, cons_iff, ih, Location.along_cons, and_assoc, and_assoc]

theorem concat_iff : tree.Leads here (moves ++ [move]) ↔ tree.Leads here moves ∧
    Octet.size move ≤ maxNameSize ∧ tree.hasDirectory (Location.along here (moves ++ [move])) = true := by
  rw [append_iff, cons_iff, nil_iff, Location.along_append, Location.along_cons, Location.along_nil]
  exact and_congr_right fun leads => and_iff_right (leads.2 _ (Location.mem_trail_end here moves))

theorem mono {other : FileTree} (leads : tree.Leads here moves)
    (kept : ∀ location ∈ Location.trail here moves, tree.hasDirectory location = true →
      other.hasDirectory location = true) : other.Leads here moves :=
  ⟨leads.1, fun location member => kept location member (leads.2 location member)⟩

theorem start (leads : tree.Leads here moves) : tree.hasDirectory here = true :=
  leads.2 _ (Location.mem_trail_start here moves)

theorem finish (leads : tree.Leads here moves) : tree.hasDirectory (Location.along here moves) = true :=
  leads.2 _ (Location.mem_trail_end here moves)

end Leads

/-! ## Walks -/

section Walk

variable {tree : FileTree} {footing : Footing} {here : Location}

theorem lookUp_of_directory (is : tree.hasDirectory here = true) {name : Text} (short : Octet.size name ≤ maxNameSize) :
    tree.lookUp here name = .ok (tree.get? (here ++ [name])) := by
  simp [lookUp, is, Nat.not_lt.mpr short]

theorem lookUp_ok {directory : Location} {name : Text} {found : Option Node}
    (ok : tree.lookUp directory name = .ok found) : tree.hasDirectory directory = true ∧
      Octet.size name ≤ maxNameSize ∧ found = tree.get? (directory ++ [name]) := by
  unfold lookUp at ok
  split at ok
  · cases ok
  · split at ok
    · cases ok
    · rename_i noDirectory long
      rw [Except.ok.injEq] at ok
      exact ⟨by simpa using noDirectory, Nat.not_lt.mp long, ok.symm⟩

theorem stride_nil {node : Node} (there : tree.get? here = some node) :
    tree.stride footing here [] = .ok (.arrived (.found here node)) := by
  rw [stride, there]

theorem stride_current (rest : List Text) :
    tree.stride footing here (Path.currentSegment :: rest) = tree.stride footing here rest := by
  rw [stride, if_pos rfl]

theorem stride_parent (rest : List Text) :
    tree.stride footing here (Path.parentSegment :: rest) = tree.stride footing here.dropLast rest := by
  rw [stride, if_neg (by decide), if_pos rfl]

section Name

variable {name : Text} {rest : List Text} (current : name ≠ Path.currentSegment)
    (parent : name ≠ Path.parentSegment) (start : tree.hasDirectory here = true)

include current parent start

theorem stride_down (short : Octet.size name ≤ maxNameSize) (down : tree.hasDirectory (here ++ [name]) = true)
    (goesOn : rest ≠ [] ∨ (footing.makesFile && footing.needsDirectory) = false) :
    tree.stride footing here (name :: rest) = tree.stride footing (here ++ [name]) rest := by
  have notAFile : (rest.isEmpty && footing.makesFile && footing.needsDirectory) = false := by
    rcases goesOn with nonempty | directory
    · simp [nonempty]
    · rw [Bool.and_assoc, directory, Bool.and_false]
  obtain ⟨entries, there⟩ := hasDirectory_iff.mp down
  rw [stride, if_neg current, if_neg parent, notAFile, lookUp_of_directory start short, there]
  rfl

end Name

/-! ### Strides that get somewhere -/

/-- Whether a segment with others behind it is looked up as a name, and what is found under it. -/
structure Finds (tree : FileTree) (footing : Footing) (here : Location) (name : Text) (rest : List Text)
    (found : Option Node) : Prop where
  current : name ≠ Path.currentSegment
  parent : name ≠ Path.parentSegment
  /-- Where a file is to be made, a last name need not be a directory. -/
  fits : (rest.isEmpty && footing.makesFile && footing.needsDirectory) = false
  looked : tree.lookUp here name = .ok found

namespace Finds

variable {name : Text} {rest : List Text} {found : Option Node}

/-- Behind a name there may be other segments, to be walked along with another footing. -/
theorem behind (finds : tree.Finds footing here name rest found) (other : Footing) {more : List Text}
    (nonempty : more ≠ []) : tree.Finds other here name more found :=
  ⟨finds.current, finds.parent, by simp [nonempty], finds.looked⟩

theorem stride_down {entries : List (Text × Node)}
    (finds : tree.Finds footing here name rest (some (.directory entries))) :
    tree.stride footing here (name :: rest) = tree.stride footing (here ++ [name]) rest := by
  rw [stride, if_neg finds.current, if_neg finds.parent, finds.fits, finds.looked]
  rfl

theorem stride_link {target : Path} (finds : tree.Finds footing here name rest (some (.link target))) :
    tree.stride footing here (name :: rest) =
      if rest.isEmpty && !footing.needsDirectory && !footing.followLast then
        .ok (.arrived (.found (here ++ [name]) (.link target)))
      else .ok (.detour here target rest) := by
  rw [stride, if_neg finds.current, if_neg finds.parent, finds.fits, finds.looked]
  rfl

end Finds

/-- The strides that do not fail, segment by segment. -/
inductive Strides (tree : FileTree) (footing : Footing) : Location → List Text → Stride → Prop where
  | arrived {here : Location} {node : Node} : tree.get? here = some node →
      Strides tree footing here [] (.arrived (.found here node))
  | current {here : Location} {rest : List Text} {stride : Stride} :
      Strides tree footing here rest stride → Strides tree footing here (Path.currentSegment :: rest) stride
  | parent {here : Location} {rest : List Text} {stride : Stride} :
      Strides tree footing here.dropLast rest stride → Strides tree footing here (Path.parentSegment :: rest) stride
  | absent {here : Location} {name : Text} : tree.Finds footing here name [] none →
      Strides tree footing here [name] (.arrived (.absent here name))
  | down {here : Location} {name : Text} {rest : List Text} {entries : List (Text × Node)} {stride : Stride} :
      tree.Finds footing here name rest (some (.directory entries)) →
      Strides tree footing (here ++ [name]) rest stride → Strides tree footing here (name :: rest) stride
  | file {here : Location} {name : Text} {content : Content} {executable : Bool} :
      tree.Finds footing here name [] (some (.file content executable)) → footing.needsDirectory = false →
      Strides tree footing here [name] (.arrived (.found (here ++ [name]) (.file content executable)))
  | link {here : Location} {name : Text} {target : Path} : tree.Finds footing here name [] (some (.link target)) →
      footing.needsDirectory = false → footing.followLast = false →
      Strides tree footing here [name] (.arrived (.found (here ++ [name]) (.link target)))
  | detour {here : Location} {name : Text} {rest : List Text} {target : Path} :
      tree.Finds footing here name rest (some (.link target)) →
      (rest.isEmpty && !footing.needsDirectory && !footing.followLast) = false →
      Strides tree footing here (name :: rest) (.detour here target rest)

theorem strides_iff {segments : List Text} {stride : Stride} :
    tree.stride footing here segments = .ok stride ↔ Strides tree footing here segments stride := by
  constructor
  · intro ok
    fun_induction FileTree.stride tree footing here segments with
    | case1 here node there =>
        cases ok
        exact .arrived there
    | case2 | case5 | case6 | case8 | case11 => cases ok
    | case3 here rest ih => exact .current (ih ok)
    | case4 here rest _ ih => exact .parent (ih ok)
    | case7 here name rest current parent fits looked isLast =>
        cases ok
        obtain rfl := List.isEmpty_iff.mp isLast
        exact .absent ⟨current, parent, Bool.eq_false_iff.mpr fits, looked⟩
    | case9 here name rest current parent fits entries looked ih =>
        exact .down ⟨current, parent, Bool.eq_false_iff.mpr fits, looked⟩ (ih ok)
    | case10 here name rest current parent fits content executable looked isLast =>
        cases ok
        simp only [Bool.and_eq_true, List.isEmpty_iff, Bool.not_eq_true'] at isLast
        obtain ⟨rfl, noDirectory⟩ := isLast
        exact .file ⟨current, parent, Bool.eq_false_iff.mpr fits, looked⟩ noDirectory
    | case12 here name rest current parent fits target looked isLast =>
        cases ok
        simp only [Bool.and_eq_true, List.isEmpty_iff, Bool.not_eq_true'] at isLast
        obtain ⟨⟨rfl, noDirectory⟩, stays⟩ := isLast
        exact .link ⟨current, parent, Bool.eq_false_iff.mpr fits, looked⟩ noDirectory stays
    | case13 here name rest current parent fits target looked follows =>
        cases ok
        exact .detour ⟨current, parent, Bool.eq_false_iff.mpr fits, looked⟩ (Bool.eq_false_iff.mpr follows)
  · intro strides
    induction strides with
    | arrived there => exact stride_nil there
    | current _ ih => rw [stride_current, ih]
    | parent _ ih => rw [stride_parent, ih]
    | absent finds =>
        rw [FileTree.stride, if_neg finds.current, if_neg finds.parent, finds.fits, finds.looked]
        rfl
    | down finds _ ih => exact finds.stride_down.trans ih
    | file finds noDirectory =>
        rw [FileTree.stride, if_neg finds.current, if_neg finds.parent, finds.fits, finds.looked]
        simp [noDirectory]
    | link finds noDirectory stays => simp [finds.stride_link, noDirectory, stays]
    | detour finds follows => rw [finds.stride_link, follows, if_neg Bool.false_ne_true]

/-- The walks that do not fail, stride by stride. -/
inductive Travels (tree : FileTree) : Nat → Footing → Location → List Text → Place → Prop where
  | arrives {links : Nat} {footing : Footing} {here : Location} {segments : List Text} {place : Place} :
      tree.stride footing here segments = .ok (.arrived place) → Travels tree (links + 1) footing here segments place
  | follows {links : Nat} {footing : Footing} {here directory : Location} {segments rest : List Text} {target : Path}
      {place : Place} : tree.stride footing here segments = .ok (.detour directory target rest) →
      target.spelling ≠ [] →
      Travels tree links
        { footing with needsDirectory := footing.needsDirectory || (rest.isEmpty && target.endsInSlash) }
        (startOf directory target) (target.steps ++ rest) place →
      Travels tree (links + 1) footing here segments place

theorem travels_iff {links : Nat} {segments : List Text} {place : Place} :
    tree.travel links footing here segments = .ok place ↔ Travels tree links footing here segments place := by
  constructor
  · intro ok
    induction links generalizing footing here segments with
    | zero => cases ok
    | succ links ih =>
        rw [travel] at ok
        split at ok
        · cases ok
        · rename_i walked
          cases ok
          exact .arrives walked
        · rename_i walked
          split at ok
          · cases ok
          · rename_i named
            exact .follows walked named (ih ok)
  · intro travels
    induction travels with
    | arrives walked => rw [travel, walked]
    | follows walked named _ ih =>
        rw [travel, walked, ← ih]
        exact if_neg named

/-- A walk goes on from where directories have led it. -/
theorem stride_append {steps rest : List Text} (leads : tree.Leads here (Path.movesOf steps))
    (goesOn : rest ≠ [] ∨ (footing.makesFile && footing.needsDirectory) = false) :
    tree.stride footing here (steps ++ rest) =
      tree.stride footing (Location.along here (Path.movesOf steps)) rest := by
  induction steps generalizing here with
  | nil => rfl
  | cons segment steps ih =>
      rw [List.cons_append]
      by_cases current : segment = Path.currentSegment
      · subst current
        rw [Path.movesOf_cons_current] at leads ⊢
        rw [stride_current, ih leads]
      rw [Path.movesOf_cons current] at leads ⊢
      obtain ⟨start, short, later⟩ := Leads.cons_iff.mp leads
      rw [Location.along_cons, ← ih later]
      by_cases parent : segment = Path.parentSegment
      · rw [parent, stride_parent, Location.after, if_pos rfl]
      · rw [Location.after_name parent] at later ⊢
        refine stride_down current parent start short later.start ?_
        exact goesOn.imp_left fun nonempty => by simp [nonempty]

/-- What a walk without links comes to. -/
inductive Arrives (tree : FileTree) (footing : Footing) (here : Location) (steps : List Text) : Place → Prop
  | directory {entries : List (Text × Node)} (leads : tree.Leads here (Path.movesOf steps))
      (there : tree.get? (Location.along here (Path.movesOf steps)) = some (.directory entries)) :
      Arrives tree footing here steps
        (.found (Location.along here (Path.movesOf steps)) (.directory entries))
  | file {front : List Text} {name : Text} {content : Content} {executable : Bool}
      (allowed : footing.needsDirectory = false)
      (split : steps = front ++ [name]) (current : name ≠ Path.currentSegment)
      (parent : name ≠ Path.parentSegment) (leads : tree.Leads here (Path.movesOf front))
      (short : Octet.size name ≤ maxNameSize)
      (there : tree.get? (Location.along here (Path.movesOf front) ++ [name]) =
        some (.file content executable)) :
      Arrives tree footing here steps
        (.found (Location.along here (Path.movesOf front) ++ [name]) (.file content executable))
  | absent {front : List Text} {name : Text} (split : steps = front ++ [name])
      (current : name ≠ Path.currentSegment) (parent : name ≠ Path.parentSegment)
      (leads : tree.Leads here (Path.movesOf front)) (short : Octet.size name ≤ maxNameSize)
      (nothing : tree.get? (Location.along here (Path.movesOf front) ++ [name]) = none) :
      Arrives tree footing here steps (.absent (Location.along here (Path.movesOf front)) name)

theorem Arrives.cons_current {steps : List Text} {place : Place} (arrives : Arrives tree footing here steps place) :
    Arrives tree footing here (Path.currentSegment :: steps) place := by
  cases arrives with
  | directory leads there =>
      rw [← Path.movesOf_cons_current] at leads there ⊢
      exact .directory leads there
  | file allowed split current parent leads short there =>
      rw [← Path.movesOf_cons_current] at leads there ⊢
      exact .file allowed (by rw [split]; rfl) current parent leads short there
  | absent split current parent leads short nothing =>
      rw [← Path.movesOf_cons_current] at leads nothing ⊢
      exact .absent (by rw [split]; rfl) current parent leads short nothing

theorem Arrives.cons {steps : List Text} {place : Place} {move : Text} (other : move ≠ Path.currentSegment)
    (start : tree.hasDirectory here = true) (short : Octet.size move ≤ maxNameSize)
    (arrives : Arrives tree footing (Location.after here move) steps place) :
    Arrives tree footing here (move :: steps) place := by
  cases arrives with
  | directory leads there =>
      rw [← Location.along_cons, ← Path.movesOf_cons other] at there ⊢
      refine .directory ?_ there
      rw [Path.movesOf_cons other]
      exact Leads.cons_iff.mpr ⟨start, short, leads⟩
  | file allowed split current parent leads shortName there =>
      rw [← Location.along_cons, ← Path.movesOf_cons other] at there ⊢
      refine .file allowed (by rw [split]; rfl) current parent ?_ shortName there
      rw [Path.movesOf_cons other]
      exact Leads.cons_iff.mpr ⟨start, short, leads⟩
  | absent split current parent leads shortName nothing =>
      rw [← Location.along_cons, ← Path.movesOf_cons other] at nothing ⊢
      refine .absent (by rw [split]; rfl) current parent ?_ shortName nothing
      rw [Path.movesOf_cons other]
      exact Leads.cons_iff.mpr ⟨start, short, leads⟩

theorem hasDirectory_dropLast (is : tree.hasDirectory here = true) : tree.hasDirectory here.dropLast = true :=
  hasDirectory_within (List.dropLast_prefix here) is

theorem no_link (plain : tree.root.isPlain = true) (location : Location) (target : Path) :
    tree.get? location ≠ some (.link target) := by
  intro is
  have plainLink := (Node.isPlain_get? plain is).1
  cases plainLink

/-- On a tree without links a walk from a directory arrives or fails. -/
theorem arrives_of_stride (plain : tree.root.isPlain = true) {steps : List Text} {stride : Stride}
    (start : tree.hasDirectory here = true) (ok : tree.stride footing here steps = .ok stride) :
    ∃ place, stride = .arrived place ∧ Arrives tree footing here steps place := by
  have strides := strides_iff.mp ok
  clear ok
  induction strides with
  | arrived there =>
      obtain ⟨entries, isDirectory⟩ := hasDirectory_iff.mp start
      cases there.symm.trans isDirectory
      exact ⟨_, rfl, .directory (Leads.nil_iff.mpr start) there⟩
  | current _ ih =>
      obtain ⟨place, is, arrives⟩ := ih start
      exact ⟨place, is, arrives.cons_current⟩
  | parent _ ih =>
      obtain ⟨place, is, arrives⟩ := ih (hasDirectory_dropLast start)
      exact ⟨place, is, .cons (by decide) start (by decide) arrives⟩
  | @absent here name finds =>
      obtain ⟨-, short, nothing⟩ := lookUp_ok finds.looked
      have split : [name] = [] ++ [name] := rfl
      exact ⟨_, rfl, .absent split finds.current finds.parent (Leads.nil_iff.mpr start) short nothing.symm⟩
  | @down here name rest entries stride finds _ ih =>
      obtain ⟨-, short, there⟩ := lookUp_ok finds.looked
      obtain ⟨place, is, arrives⟩ := ih (hasDirectory_iff.mpr ⟨entries, there.symm⟩)
      have downward := Location.after_name finds.parent here
      exact ⟨place, is, .cons finds.current start short (downward ▸ arrives)⟩
  | @file here name content executable finds noDirectory =>
      obtain ⟨-, short, there⟩ := lookUp_ok finds.looked
      have split : [name] = [] ++ [name] := rfl
      exact ⟨_, rfl, .file noDirectory split finds.current finds.parent (Leads.nil_iff.mpr start) short there.symm⟩
  | link finds | detour finds => exact absurd (lookUp_ok finds.looked).2.2.symm (no_link plain _ _)

end Walk

end FileTree

end Relink
