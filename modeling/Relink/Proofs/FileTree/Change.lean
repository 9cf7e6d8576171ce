import Relink.FileTree.Change
import Relink.Proofs.FileTree.Place

/-!
# Changes of a tree

What making directories, removing one and writing files do to a tree without links, whether they succeed or
not. Making directories only fills slots on the way that are empty.
-/

set_option autoImplicit false

namespace Relink

theorem bind_state {ε σ α β : Type} (first : ExceptT ε (StateM σ) α) (next : α → ExceptT ε (StateM σ) β)
    (state : σ) : (first >>= next) state =
      match first state with
      | (.ok value, after) => next value after
      | (.error fault, after) => (.error fault, after) := by
  simp only [bind, ExceptT.bind, ExceptT.mk, StateT.bind]
  cases first state with
  | mk outcome after => cases outcome <;> rfl

namespace FileTree

variable {tree made : FileTree} {path : Path}

theorem missing_below {location below : Location} (nothing : tree.get? location = none)
    (within : location <+: below) : tree.get? below = none := by
  obtain ⟨rest, rfl⟩ := within
  rw [get?, Node.get?_append, ← get?, nothing, Option.bind_none]

theorem not_hasDirectory_below {location below : Location} (nothing : tree.get? location = none)
    (within : location <+: below) : ¬ tree.hasDirectory below = true := by
  rw [hasDirectory, missing_below nothing within]
  exact Bool.false_ne_true

/-! ## Landings -/

theorem endsAt_of_landing (plain : tree.root.isPlain = true)
    (start : tree.hasDirectory (startOf tree.workingDirectory path) = true) {landing : Landing}
    (ok : tree.landing path = .ok landing) (isEntry : landing.isEntry = true) :
    tree.EndsAt path landing.directory landing.segment := by
  unfold FileTree.landing at ok
  split at ok
  · cases ok
  · rw [Except.ok.injEq] at ok
    subst ok
    cases isEntry
  · rename_i last spelled isLast
    split at ok
    · cases ok
    · cases ok
    · rename_i location node walked
      rw [Except.ok.injEq] at ok
      subst ok
      obtain ⟨front, split⟩ := List.getLast?_eq_some_iff.mp isLast
      have arrives := arrives_of_journey plain start walked
      rw [split, List.dropLast_concat] at arrives
      simp only [Landing.isEntry, Bool.and_eq_true, bne_iff_ne] at isEntry
      have member : last ∈ path.steps := by simp [split]
      have isName := Path.isName_of_mem_steps member isEntry.1.2 isEntry.2
      cases arrives with
      | directory leads there => exact ⟨spelled, ⟨front, split, leads, rfl⟩, isName⟩
      | file allowed => cases allowed

theorem landing_of_leads {front : List Text} {last : Text} (spelled : path.spellingFault? = none)
    (split : path.steps = front ++ [last])
    (leads : tree.Leads (startOf tree.workingDirectory path) (Path.movesOf front)) :
    tree.landing path = .ok ⟨Location.along (startOf tree.workingDirectory path) (Path.movesOf front), last,
      path.endsInSlash⟩ := by
  obtain ⟨entries, there⟩ := hasDirectory_iff.mp leads.finish
  have walked : tree.stride ⟨true, true, false⟩ (startOf tree.workingDirectory path) (front ++ []) = _ :=
    stride_append leads (.inr rfl)
  rw [List.append_nil] at walked
  have journey := journey_of_stride (walked.trans (stride_nil there))
  rw [landing, spelled, split, List.getLast?_concat, List.dropLast_concat, journey]

theorem EndsAt.landing_eq {directory : Location} {name : Text} (ends : tree.EndsAt path directory name) :
    tree.landing path = .ok ⟨directory, name, path.endsInSlash⟩ := by
  obtain ⟨front, split, leads, rfl⟩ := ends.ends
  exact landing_of_leads ends.spelled split leads

theorem EndsAt.isEntry {directory : Location} {name : Text} (ends : tree.EndsAt path directory name)
    (slash : Bool) : Landing.isEntry ⟨directory, name, slash⟩ = true := by
  have isName := ends.isName
  simp only [Path.isName, Path.isVoid, Bool.and_eq_true, Bool.not_eq_true', Bool.or_eq_false_iff,
    beq_eq_false_iff_ne, bne_iff_ne] at isName
  simp [Landing.isEntry, isName]

/-! ## Making one directory -/

theorem makeDirectory_eq (path : Path) (tree : FileTree) : tree.makeDirectory path =
    match tree.landing path with
    | .error fault => .error fault
    | .ok landing =>
      if landing.isEntry then
        match tree.lookUp landing.directory landing.segment with
        | .error fault => .error fault
        | .ok (some _) => .error .exists
        | .ok none => .ok (tree.put landing.location Node.emptyDirectory)
      else .error .exists := by
  unfold makeDirectory
  cases tree.landing path with
  | error fault => rfl
  | ok landing =>
      cases isEntry : landing.isEntry with
      | false => simp [isEntry, bind, Except.bind, throw, throwThe, MonadExceptOf.throw]
      | true =>
          simp only [isEntry, bind, Except.bind, Bool.not_true, Bool.false_eq_true, if_false, if_true, pure,
            Except.pure]
          cases tree.lookUp landing.directory landing.segment with
          | error fault => rfl
          | ok found => cases found <;> rfl

theorem makeDirectory_ok (plain : tree.root.isPlain = true)
    (start : tree.hasDirectory (startOf tree.workingDirectory path) = true)
    (ok : tree.makeDirectory path = .ok made) : ∃ directory name, tree.EndsAt path directory name ∧
      Octet.size name ≤ maxNameSize ∧ tree.get? (directory ++ [name]) = none ∧
      made = tree.put (directory ++ [name]) Node.emptyDirectory := by
  rw [makeDirectory_eq] at ok
  split at ok
  · cases ok
  · rename_i landing landed
    split at ok
    · rename_i isEntry
      split at ok
      · cases ok
      · cases ok
      · rename_i looked
        obtain ⟨-, short, nothing⟩ := lookUp_ok looked
        rw [Except.ok.injEq] at ok
        exact ⟨_, _, endsAt_of_landing plain start landed isEntry, short, nothing.symm, ok.symm⟩
    · cases ok

/-- A directory that is made is there afterwards; it fills an empty slot at the end of the way or was there
before. -/
theorem ensureDirectory_ok (plain : tree.root.isPlain = true)
    (start : tree.hasDirectory (startOf tree.workingDirectory path) = true)
    (ok : tree.ensureDirectory path = .ok made) : made = tree ∧ tree.Enters path ∨
      ∃ directory name, tree.EndsAt path directory name ∧ Octet.size name ≤ maxNameSize ∧
        tree.get? (directory ++ [name]) = none ∧ made = tree.put (directory ++ [name]) Node.emptyDirectory := by
  unfold ensureDirectory at ok
  split at ok
  · rename_i other isMade
    rw [Except.ok.injEq] at ok
    subst ok
    exact .inr (makeDirectory_ok plain start isMade)
  · split at ok
    · rename_i isDirectory
      rw [Except.ok.injEq] at ok
      exact .inl ⟨ok.symm, (isDirectory_iff plain start).mp isDirectory⟩
    · cases ok

theorem EndsAt.ensureDirectory_eq {directory : Location} {name : Text} (ends : tree.EndsAt path directory name)
    (short : Octet.size name ≤ maxNameSize) (nothing : tree.get? (directory ++ [name]) = none) :
    tree.ensureDirectory path = .ok (tree.put (directory ++ [name]) Node.emptyDirectory) := by
  unfold ensureDirectory
  rw [makeDirectory_eq, ends.landing_eq]
  simp only [ends.isEntry, if_true, lookUp_of_directory ends.hasDirectory short, nothing]
  rfl

theorem ensureDirectory_enters (plain : tree.root.isPlain = true)
    (start : tree.hasDirectory (startOf tree.workingDirectory path) = true)
    (ok : tree.ensureDirectory path = .ok made) : made.Enters path := by
  rcases ensureDirectory_ok plain start ok with ⟨rfl, enters⟩ | ⟨directory, name, ends, short, nothing, rfl⟩
  · exact enters
  · obtain ⟨front, moves, leads, rfl⟩ := ends.moves_eq
    refine ⟨ends.spelled, ?_⟩
    rw [moves, Leads.concat_iff, Location.along_concat _ _ (Path.ne_parent_of_isName ends.isName)]
    refine ⟨leads.mono fun location _ is => ?_, short, ?_⟩
    · exact hasDirectory_put ends.hasSlot _ is fun within => not_hasDirectory_below nothing within is
    · exact hasDirectory_iff.mpr ⟨[], get?_put_self ends.hasSlot _⟩

theorem ensureDirectory_workingDirectory (plain : tree.root.isPlain = true)
    (start : tree.hasDirectory (startOf tree.workingDirectory path) = true)
    (ok : tree.ensureDirectory path = .ok made) : made.workingDirectory = tree.workingDirectory := by
  rcases ensureDirectory_ok plain start ok with ⟨rfl, -⟩ | ⟨_, _, -, -, -, rfl⟩ <;> rfl

/-! ## Growing -/

/-- A tree grows along a way where directories are put into slots of the way that are empty. -/
inductive Grows (way : List Location) (tree : FileTree) : FileTree → Prop
  | same : Grows way tree tree
  | make {grown : FileTree} {location : Location} (grows : Grows way tree grown) (onWay : location ∈ way)
      (slot : grown.HasSlot location) (nothing : grown.get? location = none) :
      Grows way tree (grown.put location Node.emptyDirectory)

namespace Grows

variable {way : List Location} {grown : FileTree}

theorem trans {later : FileTree} (first : Grows way tree grown) (second : Grows way grown later) :
    Grows way tree later := by
  induction second with
  | same => exact first
  | make _ onWay slot nothing ih => exact .make ih onWay slot nothing

theorem workingDirectory (grows : Grows way tree grown) :
    grown.workingDirectory = tree.workingDirectory := by
  induction grows with
  | same => rfl
  | make _ _ _ _ ih => exact ih

theorem plain (grows : Grows way tree grown) (before : tree.root.isPlain = true) :
    grown.root.isPlain = true := by
  induction grows with
  | same => exact before
  | make _ _ slot _ ih => exact isPlain_put slot ih rfl

theorem hasDirectory (grows : Grows way tree grown) {location : Location}
    (is : tree.hasDirectory location = true) : grown.hasDirectory location = true := by
  induction grows with
  | same => exact is
  | make _ _ slot nothing ih =>
      exact hasDirectory_put slot _ ih fun within => not_hasDirectory_below nothing within ih

theorem missing_before (grows : Grows way tree grown) {location : Location}
    (nothing : grown.get? location = none) : tree.get? location = none := by
  induction grows with
  | same => exact nothing
  | @make grown other _ _ slot missing ih =>
      apply ih
      by_cases same : location = other
      · rw [same, get?_put_self slot] at nothing
        cases nothing
      rcases get?_put_leaf slot Node.emptyDirectory rfl same with ⟨below, -⟩ | ⟨-, stays⟩ | kept
      · exact missing_below missing below
      · exact absurd stays (not_hasDirectory_below nothing List.prefix_rfl)
      · rwa [kept] at nothing

/-- What is there stays, unless something is put below it. -/
theorem get?_of_apart (grows : Grows way tree grown) {location : Location} {node : Node}
    (apart : ∀ other ∈ way, tree.get? other = none → ¬ location <+: other)
    (there : tree.get? location = some node) : grown.get? location = some node := by
  induction grows with
  | same => exact there
  | make grows onWay slot nothing ih =>
      rw [get?_put_apart slot _ (fun below => ?_) (apart _ onWay (grows.missing_before nothing)), ih]
      rw [missing_below nothing below] at ih
      cases ih

theorem hasDirectory_before (grows : Grows way tree grown) {location : Location}
    (is : grown.hasDirectory location = true) :
    tree.hasDirectory location = true ∨ tree.get? location = none := by
  induction grows with
  | same => exact .inl is
  | @make grown other grows _ slot missing ih =>
      by_cases same : location = other
      · exact .inr (grows.missing_before (same ▸ missing))
      rcases get?_put_leaf slot Node.emptyDirectory rfl same with ⟨below, -⟩ | ⟨was, -⟩ | kept
      · exact .inr (grows.missing_before (missing_below missing below))
      · exact ih was
      · rw [FileTree.hasDirectory, kept] at is
        exact ih is

end Grows

section Ancestors

variable {home start : Location} {way : List Location}

theorem ensureFirst_cons (named : path.spelling ≠ []) (above : List Path) (tree : FileTree) :
    ensureFirst (path :: above) tree =
      match tree.ensureDirectory path with
      | .ok made => (.ok (), made)
      | .error .missing =>
        match ensureFirst above tree with
        | (.ok _, grown) => atOnce (ensureDirectory path) grown
        | (.error fault, grown) => (.error fault, grown)
      | .error fault => (.error fault, tree) := by
  rw [ensureFirst, if_neg named]
  simp only [bind_state]
  cases ensureFirst above tree with
  | mk outcome grown => cases outcome <;> rfl

theorem ensureFirst_grows {paths : List Path}
    (starts : ∀ path ∈ paths, startOf home path = start)
    (within : ∀ path ∈ paths, path.locationFrom home ∈ way) (plain : tree.root.isPlain = true)
    (isHome : tree.workingDirectory = home) (isStart : tree.hasDirectory start = true) :
    Grows way tree (ensureFirst paths tree).2 := by
  induction paths generalizing tree with
  | nil => exact .same
  | cons path above ih =>
      rw [List.forall_mem_cons] at starts within
      have one : ∀ {before after : FileTree}, before.root.isPlain = true → before.workingDirectory = home →
          before.hasDirectory start = true → before.ensureDirectory path = .ok after → Grows way before after := by
        intro before after plainBefore isHomeBefore isStartBefore ok
        rw [← starts.1, ← isHomeBefore] at isStartBefore
        rcases ensureDirectory_ok plainBefore isStartBefore ok with
          ⟨rfl, -⟩ | ⟨directory, name, ends, -, nothing, rfl⟩
        · exact .same
        · refine .make .same ?_ ends.hasSlot nothing
          rw [← ends.location_eq, isHomeBefore]
          exact within.1
      -- At most this directory is made: at once, or after those above it.
      by_cases named : path.spelling = []
      · rw [ensureFirst, if_pos named]
        exact .same
      rw [ensureFirst_cons named]
      split
      · rename_i made isMade
        exact one plain isHome isStart isMade
      · have grows := ih starts.2 within.2 plain isHome isStart
        split
        · rename_i grown isGrown
          rw [isGrown] at grows
          refine grows.trans ?_
          unfold atOnce
          split
          · rename_i made isMade
            exact one (grows.plain plain) (grows.workingDirectory.trans isHome) (grows.hasDirectory isStart) isMade
          · exact .same
        · rename_i grown isGrown
          rw [isGrown] at grows
          exact grows
      · exact .same

end Ancestors

theorem ancestorsWithin_eq (bound : Nat) (path : Path) : ∃ above, path.ancestorsWithin bound = path :: above := by
  cases bound with
  | zero => exact ⟨[], rfl⟩
  | succ bound =>
      rw [Path.ancestorsWithin]
      split
      · exact ⟨_, rfl⟩
      · exact ⟨[], rfl⟩

theorem mem_ancestorsWithin {bound : Nat} {above : Path} (member : above ∈ path.ancestorsWithin bound) :
    above.isAbsolute = path.isAbsolute ∧ above.moves <+: path.moves := by
  induction bound generalizing path with
  | zero =>
      rw [Path.ancestorsWithin, List.mem_singleton] at member
      subst member
      exact ⟨rfl, List.prefix_rfl⟩
  | succ bound ih =>
      rw [Path.ancestorsWithin] at member
      split at member
      · rename_i parent isParent
        rcases List.mem_cons.mp member with rfl | higher
        · exact ⟨rfl, List.prefix_rfl⟩
        · obtain ⟨absolute, moves⟩ := ih higher
          rw [Path.isAbsolute_above isParent] at absolute
          rw [Path.moves_above isParent] at moves
          exact ⟨absolute, moves.trans (List.dropLast_prefix _)⟩
      · rw [List.mem_singleton] at member
        subst member
        exact ⟨rfl, List.prefix_rfl⟩

theorem locationFrom_mem_trail {bound : Nat} {above : Path} (member : above ∈ path.ancestorsWithin bound)
    (home : Location) :
    startOf home above = startOf home path ∧ above.locationFrom home ∈ path.trailFrom home := by
  obtain ⟨absolute, moves⟩ := mem_ancestorsWithin member
  have starts : startOf home above = startOf home path := by rw [startOf, startOf, absolute]
  refine ⟨starts, ?_⟩
  obtain ⟨rest, split⟩ := moves
  rw [Path.locationFrom, Path.trailFrom, starts, ← split]
  exact Location.mem_trail_append.mpr (.inl (Location.mem_trail_end _ _))

/-- Making a directory and those above it, whether it succeeds or not, fills empty slots on the way. -/
theorem ancestors_grow (bound : Nat) (plain : tree.root.isPlain = true)
    (start : tree.hasDirectory (startOf tree.workingDirectory path) = true) :
    Grows (path.trailFrom tree.workingDirectory) tree (ensureFirst (path.ancestorsWithin bound) tree).2 :=
  ensureFirst_grows (fun _ member => (locationFrom_mem_trail member _).1)
    (fun _ member => (locationFrom_mem_trail member _).2) plain rfl start

theorem makeDirectories_grows (plain : tree.root.isPlain = true)
    (start : tree.hasDirectory (startOf tree.workingDirectory path) = true) :
    Grows (path.trailFrom tree.workingDirectory) tree (makeDirectories path tree).2 :=
  ancestors_grow path.spelling.length plain start

theorem makeDirectories_enters (plain : tree.root.isPlain = true)
    (start : tree.hasDirectory (startOf tree.workingDirectory path) = true) (named : path.spelling ≠ [])
    (ok : makeDirectories path tree = (.ok (), made)) : made.Enters path := by
  obtain ⟨above, all⟩ := ancestorsWithin_eq path.spelling.length path
  have onWay : ∀ other ∈ above, startOf tree.workingDirectory other = startOf tree.workingDirectory path ∧
      other.locationFrom tree.workingDirectory ∈ path.trailFrom tree.workingDirectory := fun other member =>
    locationFrom_mem_trail (all ▸ List.mem_cons_of_mem path member) _
  have grows : Grows (path.trailFrom tree.workingDirectory) tree (ensureFirst above tree).2 :=
    ensureFirst_grows (fun other member => (onWay other member).1) (fun other member => (onWay other member).2)
      plain rfl start
  rw [makeDirectories, Path.ancestors, all, ensureFirst_cons named] at ok
  split at ok
  · rename_i isMade
    cases ok
    exact ensureDirectory_enters plain start isMade
  · split at ok
    · rename_i grown isGrown
      rw [isGrown] at grows
      unfold atOnce at ok
      split at ok
      · rename_i isMade
        cases ok
        refine ensureDirectory_enters (grows.plain plain) ?_ isMade
        rw [grows.workingDirectory]
        exact grows.hasDirectory start
      · cases ok
    · cases ok
  · cases ok

theorem named_of_spelled (spelled : path.spellingFault? = none) : path.spelling ≠ [] := by
  intro empty
  rw [Path.spellingFault?, empty] at spelled
  cases spelled

theorem EndsAt.makeDirectories_eq {directory : Location} {name : Text} (ends : tree.EndsAt path directory name)
    (short : Octet.size name ≤ maxNameSize) (nothing : tree.get? (directory ++ [name]) = none) :
    makeDirectories path tree = (.ok (), tree.put (directory ++ [name]) Node.emptyDirectory) := by
  obtain ⟨above, all⟩ := ancestorsWithin_eq path.spelling.length path
  rw [makeDirectories, Path.ancestors, all, ensureFirst_cons (named_of_spelled ends.spelled), ends.ensureDirectory_eq short nothing]

/-! ## Files -/

/-- A file that is written stands at the end of the way, in a slot that was empty or held a file. -/
theorem writeFile_ok (plain : tree.root.isPlain = true)
    (start : tree.hasDirectory (startOf tree.workingDirectory path) = true) {content : Content}
    {executable : Option Bool} (ok : tree.writeFile path content executable = .ok made) :
    ∃ directory name mark, tree.EndsAt path directory name ∧ ¬ tree.hasDirectory (directory ++ [name]) = true ∧
      made = tree.put (directory ++ [name]) (.file content mark) := by
  unfold writeFile at ok
  split at ok
  · cases ok
  · rename_i location _ old placed
    obtain ⟨spelled, arrives⟩ := arrives_of_place plain start placed
    cases arrives with
    | file allowed split current parent leads short there =>
        rename_i front name
        have member : name ∈ path.steps := by simp [split]
        have isName := Path.isName_of_mem_steps member current parent
        rw [Except.ok.injEq] at ok
        exact ⟨_, name, _, ⟨spelled, ⟨front, split, leads, rfl⟩, isName⟩, by simp [hasDirectory, there,
          Node.isDirectory], ok.symm⟩
  · cases ok
  · rename_i directory name placed
    obtain ⟨spelled, arrives⟩ := arrives_of_place plain start placed
    cases arrives with
    | absent split current parent leads short nothing =>
        rename_i front
        have member : name ∈ path.steps := by simp [split]
        have isName := Path.isName_of_mem_steps member current parent
        rw [Except.ok.injEq] at ok
        exact ⟨_, name, _, ⟨spelled, ⟨front, split, leads, rfl⟩, isName⟩, by simp [hasDirectory, nothing],
          ok.symm⟩


theorem writeText_ok (plain : tree.root.isPlain = true)
    (start : tree.hasDirectory (startOf tree.workingDirectory path) = true) {text : Text}
    (ok : tree.writeText path text = .ok made) :
    ∃ directory name mark, tree.EndsAt path directory name ∧ ¬ tree.hasDirectory (directory ++ [name]) = true ∧
      made = tree.put (directory ++ [name]) (.file (.text text) mark) := by
  unfold writeText at ok
  cases written : tree.writeFile path (.text text) none with
  | error fault =>
      rw [written] at ok
      cases ok
  | ok other =>
      rw [written] at ok
      cases ok
      exact writeFile_ok plain start written

theorem hasDirectory_put_file {location other : Location} (new : Node) (slot : tree.HasSlot location)
    (noDirectory : ¬ tree.hasDirectory location = true) (is : tree.hasDirectory other = true) :
    (tree.put location new).hasDirectory other = true :=
  hasDirectory_put slot new is fun within => noDirectory (hasDirectory_within within is)

theorem copyFile_ok {source : Path} (plain : tree.root.isPlain = true)
    (start : tree.hasDirectory (startOf tree.workingDirectory path) = true)
    (ok : tree.copyFile source path = .ok made) :
    ∃ directory name content mark, tree.EndsAt path directory name ∧
      ¬ tree.hasDirectory (directory ++ [name]) = true ∧
      made = tree.put (directory ++ [name]) (.file content mark) := by
  unfold copyFile at ok
  split at ok
  · cases ok
  · split at ok
    · cases ok
    · rename_i emptied written
      obtain ⟨directory, name, mark, ends, noDirectory, rfl⟩ := writeFile_ok plain start written
      split at ok
      · rename_i content _ _
        -- The target is written twice; it is found at the same place again.
        have plainEmptied := isPlain_put ends.hasSlot plain (show (Node.file (.text []) mark).isPlain = true from rfl)
        have startEmptied := hasDirectory_put_file (.file (.text []) mark) ends.hasSlot noDirectory start
        obtain ⟨again, nameAgain, markAgain, endsAgain, -, rfl⟩ := writeFile_ok plainEmptied startEmptied ok
        have samePlace : again ++ [nameAgain] = directory ++ [name] :=
          endsAgain.location_eq.symm.trans ends.location_eq
        refine ⟨directory, name, content, markAgain, ends, noDirectory, ?_⟩
        rw [samePlace, put_put ends.hasSlot]
      · cases ok
        exact ⟨directory, name, _, mark, ends, noDirectory, rfl⟩
  · cases ok

/-! ## Removing a directory -/

theorem dropDirectory_eq (path : Path) (tree : FileTree) : tree.dropDirectory path =
    match tree.landing path with
    | .error fault => .error fault
    | .ok landing =>
      if landing.segment = Path.currentSegment then .error .invalidArgument
      else if landing.segment = Path.parentSegment then .error .notEmpty
      else if landing.isEntry then
        match tree.lookUp landing.directory landing.segment with
        | .error fault => .error fault
        | .ok none => .error .missing
        | .ok (some (.directory [])) => .ok (tree.erase landing.location)
        | .ok (some (.directory (_ :: _))) => .error .notEmpty
        | .ok (some _) => .error .notDirectory
      else .error .busy := by
  unfold dropDirectory
  cases tree.landing path with
  | error fault => rfl
  | ok landing =>
      simp only [bind, Except.bind, throw, throwThe, MonadExceptOf.throw, pure, Except.pure]
      split
      · rfl
      split
      · rfl
      cases isEntry : landing.isEntry with
      | false => simp
      | true =>
          simp only [Bool.not_true, Bool.false_eq_true, if_false, if_true]
          cases tree.lookUp landing.directory landing.segment with
          | error fault => rfl
          | ok found =>
              cases found with
              | none => rfl
              | some node =>
                  cases node with
                  | directory entries => cases entries <;> rfl
                  | file => rfl
                  | link => rfl

theorem enters_of_removeDirectory (plain : tree.root.isPlain = true)
    (start : tree.hasDirectory (startOf tree.workingDirectory path) = true)
    (ok : removeDirectory path tree = (.ok (), made)) : tree.Enters path := by
  unfold removeDirectory at ok
  split at ok
  · cases ok
  · cases ok
  · cases ok
  · rename_i location target placed
    have arrives := (arrives_of_place plain start placed).2
    cases arrives
  · rename_i placed
    exact (enters_of_place plain start placed).1

/-- A directory that the way to it does not pass is removed with all that is in it. -/
theorem EndsAt.removeDirectory_eq {directory : Location} {name : Text} (ends : tree.EndsAt path directory name)
    (enters : tree.Enters path)
    (apart : ∀ location ∈ Location.trail (startOf tree.workingDirectory path) path.moves.dropLast,
      ¬ directory ++ [name] <+: location) :
    removeDirectory path tree = (.ok (), tree.erase (directory ++ [name])) := by
  obtain ⟨entries, -, placed⟩ := enters.place_eq ⟨false, path.endsInSlash, false⟩ rfl
  have emptied : (tree.put (directory ++ [name]) Node.emptyDirectory).EndsAt path directory name :=
    ends.mono rfl fun location member is => hasDirectory_put ends.hasSlot _ is (apart location member)
  have isName := ends.isName
  rw [removeDirectory, entryOf, placed]
  simp only [ends.location_eq, finishRemoval, dropDirectory_eq, emptied.landing_eq, Path.ne_current_of_isName isName,
    Path.ne_parent_of_isName isName, if_false, emptied.isEntry, if_true,
    lookUp_of_directory emptied.hasDirectory (ends.short enters), get?_put_self ends.hasSlot, Landing.location]
  simp only [Node.emptyDirectory, erase_put ends.hasSlot]

end FileTree

end Relink
