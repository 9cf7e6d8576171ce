import Relink.Proofs.FileTree.OwnPlace
import Relink.Proofs.FileTree.Reaching

/-!
# What changes spare

What making directories and removing one leave of a tree that may have links, whether they succeed or not. Making
directories keeps everything and adds only directories on the way. Removing a directory keeps what is not inside it,
and follows no link there.
-/

set_option autoImplicit false

namespace Relink.FileTree

variable {tree after later : FileTree} {path : Path} {base location : Location} {new : Node}

/-! ## Trees that differ in one place -/

/-- Whether nothing but what is at a location or below it is another in a later tree. -/
structure SparesOutside (base : Location) (tree after : FileTree) : Prop where
  workingDirectory : after.workingDirectory = tree.workingDirectory
  nodes : ∀ location, ¬ base <+: location → after.bare? location = tree.bare? location

theorem bare?_directory (is : tree.hasDirectory location = true) : tree.bare? location = some Node.emptyDirectory := by
  obtain ⟨entries, there⟩ := hasDirectory_iff.mp is
  rw [bare?, there]
  rfl

theorem get?_put_there {old : Node} (there : tree.get? location = some old) (new : Node) :
    (tree.put location new).get? location = some new := Node.get?_put_self there new

namespace SparesOutside

/-- What is new inside the location decides whether the earlier tree has all that the later one has. -/
theorem persists (spares : SparesOutside base tree after)
    (inside : ∀ location node, base <+: location → after.bare? location = some node → tree.bare? location = some node) :
    Persists after tree := by
  refine ⟨spares.workingDirectory.symm, fun location node there => ?_⟩
  by_cases within : base <+: location
  · exact inside location node within there
  · rwa [← spares.nodes location within]

/-- What leads to the location are directories in both trees, and what is apart from it is the same. -/
theorem of_apart (home : after.workingDirectory = tree.workingDirectory)
    (above : ∀ location, location <+: base → ¬ base <+: location →
      tree.hasDirectory location = true ∧ after.hasDirectory location = true)
    (apart : ∀ location, ¬ base <+: location → ¬ location <+: base → after.get? location = tree.get? location) :
    SparesOutside base tree after := by
  refine ⟨home, fun location outside => ?_⟩
  by_cases leads : location <+: base
  · obtain ⟨before, behind⟩ := above location leads outside
    rw [bare?_directory before, bare?_directory behind]
  · rw [bare?, bare?, apart location outside leads]

theorem put_there {old : Node} (there : tree.get? base = some old) (new : Node) :
    SparesOutside base tree (tree.put base new) := by
  refine .of_apart rfl (fun location leads outside => ?_) fun location => Node.get?_put_apart there new
  obtain ⟨rest, rfl⟩ := leads
  cases rest with
  | nil => exact absurd (by simp) outside
  | cons name more =>
      exact ⟨hasDirectory_iff.mpr (Node.directory_of_below there),
        hasDirectory_iff.mpr (Node.directory_of_below (get?_put_there there new))⟩

section Slot

variable (slot : tree.HasSlot base)

include slot

theorem put (new : Node) : SparesOutside base tree (tree.put base new) := by
  refine .of_apart rfl (fun location leads outside => ?_) fun location => get?_put_apart slot new
  have is := slot.above leads (by rintro rfl; exact outside List.prefix_rfl)
  exact ⟨is, hasDirectory_put slot new is outside⟩

theorem erase : SparesOutside base tree (tree.erase base) := by
  refine .of_apart rfl (fun location leads outside => ?_) fun location => get?_erase_apart slot
  have is := slot.above leads (by rintro rfl; exact outside List.prefix_rfl)
  exact ⟨is, hasDirectory_erase slot is outside⟩

end Slot

end SparesOutside

theorem persists_put (slot : tree.HasSlot location) (nothing : tree.get? location = none) (new : Node) :
    Persists tree (tree.put location new) := by
  have spares := SparesOutside.put slot new
  refine ⟨rfl, fun other node there => ?_⟩
  rw [spares.nodes other fun below => ?_, there]
  rw [bare?, missing_below nothing below] at there
  cases there

theorem persists_erase (slot : tree.HasSlot location) : Persists (tree.erase location) tree := by
  refine (SparesOutside.erase slot).persists fun other node within there => ?_
  rw [bare?, missing_below (get?_erase_self slot) within] at there
  cases there

theorem persists_emptied (is : tree.hasDirectory location = true) :
    Persists (tree.put location Node.emptyDirectory) tree := by
  obtain ⟨entries, there⟩ := hasDirectory_iff.mp is
  refine (SparesOutside.put_there there _).persists fun other node within kept => ?_
  have emptied := get?_put_there there Node.emptyDirectory
  by_cases same : other = location
  · rw [same, bare?, emptied] at kept
    cases kept
    rw [same, bare?_directory is]
    rfl
  · rw [bare?, missing_below_leaf emptied rfl within same] at kept
    cases kept

/-! ## Removing a directory -/

theorem unlink_eq (path : Path) (tree : FileTree) : tree.unlink path =
    match tree.landing path with
    | .error fault => .error fault
    | .ok landing =>
      if landing.isEntry then
        match tree.lookUp landing.directory landing.segment with
        | .error fault => .error fault
        | .ok none => .error .missing
        | .ok (some (.directory _)) => .error .isDirectory
        | .ok (some _) =>
          if landing.spelledDirectory then .error .notDirectory else .ok (tree.erase landing.location)
      else .error .isDirectory := by
  unfold unlink
  cases tree.landing path with
  | error fault => rfl
  | ok landing =>
      cases isEntry : landing.isEntry with
      | false => simp [isEntry, bind, Except.bind, throw, throwThe, MonadExceptOf.throw]
      | true =>
          simp only [isEntry, bind, Except.bind, Bool.not_true, Bool.false_eq_true, if_false, if_true, pure,
            Except.pure, throw, throwThe, MonadExceptOf.throw]
          cases tree.lookUp landing.directory landing.segment with
          | error fault => rfl
          | ok found =>
              cases found with
              | none => rfl
              | some node => cases node <;> cases landing.spelledDirectory <;> rfl

theorem unlink_ok (ok : tree.unlink path = .ok after) : ∃ directory name node, tree.LandsAt path directory name ∧
    tree.entryOf path = .ok (.found (directory ++ [name]) node) ∧ after = tree.erase (directory ++ [name]) := by
  rw [unlink_eq] at ok
  split at ok
  · cases ok
  rename_i landing landed
  split at ok
  swap
  · cases ok
  rename_i isEntry
  obtain ⟨directory, name, slash⟩ := landing
  split at ok
  · cases ok
  · cases ok
  · cases ok
  · rename_i node notDirectory looked
    split at ok
    · cases ok
    rename_i noSlash
    cases ok
    obtain ⟨lands, isSlash⟩ := landsAt_of_landing landed isEntry looked
    have plain : path.endsInSlash = false := isSlash ▸ (Bool.not_eq_true _).mp noSlash
    exact ⟨directory, name, node, lands, lands.place_eq looked rfl (.inr ⟨plain, rfl⟩), rfl⟩

/-- A directory that is dropped is empty, and the entry of the path's last name. -/
theorem dropDirectory_ok (ok : tree.dropDirectory path = .ok after) : ∃ directory name,
    tree.LandsAt path directory name ∧ tree.lookUp directory name = .ok (some Node.emptyDirectory) ∧
      after = tree.erase (directory ++ [name]) := by
  rw [dropDirectory_eq] at ok
  split at ok
  · cases ok
  rename_i landing landed
  split at ok
  · cases ok
  split at ok
  · cases ok
  split at ok
  swap
  · cases ok
  rename_i isEntry
  split at ok
  · cases ok
  · cases ok
  · rename_i looked
    cases ok
    exact ⟨landing.directory, landing.segment, (landsAt_of_landing landed isEntry looked).1, looked, rfl⟩
  · cases ok
  · cases ok

/-- What removing a directory does, whether it succeeds or not: the entry that the path names is erased, or is a
directory and emptied, or nothing is done. -/
theorem removeDirectory_cases (path : Path) (tree : FileTree) :
    (∃ fault, removeDirectory path tree = (.error fault, tree)) ∨
      ∃ location node, tree.entryOf path = .ok (.found location node) ∧
        ((∃ directory name, location = directory ++ [name] ∧ tree.LandsAt path directory name ∧
            removeDirectory path tree = (.ok (), tree.erase location)) ∨
          ∃ entries outcome, node = .directory entries ∧
            removeDirectory path tree = (outcome, tree.put location Node.emptyDirectory)) := by
  unfold removeDirectory
  split
  · exact .inl ⟨_, rfl⟩
  · exact .inl ⟨_, rfl⟩
  · exact .inl ⟨_, rfl⟩
  · rename_i location target found
    unfold atOnce
    split
    · rename_i changed unlinked
      obtain ⟨directory, name, node, lands, again, rfl⟩ := unlink_ok unlinked
      cases found.symm.trans again
      exact .inr ⟨_, _, again, .inl ⟨directory, name, rfl, lands, rfl⟩⟩
    · exact .inl ⟨_, rfl⟩
  · rename_i location entries found
    refine .inr ⟨location, _, found, ?_⟩
    have there := get?_of_place found
    have persists := persists_emptied (hasDirectory_iff.mpr ⟨entries, there⟩)
    unfold finishRemoval
    split
    · rename_i removed dropped
      -- The emptied tree has nothing that was not there, so that the entry is the one that was found.
      obtain ⟨directory, name, lands, looked, rfl⟩ := dropDirectory_ok dropped
      have landed := lands.persists persists
      obtain ⟨other, lookedBefore, same⟩ := persists.lookUp looked
      obtain ⟨others, rfl⟩ := Node.bare_directory same
      have again : tree.entryOf path = _ := landed.place_eq lookedBefore rfl (.inl rfl)
      cases found.symm.trans again
      exact .inl ⟨directory, name, rfl, landed, by rw [erase_put landed.hasSlot]⟩
    · exact .inr ⟨entries, _, rfl, rfl⟩
    · exact .inr ⟨entries, _, rfl, rfl⟩

/-- Removing a directory changes nothing but what the path names itself, and adds nothing. -/
theorem removeDirectory_spares (path : Path) (tree : FileTree) :
    Persists (removeDirectory path tree).2 tree ∧
      ∀ location, (∀ own node, tree.entryOf path = .ok (.found own node) → ¬ own <+: location) →
        (removeDirectory path tree).2.bare? location = tree.bare? location := by
  rcases removeDirectory_cases path tree with ⟨fault, failed⟩ |
    ⟨own, node, found, ⟨directory, name, rfl, lands, erased⟩ | ⟨entries, outcome, rfl, emptied⟩⟩
  · rw [failed]
    exact ⟨.refl tree, fun _ _ => rfl⟩
  · rw [erased]
    exact ⟨persists_erase lands.hasSlot, fun location outside =>
      (SparesOutside.erase lands.hasSlot).nodes location (outside _ _ found)⟩
  · rw [emptied]
    have there := get?_of_place found
    exact ⟨persists_emptied (hasDirectory_iff.mpr ⟨entries, there⟩), fun location outside =>
      (SparesOutside.put_there there _).nodes location (outside _ _ found)⟩

/-- Where a directory is removed, nothing is left inside what the path names itself. -/
theorem removeDirectory_clears (ok : removeDirectory path tree = (.ok (), after)) : ∃ own node,
    tree.entryOf path = .ok (.found own node) ∧
      ∀ location, own <+: location → location ≠ own → after.get? location = none := by
  rcases removeDirectory_cases path tree with ⟨fault, failed⟩ |
    ⟨own, node, found, ⟨directory, name, rfl, lands, erased⟩ | ⟨entries, outcome, rfl, emptied⟩⟩
  · rw [ok] at failed
    cases failed
  · rw [ok] at erased
    cases erased
    exact ⟨_, node, found, fun location within _ => missing_below (get?_erase_self lands.hasSlot) within⟩
  · rw [ok] at emptied
    cases emptied
    have empty := get?_put_there (get?_of_place found) Node.emptyDirectory
    exact ⟨own, _, found, fun location within apart => missing_below_leaf empty rfl within apart⟩

/-! ### What the path names afterwards -/

/-- A walk that does not end at a link comes to the same where links at its end are followed. -/
theorem stride_follow {footing : Footing} {here : Location} {segments : List Text} {stride : Stride}
    (walked : tree.stride footing here segments = .ok stride)
    (noLink : ∀ location target, stride ≠ .arrived (.found location (.link target))) :
    tree.stride { footing with followLast := true } here segments = .ok stride := by
  refine strides_iff.mpr ?_
  have follows {here : Location} {name : Text} {rest : List Text} {found : Option Node}
      (finds : tree.Finds footing here name rest found) :
      tree.Finds { footing with followLast := true } here name rest found :=
    ⟨finds.current, finds.parent, finds.fits, finds.looked⟩
  have strides := strides_iff.mp walked
  clear walked
  induction strides with
  | arrived there => exact .arrived there
  | current _ ih => exact .current (ih noLink)
  | parent _ ih => exact .parent (ih noLink)
  | absent finds => exact .absent (follows finds)
  | down finds _ ih => exact .down (follows finds) (ih noLink)
  | file finds noDirectory => exact .file (follows finds) noDirectory
  | link => exact absurd rfl (noLink _ _)
  | detour finds => exact .detour (follows finds) (by simp)

theorem travel_follow {links : Nat} {footing : Footing} {here : Location} {segments : List Text}
    {entries : List (Text × Node)}
    (walked : tree.travel links footing here segments = .ok (.found location (.directory entries))) :
    tree.travel links { footing with followLast := true } here segments =
      .ok (.found location (.directory entries)) := by
  refine travels_iff.mpr ?_
  have travels := travels_iff.mp walked
  clear walked
  generalize isPlace : Place.found location (.directory entries) = place at travels ⊢
  induction travels with
  | arrives arrived =>
      subst isPlace
      exact .arrives (stride_follow arrived nofun)
  | follows detour named _ ih => exact .follows (stride_follow detour nofun) named (ih isPlace)

/-- A directory that is found as an entry is what the path names. -/
theorem resolve_of_entryOf {entries : List (Text × Node)}
    (found : tree.entryOf path = .ok (.found location (.directory entries))) :
    tree.resolve path = .ok (location, .directory entries) := by
  unfold entryOf place at found
  rw [resolve, placeOf, place]
  split at found
  · cases found
  · rename_i spelled
    rw [journey] at found ⊢
    rw [travel_follow found]
    rfl

/-- Where a path still names a directory after its entry was to be removed, this is the one, emptied. -/
theorem removeDirectory_vacates {resolved : Location} {entries : List (Text × Node)}
    (ok : removeDirectory path tree = (.ok (), after))
    (is : after.resolve path = .ok (resolved, .directory entries)) : entries = [] := by
  have persists := (removeDirectory_spares path tree).1
  rw [ok] at persists
  rcases removeDirectory_cases path tree with ⟨fault, failed⟩ |
    ⟨own, node, found, ⟨directory, name, rfl, lands, erased⟩ | ⟨others, outcome, rfl, emptied⟩⟩
  · rw [ok] at failed
    cases failed
  · rw [ok] at erased
    cases erased
    -- The directory before the last name is the same as before, and the name is gone from it.
    obtain ⟨front, before, split, reaches⟩ := lands.ends
    have current := Path.ne_current_of_isName lands.isName
    have reached := (resolve_directory_iff.mp is).2
    rw [Path.moves_concat split current] at reached
    obtain ⟨last, _, node, toLast, looked⟩ := reaches_concat current (Path.ne_parent_of_isName lands.isName) reached
    obtain ⟨_, again⟩ := persists.reaches toLast
    cases reaches.symm.trans again
    have there := (lookUp_ok looked).2.2
    rw [get?_erase_self lands.hasSlot] at there
    cases there
  · rw [ok] at emptied
    cases emptied
    obtain ⟨_, before⟩ := persists.resolve_directory is
    cases (resolve_of_entryOf found).symm.trans before
    have empty := get?_put_there (get?_of_place found) Node.emptyDirectory
    cases (get?_of_place (resolve_ok is)).symm.trans empty
    rfl

end Relink.FileTree
