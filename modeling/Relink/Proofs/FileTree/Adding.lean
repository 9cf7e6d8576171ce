import Relink.Proofs.FileTree.Sparing

/-!
# Directories that are made in any tree

Making a directory and those above it keeps all that is there and adds only directories on the way, whether it
succeeds or not. In trees with links, too, the path names a directory afterwards, and an empty one where it goes
down by names to something that is not there.
-/

set_option autoImplicit false

namespace Relink.FileTree

variable {tree after later : FileTree} {path : Path} {location : Location}

/-! ## Making directories -/

/-- A directory that is made fills an empty slot, where its path then leads, or it was there before. -/
theorem ensureDirectory_cases (ok : tree.ensureDirectory path = .ok after) :
    after = tree ∧ tree.isDirectory path = true ∨
      ∃ location, tree.HasSlot location ∧ tree.get? location = none ∧
        after = tree.put location Node.emptyDirectory ∧ after.resolve path = .ok (location, Node.emptyDirectory) := by
  unfold ensureDirectory at ok
  split at ok
  · rename_i made isMade
    cases ok
    rw [makeDirectory_eq] at isMade
    split at isMade
    · cases isMade
    rename_i landing landed
    split at isMade
    swap
    · cases isMade
    rename_i isEntry
    split at isMade
    · cases isMade
    · cases isMade
    · rename_i looked
      cases isMade
      obtain ⟨directory, name, slash⟩ := landing
      obtain ⟨lands, -⟩ := landsAt_of_landing landed isEntry looked
      obtain ⟨is, short, nothing⟩ := lookUp_ok looked
      have slot := lands.hasSlot
      have persists := persists_put slot nothing.symm Node.emptyDirectory
      refine .inr ⟨directory ++ [name], slot, nothing.symm, rfl, (lands.persists persists).resolve_eq ?_⟩
      rw [lookUp_of_directory (persists.hasDirectory is) short, get?_put_self slot]
      rfl
  · split at ok
    · rename_i is
      cases ok
      exact .inl ⟨rfl, is⟩
    · cases ok

/-- Whether a later tree has all that a tree has and besides only directories that some paths name. -/
structure Makes (paths : List Path) (tree after : FileTree) : Prop where
  persists : Persists tree after
  named : ∀ location node, after.get? location = some node → tree.get? location = none →
    ∃ above ∈ paths, ∃ entries, after.resolve above = .ok (location, .directory entries)

namespace Makes

variable {paths others : List Path}

theorem refl (paths : List Path) (tree : FileTree) : Makes paths tree tree :=
  ⟨.refl tree, fun location node there nothing => by rw [there] at nothing; cases nothing⟩

theorem trans (first : Makes paths tree after) (second : Makes paths after later) : Makes paths tree later := by
  refine ⟨first.persists.trans second.persists, fun location node there nothing => ?_⟩
  cases middle : after.get? location with
  | none => exact second.named location node there middle
  | some other =>
      obtain ⟨above, member, entries, resolved⟩ := first.named location other middle nothing
      obtain ⟨entries, again⟩ := second.persists.resolve_directory resolved
      exact ⟨above, member, entries, again⟩

theorem mono (makes : Makes paths tree after) (within : paths ⊆ others) : Makes others tree after :=
  ⟨makes.persists, fun location node there nothing =>
    have ⟨above, member, is⟩ := makes.named location node there nothing
    ⟨above, within member, is⟩⟩

theorem ensureDirectory (ok : tree.ensureDirectory path = .ok after) : Makes [path] tree after := by
  rcases ensureDirectory_cases ok with ⟨rfl, -⟩ | ⟨location, slot, nothing, rfl, resolved⟩
  · exact .refl _ _
  refine ⟨persists_put slot nothing _, fun other node there missing => ?_⟩
  by_cases same : other = location
  · rw [same]
    exact ⟨path, List.mem_singleton_self path, [], resolved⟩
  rcases get?_put_leaf slot Node.emptyDirectory rfl same with ⟨-, hidden⟩ | ⟨was, -⟩ | kept
  · rw [hidden] at there
    cases there
  · exact absurd was (not_hasDirectory_below missing List.prefix_rfl)
  · rw [kept, missing] at there
    cases there

/-- Making directories adds nothing but these directories, whether it succeeds or not. -/
theorem ensureFirst (paths : List Path) (tree : FileTree) : Makes paths tree (ensureFirst paths tree).2 := by
  induction paths generalizing tree with
  | nil => exact .refl [] tree
  | cons path above ih =>
      by_cases named : path.spelling = []
      · rw [FileTree.ensureFirst, if_pos named]
        exact .refl _ tree
      have one : ∀ {before made : FileTree}, before.ensureDirectory path = .ok made →
          Makes (path :: above) before made := fun ok => (ensureDirectory ok).mono (by simp)
      rw [ensureFirst_cons named]
      split
      · rename_i made isMade
        exact one isMade
      · have first := (ih tree).mono (List.subset_cons_self path above)
        split
        · rename_i grown isGrown
          rw [isGrown] at first
          refine first.trans ?_
          unfold atOnce
          split
          · rename_i made isMade
            exact one isMade
          · exact .refl _ _
        · rename_i grown isGrown
          rw [isGrown] at first
          exact first
      · exact .refl _ tree

end Makes

/-! ## What a path names afterwards -/

theorem ensureDirectory_of_isDirectory (is : tree.isDirectory path = true) : tree.ensureDirectory path = .ok tree := by
  cases made : tree.ensureDirectory path with
  | error fault =>
      unfold ensureDirectory at made
      rw [is] at made
      split at made <;> cases made
  | ok after =>
      rcases ensureDirectory_cases made with ⟨rfl, -⟩ | ⟨location, slot, nothing, rfl, resolved⟩
      · rfl
      · obtain ⟨base, entries, before⟩ := isDirectory_iff_resolve.mp is
        obtain ⟨_, again⟩ := (persists_put slot nothing Node.emptyDirectory).resolve_directory before
        cases resolved.symm.trans again
        rw [get?_of_place (resolve_ok before)] at nothing
        cases nothing

theorem ensureFirst_of_isDirectory (bound : Nat) (there : path.spelling = [] ∨ tree.isDirectory path = true) :
    ensureFirst (path.ancestorsWithin bound) tree = (.ok (), tree) := by
  obtain ⟨above, all⟩ := ancestorsWithin_eq bound path
  by_cases empty : path.spelling = []
  · rw [all, ensureFirst, if_pos empty]
    rfl
  · rw [all, ensureFirst_cons empty, ensureDirectory_of_isDirectory (there.resolve_left empty)]

/-- A path is made last, on the tree as it is, or as it is with the directories above the path. -/
theorem ensureFirst_ok (named : path.spelling ≠ []) {above : List Path}
    (ok : ensureFirst (path :: above) tree = (.ok (), after)) :
    tree.ensureDirectory path = .ok after ∨ tree.ensureDirectory path = .error .missing ∧
      ∃ grown, ensureFirst above tree = (.ok (), grown) ∧ grown.ensureDirectory path = .ok after := by
  rw [ensureFirst_cons named] at ok
  split at ok
  · rename_i made
    cases ok
    exact .inl made
  · rename_i missing
    split at ok
    · rename_i grown isGrown
      unfold atOnce at ok
      split at ok
      · rename_i made
        cases ok
        exact .inr ⟨missing, grown, isGrown, made⟩
      · cases ok
    · cases ok
  · cases ok

theorem makeDirectories_isDirectory (named : path.spelling ≠ []) (ok : makeDirectories path tree = (.ok (), after)) :
    after.isDirectory path = true := by
  have last : ∀ {before : FileTree}, before.ensureDirectory path = .ok after → after.isDirectory path = true := by
    intro before made
    rcases ensureDirectory_cases made with ⟨rfl, is⟩ | ⟨location, -, -, -, resolved⟩
    · exact is
    · exact isDirectory_iff_resolve.mpr ⟨location, [], resolved⟩
  obtain ⟨above, all⟩ := ancestorsWithin_eq path.spelling.length path
  rw [makeDirectories, Path.ancestors, all] at ok
  rcases ensureFirst_ok named ok with made | ⟨-, grown, -, made⟩
  · exact last made
  · exact last made

/-! ### Empty directories -/

/-- Whether a path reaches a directory and goes down from there by names. -/
def GoesDown (tree : FileTree) (path : Path) : Prop :=
  ∃ front names base entries, path.moves = front ++ names ∧ names ≠ [] ∧ Path.parentSegment ∉ names ∧
    tree.Reaches path front base entries

theorem Persists.goesDown (persists : Persists tree later) (goesDown : tree.GoesDown path) : later.GoesDown path := by
  obtain ⟨front, names, base, entries, split, nonempty, noParent, reaches⟩ := goesDown
  obtain ⟨others, again⟩ := persists.reaches reaches
  exact ⟨front, names, base, others, split, nonempty, noParent, again⟩

/-- The last move of a path that goes down is a name. -/
theorem GoesDown.moves_eq (goesDown : tree.GoesDown path) : ∃ front name, path.moves = front ++ [name] ∧
    name ≠ Path.currentSegment ∧ name ≠ Path.parentSegment := by
  obtain ⟨front, names, base, entries, split, nonempty, noParent, -⟩ := goesDown
  obtain ⟨more, name, rfl⟩ := (List.eq_nil_or_concat names).resolve_left nonempty
  rw [List.concat_eq_append] at split noParent
  have isMove : name ∈ path.moves := by simp [split]
  rw [Path.moves, Path.movesOf, List.mem_filter, bne_iff_ne] at isMove
  refine ⟨front ++ more, name, by rw [split, List.append_assoc], isMove.2, ?_⟩
  rintro rfl
  exact noParent (by simp)

theorem GoesDown.spelling_ne_nil (goesDown : tree.GoesDown path) : path.spelling ≠ [] := by
  obtain ⟨front, name, split, -, -⟩ := goesDown.moves_eq
  intro empty
  rw [Path.moves, Path.steps, empty] at split
  simpa [Text.splitOn] using congrArg List.length split

section Above

variable {above : Path} (parent : path.parent? = some above)

include parent

theorem reaches_above {moves : List Text} {base : Location} {entries : List (Text × Node)} :
    tree.Reaches above moves base entries ↔ tree.Reaches path moves base entries := by
  rw [Reaches, Reaches, journey, journey, startOf, startOf, Path.isAbsolute_above parent]

/-- The path above goes down too, unless it names a directory that is there. -/
theorem GoesDown.goesDown_above (goesDown : tree.GoesDown path) (spelled : above.spellingFault? = none)
    (notThere : ¬ tree.isDirectory above = true) : tree.GoesDown above := by
  obtain ⟨front, names, base, entries, split, nonempty, noParent, reaches⟩ := goesDown
  obtain ⟨more, name, rfl⟩ := (List.eq_nil_or_concat names).resolve_left nonempty
  rw [List.concat_eq_append] at split noParent
  have moves : above.moves = front ++ more := by
    rw [Path.moves_above parent, split, ← List.append_assoc, List.dropLast_concat]
  rw [← reaches_above parent] at reaches
  refine ⟨front, more, base, entries, moves, ?_, fun member => noParent (List.mem_append_left _ member), reaches⟩
  rintro rfl
  rw [List.append_nil] at moves
  have resolved := resolve_directory_iff.mpr ⟨spelled, moves ▸ reaches⟩
  exact notThere (isDirectory_iff_resolve.mpr ⟨base, entries, resolved⟩)

theorem not_isDirectory_of_above {front : List Text} {name : Text} (moves : path.moves = front ++ [name])
    (current : name ≠ Path.currentSegment) (notUp : name ≠ Path.parentSegment)
    (empty : tree.resolve above = .ok (location, Node.emptyDirectory)) : ¬ tree.isDirectory path = true := by
  intro is
  obtain ⟨base, entries, resolved⟩ := isDirectory_iff_resolve.mp is
  have reaches := (resolve_directory_iff.mp resolved).2
  rw [moves] at reaches
  obtain ⟨directory, others, node, before, looked⟩ := reaches_concat current notUp reaches
  have toAbove := (reaches_above parent).mp (resolve_directory_iff.mp empty).2
  rw [Path.moves_above parent, moves, List.dropLast_concat] at toAbove
  cases before.symm.trans toAbove
  have nothing := missing_below_leaf (get?_of_travel toAbove) rfl (List.prefix_append location [name]) (by simp)
  have there := (lookUp_ok looked).2.2
  rw [nothing] at there
  cases there

end Above

section Vacant

variable (vacant : ∀ location entries, tree.resolve path = .ok (location, .directory entries) → entries = [])

include vacant

/-- A path names an empty directory once it is made, unless making the directories above it makes the directory. -/
theorem ensureFirst_cons_empty (named : path.spelling ≠ []) {above : List Path}
    (ok : ensureFirst (path :: above) tree = (.ok (), after))
    (still : ∀ grown, ensureFirst above tree = (.ok (), grown) → ¬ tree.isDirectory path = true →
      ¬ grown.isDirectory path = true) : ∃ location, after.resolve path = .ok (location, Node.emptyDirectory) := by
  rcases ensureFirst_ok named ok with made | ⟨missing, grown, isGrown, made⟩
  · rcases ensureDirectory_cases made with ⟨rfl, is⟩ | ⟨location, -, -, -, resolved⟩
    · obtain ⟨location, entries, resolved⟩ := isDirectory_iff_resolve.mp is
      obtain rfl := vacant location entries resolved
      exact ⟨location, resolved⟩
    · exact ⟨location, resolved⟩
  · have notBefore : ¬ tree.isDirectory path = true := by
      intro is
      rw [ensureDirectory_of_isDirectory is] at missing
      cases missing
    rcases ensureDirectory_cases made with ⟨rfl, is⟩ | ⟨location, -, -, -, resolved⟩
    · exact absurd is (still _ isGrown notBefore)
    · exact ⟨location, resolved⟩

/-- A path that goes down by names to nothing, or to an empty directory, names an empty directory once it is made. -/
theorem ensureFirst_empty {bound : Nat} (goesDown : tree.GoesDown path)
    (ok : ensureFirst (path.ancestorsWithin bound) tree = (.ok (), after)) :
    ∃ location, after.resolve path = .ok (location, Node.emptyDirectory) := by
  induction bound generalizing path after with
  | zero =>
      refine ensureFirst_cons_empty vacant goesDown.spelling_ne_nil ok fun grown isGrown notBefore => ?_
      cases isGrown
      exact notBefore
  | succ bound ih =>
      rw [Path.ancestorsWithin] at ok
      split at ok
      swap
      · refine ensureFirst_cons_empty vacant goesDown.spelling_ne_nil ok fun grown isGrown notBefore => ?_
        cases isGrown
        exact notBefore
      rename_i above parent
      refine ensureFirst_cons_empty vacant goesDown.spelling_ne_nil ok fun grown isGrown notBefore is => ?_
      -- The directory above was not there either, and by the induction hypothesis it is made empty.
      have notAbove : ¬ (above.spelling = [] ∨ tree.isDirectory above = true) := by
        intro there
        rw [ensureFirst_of_isDirectory bound there] at isGrown
        cases isGrown
        exact notBefore is
      rw [not_or] at notAbove
      obtain ⟨base, entries, resolved⟩ := isDirectory_iff_resolve.mp is
      have spelled := (spellingFault?_above parent (resolve_directory_iff.mp resolved).1).resolve_left notAbove.1
      obtain ⟨location, empty⟩ := ih
        (fun _ _ there => absurd (isDirectory_iff_resolve.mpr ⟨_, _, there⟩) notAbove.2)
        (goesDown.goesDown_above parent spelled notAbove.2) isGrown
      obtain ⟨front, name, moves, current, notUp⟩ := goesDown.moves_eq
      exact not_isDirectory_of_above parent moves current notUp empty is

end Vacant

end Relink.FileTree
