import Relink.Proofs.FileTree.Outside

/-!
# Making directories

A directory can be made, with those above it, where nothing stands on the way but directories.
-/

set_option autoImplicit false

namespace Relink.FileTree

variable {tree : FileTree} {path : Path} {here : Location} {moves : List Text}

/-- Whether moves pass nothing but directories and what is missing, and take no name that is too long. -/
def Passable (tree : FileTree) (here : Location) (moves : List Text) : Prop :=
  (∀ move ∈ moves, Octet.size move ≤ maxNameSize) ∧
    ∀ location ∈ Location.trail here moves, tree.get? location = none ∨ tree.hasDirectory location = true

instance (tree : FileTree) (here : Location) (moves : List Text) : Decidable (tree.Passable here moves) :=
  inferInstanceAs (Decidable (_ ∧ _))

theorem Passable.behind {move : Text} (passable : tree.Passable here (move :: moves)) :
    Octet.size move ≤ maxNameSize ∧ tree.Passable (Location.after here move) moves :=
  ⟨passable.1 move (List.mem_cons_self ..), fun other member => passable.1 other (List.mem_cons_of_mem _ member),
    fun location member => passable.2 location (List.mem_cons_of_mem _ member)⟩

theorem Passable.front {later : List Text} (passable : tree.Passable here (moves ++ later)) :
    tree.Passable here moves :=
  ⟨fun move member => passable.1 move (List.mem_append_left _ member),
    fun location member => passable.2 location (Location.mem_trail_append.mpr (.inl member))⟩

/-- Where directories are made, what could be passed still can. -/
theorem Grows.passable {way : List Location} {grown : FileTree} (grows : Grows way tree grown)
    (passable : tree.Passable here moves) : grown.Passable here moves := by
  refine ⟨passable.1, fun location member => ?_⟩
  have before := passable.2 location member
  induction grows with
  | same => exact before
  | @make grown other _ _ slot nothing ih =>
      by_cases same : location = other
      · rw [same]
        exact .inr (hasDirectory_iff.mpr ⟨[], get?_put_self slot _⟩)
      rcases get?_put_leaf slot Node.emptyDirectory rfl same with ⟨-, hidden⟩ | ⟨-, stays⟩ | kept
      · exact .inl hidden
      · exact .inr stays
      · rwa [FileTree.hasDirectory, kept, ← FileTree.hasDirectory]

/-- A walk that could be made but for missing directories finds that something is missing. -/
theorem stride_missing {footing : Footing} (noFile : footing.makesFile = false) {segments : List Text}
    (start : tree.hasDirectory here = true) (passable : tree.Passable here (Path.movesOf segments))
    (stops : ¬ tree.Leads here (Path.movesOf segments)) :
    tree.stride footing here segments = .error .missing ∨
      ∃ directory name, tree.stride footing here segments = .ok (.arrived (.absent directory name)) := by
  induction segments generalizing here with
  | nil => exact absurd (Leads.nil_iff.mpr start) stops
  | cons segment rest ih =>
      by_cases current : segment = Path.currentSegment
      · subst current
        rw [Path.movesOf_cons_current] at passable stops
        rw [stride_current]
        exact ih start passable stops
      rw [Path.movesOf_cons current] at passable stops
      obtain ⟨short, later⟩ := passable.behind
      by_cases parent : segment = Path.parentSegment
      · subst parent
        have up : Location.after here Path.parentSegment = here.dropLast := if_pos rfl
        rw [stride_parent]
        refine ih (hasDirectory_dropLast start) (up ▸ later) fun leads => stops ?_
        exact Leads.cons_iff.mpr ⟨start, short, up ▸ leads⟩
      have down := Location.after_name parent here
      -- The walk stops at a directory that is missing, and goes on from one that is there.
      rcases later.2 _ (Location.mem_trail_start _ _) with missing | there
      · rw [down] at missing
        rw [stride, if_neg current, if_neg parent, noFile, Bool.and_false, Bool.false_and,
          lookUp_of_directory start short, missing]
        cases rest with
        | nil => exact .inr ⟨here, segment, rfl⟩
        | cons next more => exact .inl rfl
      · rw [down] at there
        rw [stride_down current parent start short there (.inr (by rw [noFile, Bool.false_and]))]
        refine ih there (down ▸ later) fun leads => stops ?_
        exact Leads.cons_iff.mpr ⟨start, short, down ▸ leads⟩

theorem journey_missing (footing : Footing) (noFile : footing.makesFile = false) {segments : List Text}
    (start : tree.hasDirectory (startOf tree.workingDirectory path) = true)
    (passable : tree.Passable (startOf tree.workingDirectory path) (Path.movesOf segments))
    (stops : ¬ tree.Leads (startOf tree.workingDirectory path) (Path.movesOf segments)) :
    tree.journey footing path segments = .error .missing ∨
      ∃ directory name, tree.journey footing path segments = .ok (.absent directory name) := by
  rcases stride_missing noFile start passable stops with missing | ⟨directory, name, absent⟩
  · rw [journey, travel, missing]
    exact .inl rfl
  · exact .inr ⟨directory, name, journey_of_stride absent⟩

section Make

variable (plain : tree.root.isPlain = true)
    (start : tree.hasDirectory (startOf tree.workingDirectory path) = true)
    (spelled : path.spellingFault? = none)

include plain start spelled

theorem ensureDirectory_of_leads (leads : tree.Leads (startOf tree.workingDirectory path) path.moves) :
    tree.ensureDirectory path = .ok tree := by
  have there := (isDirectory_iff plain start).mpr ⟨spelled, leads⟩
  have exists_ : tree.makeDirectory path = .error .exists := by
    rw [makeDirectory_eq]
    rcases List.eq_nil_or_concat path.steps with none | ⟨front, last, some⟩
    · rw [landing, spelled, none]
      rfl
    · rw [List.concat_eq_append] at some
      rw [Path.moves, some, Path.movesOf_append] at leads
      obtain ⟨before, behind⟩ := Leads.append_iff.mp leads
      rw [landing_of_leads spelled some before]
      simp only
      split
      · rename_i isEntry
        simp only [Landing.isEntry, Bool.and_eq_true, bne_iff_ne] at isEntry
        rw [Path.movesOf_cons isEntry.1.2, Leads.cons_iff, Path.movesOf_nil, Leads.nil_iff,
          Location.after_name isEntry.2] at behind
        obtain ⟨entries, is⟩ := hasDirectory_iff.mp behind.2.2
        rw [lookUp_of_directory behind.1 behind.2.1, is]
      · rfl
  rw [ensureDirectory, exists_]
  simp only [there, if_true]

/-- Where more than the directory is missing, it cannot be made at once. -/
theorem ensureDirectory_missing (passable : tree.Passable (startOf tree.workingDirectory path) path.moves)
    {front : List Text} {last : Text} (split : path.steps = front ++ [last])
    (stops : ¬ tree.Leads (startOf tree.workingDirectory path) (Path.movesOf front)) :
    tree.ensureDirectory path = .error .missing := by
  have notThere : ¬ tree.isDirectory path = true := by
    rw [isDirectory_iff plain start]
    rintro ⟨-, leads⟩
    rw [Path.moves, split, Path.movesOf_append] at leads
    exact stops (Leads.append_iff.mp leads).1
  have missing : tree.makeDirectory path = .error .missing := by
    rw [Path.moves, split, Path.movesOf_append] at passable
    rw [makeDirectory_eq, landing, spelled, split, List.getLast?_concat, List.dropLast_concat]
    rcases journey_missing ⟨true, true, false⟩ rfl start passable.front stops with none | ⟨directory, name, absent⟩
    · rw [none]
    · rw [absent]
  simp only [ensureDirectory, missing]
  exact if_neg notThere

/-- Where only the directory itself can be missing, it is made. -/
theorem ensureDirectory_next (passable : tree.Passable (startOf tree.workingDirectory path) path.moves)
    {front : List Text} {last : Text} (split : path.steps = front ++ [last]) (other : last ≠ Path.currentSegment)
    (leads : tree.Leads (startOf tree.workingDirectory path) (Path.movesOf front)) :
    ∃ made, tree.ensureDirectory path = .ok made ∧ made.Enters path := by
  have moves := Path.moves_concat split other
  have short := passable.1 last (by simp [moves])
  by_cases there : tree.hasDirectory (Location.along (startOf tree.workingDirectory path) path.moves) = true
  · have all : tree.Leads (startOf tree.workingDirectory path) path.moves := by
      rw [moves] at there ⊢
      exact Leads.concat_iff.mpr ⟨leads, short, there⟩
    exact ⟨tree, ensureDirectory_of_leads plain start spelled all, spelled, all⟩
  · have notUp : last ≠ Path.parentSegment := by
      rintro rfl
      apply there
      rw [moves, Location.along_append, Location.along_cons, Location.along_nil, Location.after, if_pos rfl]
      exact hasDirectory_dropLast leads.finish
    have member : last ∈ path.steps := by simp [split]
    have ends : tree.EndsAt path (Location.along (startOf tree.workingDirectory path) (Path.movesOf front)) last :=
      ⟨spelled, ⟨front, split, leads, rfl⟩, Path.isName_of_mem_steps member other notUp⟩
    have nothing := (passable.2 _ (Location.mem_trail_end _ _)).resolve_right there
    rw [moves, Location.along_concat _ _ notUp] at nothing
    have made := ends.ensureDirectory_eq short nothing
    exact ⟨_, made, ensureDirectory_enters plain start made⟩

end Make

/-! ## With the directories above it -/

theorem spellingFault?_above {above : Path} (parent : path.parent? = some above)
    (spelled : path.spellingFault? = none) : above.spelling = [] ∨ above.spellingFault? = none := by
  by_cases empty : above.spelling = []
  · exact .inl empty
  obtain ⟨rest, whole⟩ := Path.spelling_above parent
  unfold Path.spellingFault? at spelled ⊢
  rw [← whole] at spelled
  rw [Octet.size_append] at spelled
  split at spelled
  · cases spelled
  split at spelled
  · cases spelled
  split at spelled
  · cases spelled
  rename_i noNul _ fits
  have noNulAbove : '\x00' ∉ above.spelling := by
    rw [List.contains_iff_mem] at noNul
    exact fun member => noNul (List.mem_append_left _ member)
  have fitsAbove : ¬ maxPathSize < Octet.size above.spelling := by omega
  exact .inr (by simp [noNulAbove, empty, fitsAbove])

theorem parent?_isSome (named : path.moves ≠ []) : ∃ above, path.parent? = some above := by
  unfold Path.parent?
  split
  · rename_i nothing
    have none : path.segments.filterMap Path.component? = [] := by
      rw [← Path.filterMap_solid, nothing, List.filterMap_nil]
    refine absurd ?_ named
    rw [Path.moves_eq, Path.components, none, List.append_nil, Path.move?_leadComponents]
  · exact ⟨_, rfl⟩

theorem ensureFirst_of_leads (plain : tree.root.isPlain = true)
    (start : tree.hasDirectory (startOf tree.workingDirectory path) = true)
    (fits : path.spelling = [] ∨ path.spellingFault? = none)
    (leads : tree.Leads (startOf tree.workingDirectory path) path.moves) (above : List Path) :
    ensureFirst (path :: above) tree = (.ok (), tree) := by
  by_cases empty : path.spelling = []
  · rw [ensureFirst, if_pos empty]
    rfl
  · rw [ensureFirst_cons empty, ensureDirectory_of_leads plain start (fits.resolve_left empty) leads]

theorem ensureFirst_passable {bound : Nat} (plain : tree.root.isPlain = true)
    (start : tree.hasDirectory (startOf tree.workingDirectory path) = true)
    (fits : path.spelling = [] ∨ path.spellingFault? = none)
    (ending : path.moves = [] ∨ ∃ front last, path.steps = front ++ [last] ∧ last ≠ Path.currentSegment)
    (passable : tree.Passable (startOf tree.workingDirectory path) path.moves)
    (enough : path.moves.length ≤ bound) :
    ∃ grown, ensureFirst (path.ancestorsWithin bound) tree = (.ok (), grown) ∧
      grown.Leads (startOf tree.workingDirectory path) path.moves := by
  induction bound generalizing path with
  | zero =>
      have none : path.moves = [] := List.length_eq_zero_iff.mp (by omega)
      have leads : tree.Leads (startOf tree.workingDirectory path) path.moves := none ▸ Leads.nil_iff.mpr start
      exact ⟨tree, ensureFirst_of_leads plain start fits leads [], leads⟩
  | succ bound ih =>
      by_cases leads : tree.Leads (startOf tree.workingDirectory path) path.moves
      · obtain ⟨above, all⟩ := ancestorsWithin_eq (bound + 1) path
        exact ⟨tree, all ▸ ensureFirst_of_leads plain start fits leads above, leads⟩
      have named : path.moves ≠ [] := fun none => leads (none ▸ Leads.nil_iff.mpr start)
      obtain ⟨front, last, split, other⟩ := ending.resolve_left named
      have moves := Path.moves_concat split other
      have hasSteps : path.spelling ≠ [] := by
        intro empty
        rw [Path.steps, empty] at split
        simpa [Text.splitOn] using congrArg List.length split
      have spelled := fits.resolve_left hasSteps
      obtain ⟨above, parent⟩ := parent?_isSome named
      have all : path.ancestorsWithin (bound + 1) = path :: above.ancestorsWithin bound := by
        rw [Path.ancestorsWithin, parent]
      have sameStart : startOf tree.workingDirectory above = startOf tree.workingDirectory path := by
        rw [startOf, startOf, Path.isAbsolute_above parent]
      have aboveMoves : above.moves = Path.movesOf front := by
        rw [Path.moves_above parent, moves, List.dropLast_concat]
      rw [all, ensureFirst_cons hasSteps]
      -- Either the directory above is there, or it is made first, which the induction hypothesis is about.
      by_cases near : tree.Leads (startOf tree.workingDirectory path) (Path.movesOf front)
      · obtain ⟨made, isMade, enters⟩ := ensureDirectory_next plain start spelled passable split other near
        rw [isMade]
        exact ⟨made, rfl, ensureDirectory_workingDirectory plain start isMade ▸ enters.2⟩
      · rw [ensureDirectory_missing plain start spelled passable split near]
        obtain ⟨grown, isGrown, leadsAbove⟩ := ih (sameStart ▸ start) (spellingFault?_above parent spelled)
          (Path.steps_above parent) (by rw [sameStart, aboveMoves]; exact (moves ▸ passable).front)
          (by rw [moves, List.length_append, List.length_singleton] at enough; rw [aboveMoves]; omega)
        rw [sameStart, aboveMoves] at leadsAbove
        have grows := ancestors_grow bound plain (sameStart ▸ start : tree.hasDirectory (startOf _ above) = true)
        rw [isGrown] at grows ⊢
        have home := grows.workingDirectory
        obtain ⟨made, isMade, enters⟩ := ensureDirectory_next (grows.plain plain)
          (home ▸ grows.hasDirectory start) spelled (home ▸ grows.passable passable) split other (home ▸ leadsAbove)
        refine ⟨made, by simp only [atOnce, isMade], ?_⟩
        rw [← home, ← ensureDirectory_workingDirectory (grows.plain plain) (home ▸ grows.hasDirectory start) isMade]
        exact enters.2

/-- Directories are made where nothing but directories stands on the way. -/
theorem makeDirectories_passable (plain : tree.root.isPlain = true)
    (start : tree.hasDirectory (startOf tree.workingDirectory path) = true)
    (fits : path.spelling = [] ∨ path.spellingFault? = none)
    (ending : path.moves = [] ∨ ∃ front last, path.steps = front ++ [last] ∧ last ≠ Path.currentSegment)
    (passable : tree.Passable (startOf tree.workingDirectory path) path.moves) :
    ∃ grown, makeDirectories path tree = (.ok (), grown) ∧ Grows (path.trailFrom tree.workingDirectory) tree grown ∧
      grown.Leads (startOf tree.workingDirectory path) path.moves := by
  obtain ⟨grown, isGrown, leads⟩ :=
    ensureFirst_passable plain start fits ending passable (Path.length_moves_le path)
  have grows := makeDirectories_grows plain start
  have made : makeDirectories path tree = (.ok (), grown) := isGrown
  rw [made] at grows
  exact ⟨grown, made, grows, leads⟩

end Relink.FileTree
