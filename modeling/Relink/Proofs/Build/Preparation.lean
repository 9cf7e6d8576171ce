import Relink.Proofs.Build.Phases
import Relink.Proofs.FileTree.Writing

/-!
# Preparing the output directory

A build that is to clear its output directory begins on an empty one. Where the ways to the source and to the
output do not lead through the output, and nothing is missing on the way to it but what leads down to it, the
tree is then what clearing the output again would make of it.
-/

set_option autoImplicit false

namespace Relink

namespace FileTree

/-- What a tree is after its output directory is prepared: the directory is empty and stands where it would be
made anew; what is there elsewhere is kept. -/
structure Prepared (output : Path) (tree after : FileTree) : Prop where
  ready : after.IsReady output
  workingDirectory : after.workingDirectory = tree.workingDirectory
  fresh : (after.erase (output.locationFrom tree.workingDirectory)).put
    (output.locationFrom tree.workingDirectory) Node.emptyDirectory = after
  directories : ∀ location, ¬ output.locationFrom tree.workingDirectory <+: location →
    tree.hasDirectory location = true → after.hasDirectory location = true
  elsewhere : ∀ location node, ¬ output.locationFrom tree.workingDirectory <+: location →
    ¬ location <+: output.locationFrom tree.workingDirectory → tree.get? location = some node →
    after.get? location = some node

section Cleared

variable {tree : FileTree} {output : Path} (ready : tree.IsReady output)

include ready

theorem IsReady.prepared : Prepared output tree
    ((tree.erase (output.locationFrom tree.workingDirectory)).put (output.locationFrom tree.workingDirectory)
      Node.emptyDirectory) := by
  have slot := ready.hasSlot
  have bare := erase_hasSlot slot
  have plain := isPlain_erase slot ready.plain
  have directories : ∀ location, ¬ output.locationFrom tree.workingDirectory <+: location →
      tree.hasDirectory location = true → ((tree.erase (output.locationFrom tree.workingDirectory)).put
        (output.locationFrom tree.workingDirectory) Node.emptyDirectory).hasDirectory location = true :=
    fun location outside is => hasDirectory_put bare _ (hasDirectory_erase slot is outside) outside
  obtain ⟨directory, name, ends⟩ := ready.enters.endsAt ready.named
  refine ⟨⟨isPlain_put bare plain rfl, ⟨ready.enters.1, ?_⟩, ready.named, ready.direct⟩, rfl, ?_, directories, ?_⟩
  · refine ready.enters.2.mono fun location member is => ?_
    rcases ends.mem_trail.mp member with before | last
    · exact directories location (ready.direct location before) is
    · rw [last, ← ends.location_eq]
      exact hasDirectory_iff.mpr ⟨[], get?_put_self bare _⟩
  · rw [erase_put bare, erase_missing bare (get?_erase_self slot)]
  · intro location node outside apart is
    rw [get?_put_apart bare _ outside apart, get?_erase_apart slot outside apart, is]

/-- Where the directory is erased it can be made again at once. -/
theorem IsReady.makeDirectories_erase :
    makeDirectories output (tree.erase (output.locationFrom tree.workingDirectory)) =
      (.ok (), (tree.erase (output.locationFrom tree.workingDirectory)).put
        (output.locationFrom tree.workingDirectory) Node.emptyDirectory) := by
  have slot := ready.hasSlot
  obtain ⟨directory, name, ends⟩ := ready.enters.endsAt ready.named
  have bare : (tree.erase (output.locationFrom tree.workingDirectory)).EndsAt output directory name :=
    ends.mono rfl fun location member is => hasDirectory_erase slot is (ready.direct location member)
  have nothing := get?_erase_self slot
  rw [ends.location_eq] at nothing bare ⊢
  exact bare.makeDirectories_eq (ends.short ready.enters) nothing

theorem IsReady.removeDirectory_eq :
    removeDirectory output tree = (.ok (), tree.erase (output.locationFrom tree.workingDirectory)) := by
  obtain ⟨directory, name, ends⟩ := ready.enters.endsAt ready.named
  have direct := ready.direct
  rw [Path.IsDirect, ends.location_eq] at direct
  rw [ends.location_eq]
  exact ends.removeDirectory_eq ready.enters direct

end Cleared

/-! ## A directory that is empty -/

section Empty

variable {tree after : FileTree} {output : Path} (first : Prepared output tree after)

include first

theorem Prepared.empty : after.get? (output.locationFrom tree.workingDirectory) = some Node.emptyDirectory := by
  have slot := first.ready.hasSlot
  rw [first.workingDirectory] at slot
  have self := get?_put_self (erase_hasSlot slot) Node.emptyDirectory
  rwa [first.fresh] at self

theorem Prepared.missing {names : Location} (nonempty : names ≠ []) :
    after.get? (output.locationFrom tree.workingDirectory ++ names) = none := by
  obtain ⟨name, rest, rfl⟩ := List.exists_cons_of_ne_nil nonempty
  rw [get?, Node.get?_append, ← get?, first.empty]
  rfl

theorem Prepared.content?_eq (names : Location) :
    after.content? (output.locationFrom tree.workingDirectory ++ names) = none := by
  by_cases none : names = []
  · rw [none, List.append_nil]
    exact content?_directory (hasDirectory_iff.mpr ⟨[], first.empty⟩)
  · exact content?_missing (first.missing none)

theorem Prepared.isFree {names : Location} (nonempty : names ≠ []) :
    after.IsFree (output.locationFrom tree.workingDirectory ++ names) := by
  refine ⟨first.missing nonempty, fun above within => ?_⟩
  rcases List.prefix_or_prefix_of_prefix within (List.prefix_append _ names) with higher | below
  · exact .inr (hasDirectory_within higher (hasDirectory_iff.mpr ⟨[], first.empty⟩))
  · obtain ⟨rest, rfl⟩ := below
    by_cases none : rest = []
    · rw [none, List.append_nil]
      exact .inr (hasDirectory_iff.mpr ⟨[], first.empty⟩)
    · exact .inl (first.missing none)

end Empty

/-! ## A directory made for the first time -/

section Made

variable {tree after : FileTree} {way : List Location} {output : Location}

/-- Where only what leads to a location is missing, the location is made last, and only once. -/
theorem Grows.fresh (grows : Grows way tree after) (nothing : tree.get? output = none)
    (leadsThere : ∀ location ∈ way, tree.get? location = none → location <+: output) :
    after.get? output = none ∨ (after.erase output).put output Node.emptyDirectory = after := by
  induction grows with
  | same => exact .inl nothing
  | @make grown location grows onWay slot missing _ =>
      have above := leadsThere location onWay (grows.missing_before missing)
      have notYet := missing_below missing above
      obtain ⟨rest, rfl⟩ := above
      cases rest with
      | nil =>
          rw [List.append_nil] at notYet ⊢
          exact .inr (by rw [erase_put slot, erase_missing slot notYet])
      | cons name below =>
          refine .inl ?_
          rw [get?_put_append slot]
          rfl

variable {path : Path} (plain : tree.root.isPlain = true) (named : path.EndsInName)
    (direct : path.IsDirect tree.workingDirectory)
    (leadsThere : ∀ location ∈ path.trailFrom tree.workingDirectory, tree.get? location = none →
      location <+: path.locationFrom tree.workingDirectory)
    (grows : Grows (path.trailFrom tree.workingDirectory) tree after) (enters : after.Enters path)

include plain named direct leadsThere grows enters

theorem Grows.prepared (notBefore : ¬ tree.Enters path) : Prepared path tree after := by
  have home := grows.workingDirectory
  obtain ⟨spelled, short, directories⟩ := enters
  rw [home] at directories
  have nothing : tree.get? (path.locationFrom tree.workingDirectory) = none := by
    by_contra something
    refine notBefore ⟨spelled, short, fun location member => ?_⟩
    rcases grows.hasDirectory_before (directories location member) with is | missing
    · exact is
    · exact absurd (missing_below missing (leadsThere location member missing)) something
  have there : after.hasDirectory (path.locationFrom tree.workingDirectory) = true :=
    directories _ (Location.mem_trail_end _ _)
  refine ⟨⟨grows.plain plain, ⟨spelled, short, home ▸ directories⟩, named, home ▸ direct⟩, home, ?_,
    fun location _ is => grows.hasDirectory is, fun location node _ apart is => ?_⟩
  · rcases grows.fresh nothing leadsThere with missing | fresh
    · exact absurd there (not_hasDirectory_below missing List.prefix_rfl)
    · exact fresh
  · exact grows.get?_of_apart (fun other member missing below =>
      apart (below.trans (leadsThere other member missing))) is

end Made

end FileTree

namespace Build

variable {source output : Path} {progress after : Progress}

/-! ## The phase -/

theorem holdsSources_eq {tree : FileTree} (sourceEnters : tree.Enters source) (outputEnters : tree.Enters output) :
    holdsSources source output tree =
      .ok ((output.locationFrom tree.workingDirectory).isPrefixOf (source.locationFrom tree.workingDirectory)) := by
  rw [holdsSources, FileTree.canonical_of_enters sourceEnters, FileTree.canonical_of_enters outputEnters]

theorem reclaimOutput_eq (source output : Path) (progress : Progress) :
    reclaimOutput source output true progress =
      match holdsSources source output progress.tree with
      | .error fault => (.error fault, progress)
      | .ok true => (.error (.outputHoldsSources output source), progress)
      | .ok false =>
        (do perform (.clearing output) (FileTree.removeDirectory output); say (.cleared output)) progress := by
  unfold reclaimOutput
  rw [bind_state]
  simp only [look]
  cases holdsSources source output progress.tree with
  | error fault => rfl
  | ok holds => cases holds <;> rfl

theorem prepareOutput_eq (source output : Path) (clear : Bool) (progress : Progress) :
    prepareOutput source output clear progress =
      if progress.tree.contains output then
        (do reclaimOutput source output clear; perform (.creating output) (FileTree.makeDirectories output)) progress
      else perform (.creating output) (FileTree.makeDirectories output) progress := by
  unfold prepareOutput
  rw [bind_state]
  simp only [look]
  cases progress.tree.contains output <;> rfl

/-- An output directory that is there is emptied. -/
theorem prepareOutput_ready (ready : progress.tree.IsReady output) (sourceEnters : progress.tree.Enters source)
    (apart : ¬ output.locationFrom progress.tree.workingDirectory <+:
      source.locationFrom progress.tree.workingDirectory) :
    ∃ after, prepareOutput source output true progress = (.ok (), after) ∧
      after.tree = (progress.tree.erase (output.locationFrom progress.tree.workingDirectory)).put
        (output.locationFrom progress.tree.workingDirectory) Node.emptyDirectory := by
  have noPrefix : (output.locationFrom progress.tree.workingDirectory).isPrefixOf
      (source.locationFrom progress.tree.workingDirectory) = false := by
    rw [← Bool.not_eq_true, List.isPrefixOf_iff_prefix]
    exact apart
  rw [prepareOutput_eq, FileTree.contains_of_enters ready.enters, if_pos rfl, bind_state, reclaimOutput_eq,
    holdsSources_eq sourceEnters ready.enters, noPrefix]
  simp only [bind_state, perform, say, ready.removeDirectory_eq]
  rw [ready.makeDirectories_erase]
  exact ⟨_, rfl, rfl⟩

/-- A build that gets past the phase has an output directory that is ready and fresh. -/
theorem prepareOutput_prepared (plain : progress.tree.root.isPlain = true)
    (start : progress.tree.hasDirectory (FileTree.startOf progress.tree.workingDirectory output) = true)
    (named : output.EndsInName) (direct : output.IsDirect progress.tree.workingDirectory)
    (leadsThere : ∀ location ∈ output.trailFrom progress.tree.workingDirectory,
      progress.tree.get? location = none → location <+: output.locationFrom progress.tree.workingDirectory)
    (ok : prepareOutput source output true progress = (.ok (), after)) :
    FileTree.Prepared output progress.tree after.tree := by
  -- What is there is removed and made anew; else the way to it is made, and nothing else is changed.
  rw [prepareOutput_eq] at ok
  split at ok
  · rw [bind_state, reclaimOutput_eq] at ok
    split at ok
    · rename_i reclaimed isReclaimed
      split at isReclaimed
      · cases isReclaimed
      · cases isReclaimed
      simp only [bind_state, perform, say] at isReclaimed
      split at isReclaimed
      · rename_i cleared isCleared
        split at isCleared
        · rename_i removed isRemoved
          have enters := FileTree.enters_of_removeDirectory plain start isRemoved
          have ready : progress.tree.IsReady output := ⟨plain, enters, named, direct⟩
          rw [ready.removeDirectory_eq] at isRemoved
          cases isRemoved
          cases isCleared
          cases isReclaimed
          simp only [perform, ready.makeDirectories_erase] at ok
          cases ok
          exact ready.prepared
        · cases isCleared
      · cases isReclaimed
    · cases ok
  · rename_i absent
    have grows := FileTree.makeDirectories_grows plain start
    unfold perform at ok
    split at ok
    · rename_i made isMade
      rw [isMade] at grows
      cases ok
      have enters := FileTree.makeDirectories_enters plain start named.spelling_ne_nil isMade
      exact grows.prepared plain named direct leadsThere enters fun before =>
        absent (FileTree.contains_of_enters before)
    · cases ok

/-- The phase succeeds where nothing but directories stands on the way to the output. -/
theorem prepareOutput_ok (plain : progress.tree.root.isPlain = true)
    (start : progress.tree.hasDirectory (FileTree.startOf progress.tree.workingDirectory output) = true)
    (named : output.EndsInName) (direct : output.IsDirect progress.tree.workingDirectory)
    (leadsThere : ∀ location ∈ output.trailFrom progress.tree.workingDirectory,
      progress.tree.get? location = none → location <+: output.locationFrom progress.tree.workingDirectory)
    (spelled : output.spellingFault? = none)
    (passable : progress.tree.Passable (FileTree.startOf progress.tree.workingDirectory output) output.moves)
    (sourceEnters : progress.tree.Enters source)
    (apart : ¬ output.locationFrom progress.tree.workingDirectory <+:
      source.locationFrom progress.tree.workingDirectory) :
    ∃ after, prepareOutput source output true progress = (.ok (), after) := by
  by_cases enters : progress.tree.Enters output
  · obtain ⟨after, ok, -⟩ := prepareOutput_ready ⟨plain, enters, named, direct⟩ sourceEnters apart
    exact ⟨after, ok⟩
  have nothing : progress.tree.get? (output.locationFrom progress.tree.workingDirectory) = none := by
    by_contra something
    refine enters ⟨spelled, passable.1, fun location member => ?_⟩
    exact (passable.2 location member).resolve_left fun missing =>
      something (FileTree.missing_below missing (leadsThere location member missing))
  have ending : output.moves = [] ∨ ∃ front last, output.steps = front ++ [last] ∧ last ≠ Path.currentSegment := by
    obtain ⟨front, name, split, isName⟩ := named
    exact .inr ⟨front, name, split, Path.ne_current_of_isName isName⟩
  obtain ⟨grown, isMade, -, -⟩ :=
    FileTree.makeDirectories_passable plain start (.inr spelled) ending passable
  rw [prepareOutput_eq, FileTree.not_contains plain start enters nothing]
  simp only [Bool.false_eq_true, if_false, perform, isMade]
  exact ⟨_, rfl⟩

end Build

end Relink
