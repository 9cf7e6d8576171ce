import Relink.Proofs.Build.Phases
import Relink.Proofs.FileTree.Copying

/-!
# Copying to the output

The compiler that emits every entry point as it is changes nothing outside the output directory of a job. Where that
directory has room for them, it copies all entry points, and the assets are copied likewise.
-/

set_option autoImplicit false

namespace Relink.Build

variable {output next : Path} {tree changed : FileTree}

theorem filing_ok {change : FileTree.Change Unit} (ok : filing change tree = (.ok (), changed)) :
    change tree = (.ok (), changed) := by
  unfold filing at ok
  split at ok
  · rename_i isChanged
    cases ok
    exact isChanged
  · cases ok

theorem makeDirectories_empty (tree : FileTree) : FileTree.makeDirectories ⟨[]⟩ tree = (.ok (), tree) := rfl

theorem emitCopy_same (ready : tree.IsReady output) (down : next.LeadsDown) {source : Path}
    (ok : Compiler.emitCopy source (output.join next) tree = (.ok (), changed)) :
    FileTree.SameOutside (output.locationFrom tree.workingDirectory) tree changed := by
  unfold Compiler.emitCopy at ok
  rw [bind_state] at ok
  split at ok
  swap
  · cases ok
  rename_i grown isMade
  have made : FileTree.SameOutside (output.locationFrom tree.workingDirectory) tree grown := by
    have isGrown := filing_ok isMade
    cases isParent : (output.join next).parent? with
    | none =>
        rw [isParent, Option.getD_none, makeDirectories_empty] at isGrown
        cases isGrown
        exact ready.refl
    | some parent =>
        rw [isParent, Option.getD_some] at isGrown
        have same := FileTree.makeDirectories_same ready.plain ready.enters down isParent
        rwa [isGrown] at same
  have later := made.isReady ready
  have copied := filing_ok ok
  unfold FileTree.atOnce at copied
  split at copied
  · rename_i isCopied
    cases copied
    have same := FileTree.copyFile_same later.plain later.enters down isCopied
    rw [made.workingDirectory] at same
    exact made.trans same
  · cases copied

theorem copyEach_same (job : Job) {entries : List Path} (ready : tree.IsReady job.output)
    (down : ∀ entry ∈ entries, (emittedPath entry job.format.extension).LeadsDown)
    (ok : Compiler.copyEach job entries tree = (.ok (), changed)) :
    FileTree.SameOutside (job.output.locationFrom tree.workingDirectory) tree changed := by
  induction entries generalizing tree with
  | nil =>
      cases ok
      exact ready.refl
  | cons entry rest ih =>
      rw [List.forall_mem_cons] at down
      rw [Compiler.copyEach, bind_state] at ok
      split at ok
      · rename_i emitted isEmitted
        have first := emitCopy_same ready down.1 isEmitted
        have others := ih (first.isReady ready) down.2 ok
        rw [first.workingDirectory] at others
        exact first.trans others
      · cases ok

theorem copying_keepsOutside {job : Job}
    (down : ∀ entry ∈ job.entryPoints, (emittedPath entry job.format.extension).LeadsDown) :
    KeepsOutside Compiler.copying job := fun _ _ ready ok => copyEach_same job ready down ok

open FileTree (Offer Accepts Writes)

theorem copyAssets_writes (source : Path) {output : Path} {assets : List Path} {progress : Progress}
    (offer : Path → Offer) (offers : ∀ asset ∈ assets,
      (offer asset).origin = source.join asset ∧ asset = Location.path (offer asset).names)
    (ready : progress.tree.IsReady output) (accepts : Accepts output progress.tree (assets.map offer)) :
    ∃ after, copyAssets source output assets progress = (.ok (), after) ∧
      Writes output progress.tree ((assets.map offer).map Offer.file) after.tree := by
  induction assets generalizing progress with
  | nil => exact ⟨progress, rfl, .nothing ready⟩
  | cons asset rest ih =>
      rw [List.forall_mem_cons] at offers
      rw [List.map_cons] at accepts
      obtain ⟨parent, grown, made, isParent, isMade, isCopied, writes, others⟩ := accepts.copy ready
      rw [← offers.1.2] at isParent isCopied
      rw [offers.1.1] at isCopied
      have first : copyAssets source output (asset :: rest) progress =
          copyAssets source output rest { progress with tree := made } := by
        simp only [copyAssets, makeParent, isParent, bind_state, perform, isMade, FileTree.atOnce, isCopied]
      obtain ⟨after, isDone, later⟩ := @ih { progress with tree := made } offers.2
        (writes.same.isReady ready) others
      exact ⟨after, first.trans isDone, writes.trans later⟩

theorem copyEach_writes {job : Job} {entries : List Path} {tree : FileTree} (offer : Path → Offer)
    (offers : ∀ entry ∈ entries, (offer entry).origin = job.source.join entry ∧
      emittedPath entry job.format.extension = Location.path (offer entry).names)
    (ready : tree.IsReady job.output) (accepts : Accepts job.output tree (entries.map offer)) :
    ∃ changed, Compiler.copyEach job entries tree = (.ok (), changed) ∧
      Writes job.output tree ((entries.map offer).map Offer.file) changed := by
  induction entries generalizing tree with
  | nil => exact ⟨tree, rfl, .nothing ready⟩
  | cons entry rest ih =>
      rw [List.forall_mem_cons] at offers
      rw [List.map_cons] at accepts
      obtain ⟨parent, grown, made, isParent, isMade, isCopied, writes, others⟩ := accepts.copy ready
      rw [← offers.1.2] at isParent isCopied
      rw [offers.1.1] at isCopied
      have first : Compiler.copyEach job (entry :: rest) tree = Compiler.copyEach job rest made := by
        simp only [Compiler.copyEach, Compiler.emitCopy, isParent, Option.getD_some, bind_state, filing, isMade,
          FileTree.atOnce, isCopied]
      obtain ⟨changed, isDone, later⟩ := ih offers.2 (writes.same.isReady ready) others
      exact ⟨changed, first.trans isDone, writes.trans later⟩

end Relink.Build
