import Mathlib.Data.List.Pairwise
import Relink.Proofs.Pass

/-!
# Isolation of modules

What becomes of a module depends on its own text and on which files there are. A pass changes neither for
the other modules, so over modules that are different files it comes to the same in every order, and to
the same as relinking each module alone.
-/

set_option autoImplicit false

namespace Relink

/-! ## Reports -/

theorem ModuleStatus.one_of (status : ModuleStatus) :
    status.isRelinked.toNat + status.isUnchanged.toNat + status.isFailed.toNat = 1 := by
  cases status <;> rfl

/-- Every module of a report is relinked, unchanged or failed, and only one of these. -/
theorem PassReport.counts (report : PassReport) :
    report.relinked + report.unchanged + report.failures.length = report.modules.length := by
  obtain ⟨entries⟩ := report
  simp only [relinked, unchanged, failures, ← List.countP_eq_length_filter]
  induction entries with
  | nil => rfl
  | cons entry rest ih =>
      have one : cond entry.status.isRelinked 1 0 + cond entry.status.isUnchanged 1 0 +
          cond entry.status.isFailed 1 0 = 1 := entry.status.one_of
      simp only [List.countP_cons, List.length_cons, ← Bool.cond_eq_ite]
      omega

namespace Store

/-! ## Writes to different files -/

variable {store : Store} {left right : Path}

theorem contains_iff {path : Path} :
    store.contains path = true ↔ ∃ entry ∈ store.entries, entry.1.same path = true := by
  rw [contains, get?, Option.isSome_map, List.find?_isSome]

theorem same_apart {path : Path} (apart : left.same right = false) (same : path.same left = true) :
    path.same right = false := by
  rw [Bool.eq_false_iff] at apart ⊢
  intro isRight
  rw [Path.same_iff] at same isRight
  exact apart (Path.same_iff.mpr (same.symm.trans isRight))

/-- Entries for different files are replaced in either order, if both files are there: a missing one
would be added at the end. -/
theorem putEntry_comm (apart : left.same right = false) (text other : Text)
    {entries : List (Path × Text)} (hasLeft : ∃ entry ∈ entries, entry.1.same left = true)
    (hasRight : ∃ entry ∈ entries, entry.1.same right = true) :
    putEntry right other (putEntry left text entries) =
      putEntry left text (putEntry right other entries) := by
  induction entries with
  | nil =>
      obtain ⟨entry, member, -⟩ := hasLeft
      cases member
  | cons entry rest ih =>
      simp only [putEntry]
      cases isLeft : entry.1.same left with
      | true => simp [putEntry, isLeft, same_apart apart isLeft]
      | false =>
          cases isRight : entry.1.same right with
          | true => simp [putEntry, isLeft, isRight]
          | false =>
              have inRest : ∀ path, entry.1.same path = false →
                  (∃ entry' ∈ entry :: rest, entry'.1.same path = true) →
                    ∃ entry' ∈ rest, entry'.1.same path = true := by
                rintro path notHere ⟨found, member, isPath⟩
                rcases List.mem_cons.mp member with rfl | later
                · rw [notHere] at isPath
                  cases isPath
                · exact ⟨found, later, isPath⟩
              have swapped := ih (inRest left isLeft hasLeft) (inRest right isRight hasRight)
              simp [putEntry, isLeft, isRight, swapped]

theorem put_comm (apart : left.same right = false) (text other : Text)
    (hasLeft : store.contains left = true) (hasRight : store.contains right = true) :
    (store.put left text).put right other = (store.put right other).put left text := by
  simp only [put, putEntry_comm apart text other (contains_iff.mp hasLeft) (contains_iff.mp hasRight)]

/-! ## Modules that are different files -/

variable {options : Options}

abbrev relinked (options : Options) (store : Store) (file : Path) : Store :=
  store.after file (written? (store.verdict options file))

theorem contains_of_written {text : Text}
    (isWritten : written? (store.verdict options left) = some text) : store.contains left = true := by
  cases is : store.verdict options left with
  | error fault =>
      rw [is] at isWritten
      cases isWritten
  | ok outcome =>
      obtain ⟨found, isRead, -⟩ := verdict_eq_ok is
      rw [contains, (read_eq_ok_iff.mp isRead).2]
      rfl

theorem verdict_relinked (apart : left.same right = false) :
    (store.relinked options left).verdict options right = store.verdict options right :=
  (alike_after options store left).verdict (get?_after_other apart _)

theorem get?_after_congr {other : Store} {file : Path} (same : store.get? file = other.get? file)
    (written : Option Text) :
    (store.after file written).get? file = (other.after file written).get? file := by
  cases written with
  | none => exact same
  | some text => exact (get?_put_same file.same_refl text).trans (get?_put_same file.same_refl text).symm

theorem relinked_relinked (apart : left.same right = false) :
    ((store.relinked options left).relinked options right).get? right =
      (store.relinked options right).get? right := by
  rw [relinked, verdict_relinked apart]
  exact get?_after_congr (get?_after_other apart _) _

theorem relinked_of_error {fault : ModuleFault} (failed : store.verdict options left = .error fault) :
    store.relinked options left = store := by
  rw [relinked, failed]
  rfl

theorem relinked_comm (apart : left.same right = false) :
    (store.relinked options left).relinked options right =
      (store.relinked options right).relinked options left := by
  have apart' : right.same left = false := by
    simpa only [Path.same, Bool.beq_comm] using apart
  simp only [relinked, verdict_relinked apart, verdict_relinked apart']
  cases leftText : written? (store.verdict options left) with
  | none => rfl
  | some text =>
      cases rightText : written? (store.verdict options right) with
      | none => rfl
      | some other =>
          exact put_comm apart text other (contains_of_written leftText)
            (contains_of_written rightText)

end Store

/-! ## Passes -/

/-- Modules below `root` that are different files. -/
def Apart (root : Path) (paths : List Path) : Prop :=
  paths.Pairwise fun path other => (root.join path).same (root.join other) = false

section Pass

variable {options : Options} {root : Path} {store : Store} {paths others : List Path}

theorem Apart.symm {path other : Path} (distinct : (root.join path).same (root.join other) = false) :
    (root.join other).same (root.join path) = false := by
  simpa only [Path.same, Bool.beq_comm] using distinct

theorem Apart.perm (apart : Apart root paths) (perm : others.Perm paths) : Apart root others :=
  (perm.pairwise_iff Apart.symm).mpr apart

theorem relinkModules_files (options : Options) (root : Path) (store : Store) (paths : List Path) :
    (relinkModules options root store paths).files =
      paths.foldl (fun store path => store.relinked options (root.join path)) store := by
  induction paths generalizing store with
  | nil => rfl
  | cons path rest ih => rw [(relinkModules_cons options root store path rest).1, ih, List.foldl_cons]

theorem Apart.files_perm (apart : Apart root paths) (perm : others.Perm paths) :
    (relinkModules options root store others).files =
      (relinkModules options root store paths).files := by
  rw [relinkModules_files, relinkModules_files]
  refine perm.foldl_eq' (fun first isFirst second isSecond files => ?_) store
  -- Two modules at one place of the list are the same file; only different ones are apart.
  by_cases equal : first = second
  · rw [equal]
  · have : Std.Symm fun path other => (root.join path).same (root.join other) = false :=
      ⟨fun _ _ => Apart.symm⟩
    have distinct := (apart.perm perm).forall isFirst isSecond equal
    exact Store.relinked_comm distinct

/-- A pass leaves files that are none of its modules, and adds and removes none. -/
theorem relinkModules_others (options : Options) (root : Path) (store : Store) (paths : List Path) :
    Store.Alike store (relinkModules options root store paths).files ∧
      ∀ file, (∀ path ∈ paths, (root.join path).same file = false) →
        (relinkModules options root store paths).files.get? file = store.get? file := by
  induction paths generalizing store with
  | nil => exact ⟨.refl store, fun _ _ => rfl⟩
  | cons path rest ih =>
      obtain ⟨alike, others⟩ := ih (store.relinked options (root.join path))
      rw [(relinkModules_cons options root store path rest).1]
      refine ⟨(Store.alike_after options store (root.join path)).trans alike, ?_⟩
      intro file elsewhere
      rw [others file fun other member => elsewhere other (List.mem_cons_of_mem path member)]
      exact Store.get?_after_other (elsewhere path (List.mem_cons_self ..)) _

theorem Apart.result (apart : Apart root paths) :
    (relinkModules options root store paths).result =
      paths.map fun path => ⟨path, .ofResult (store.verdict options (root.join path))⟩ := by
  induction paths generalizing store with
  | nil => rfl
  | cons path rest ih =>
      obtain ⟨fromRest, restApart⟩ := List.pairwise_cons.mp apart
      rw [(relinkModules_cons options root store path rest).2, ih restApart, List.map_cons]
      congr 1
      apply List.map_congr_left
      intro other member
      rw [Store.verdict_relinked (fromRest other member)]

theorem Apart.texts (apart : Apart root paths) {path : Path} (member : path ∈ paths) :
    (relinkModules options root store paths).files.get? (root.join path) =
      (store.relinked options (root.join path)).get? (root.join path) := by
  induction paths generalizing store with
  | nil => cases member
  | cons first rest ih =>
      obtain ⟨fromRest, restApart⟩ := List.pairwise_cons.mp apart
      rw [(relinkModules_cons options root store first rest).1]
      rcases List.mem_cons.mp member with rfl | inRest
      · refine (relinkModules_others options root _ rest).2 (root.join path) fun other isOther => ?_
        simpa only [Path.same, Bool.beq_comm] using fromRest other isOther
      · have distinct := fromRest path inRest
        rw [ih restApart inRest]
        exact Store.relinked_relinked distinct

end Pass

/-- A pass over modules in which none has to do with another: each fares as it does alone on the store
before the pass, and apart from the texts of those that did not fail everything is as it was. -/
structure Isolated (options : Options) (root : Path) (store : Store) (paths : List Path)
    (run : Run Store (List ModuleReport)) : Prop where
  statuses : run.result = paths.map fun path =>
    ⟨path, .ofResult (relinkModule options store (root.join path)).result⟩
  texts : ∀ path ∈ paths, run.files.get? (root.join path) =
    (relinkModule options store (root.join path)).files.get? (root.join path)
  failed : ∀ report ∈ run.result, report.status.isFailed = true →
    run.files.get? (root.join report.path) = store.get? (root.join report.path)
  elsewhere : ∀ file, (∀ path ∈ paths, (root.join path).same file = false) →
    run.files.get? file = store.get? file
  present : Store.Alike store run.files
  counts : (PassReport.mk run.result).relinked + (PassReport.mk run.result).unchanged +
    (PassReport.mk run.result).failures.length = paths.length

theorem Apart.isolated {root : Path} {paths : List Path} (apart : Apart root paths)
    (options : Options) (store : Store) :
    Isolated options root store paths (relinkModules options root store paths) := by
  have alone : ∀ file, (relinkModule options store file).result = store.verdict options file :=
    fun file => (Store.relinkModule_store options store file).1
  have texts : ∀ file, (relinkModule options store file).files = store.relinked options file :=
    fun file => (Store.relinkModule_store options store file).2
  obtain ⟨present, elsewhere⟩ := relinkModules_others options root store paths
  refine ⟨?_, ?_, ?_, elsewhere, present, ?_⟩
  · simp only [alone]
    exact apart.result
  · intro path member
    rw [texts]
    exact apart.texts member
  · intro report member isFailed
    rw [apart.result] at member
    obtain ⟨path, inPaths, rfl⟩ := List.mem_map.mp member
    rw [apart.texts inPaths]
    cases is : store.verdict options (root.join path) with
    | error fault => rw [Store.relinked_of_error is]
    | ok outcome =>
        simp only [is, ModuleStatus.ofResult] at isFailed
        cases changed : outcome.isRelinked <;> simp [changed, ModuleStatus.isFailed] at isFailed
  · rw [PassReport.counts, apart.result, List.length_map]

/-- A pass over modules that are different files comes to the same files in every order, and each
module fares as it does alone. -/
theorem relinkModules_perm (options : Options) (root : Path) (store : Store) {paths : List Path}
    (apart : Apart root paths) {others : List Path} (perm : others.Perm paths) :
    (relinkModules options root store others).files =
        (relinkModules options root store paths).files ∧
      Isolated options root store others (relinkModules options root store others) :=
  ⟨apart.files_perm perm, (apart.perm perm).isolated options store⟩

/-- Two modules that request each other and one that cannot be read, in two orders. -/
theorem relinkModules_perm_cycle :
    let store : Store :=
      ⟨[(⟨"out/a.mjs".toList⟩, "import './b'".toList), (⟨"out/b.mjs".toList⟩, "import './a'".toList)],
        [⟨"out/c.mjs".toList⟩], []⟩
    let paths : List Path := [⟨"a.mjs".toList⟩, ⟨"b.mjs".toList⟩, ⟨"c.mjs".toList⟩]
    let others : List Path := [⟨"c.mjs".toList⟩, ⟨"b.mjs".toList⟩, ⟨"a.mjs".toList⟩]
    Apart ⟨"out".toList⟩ paths ∧ others.Perm paths ∧
      (relinkModules (.standard .mjs) ⟨"out".toList⟩ store others).files =
          (relinkModules (.standard .mjs) ⟨"out".toList⟩ store paths).files ∧
        Isolated (.standard .mjs) ⟨"out".toList⟩ store others
          (relinkModules (.standard .mjs) ⟨"out".toList⟩ store others) := by
  intro store paths others
  have apart : Apart ⟨"out".toList⟩ paths := by
    unfold Apart
    decide
  have perm : others.Perm paths := by decide
  exact ⟨apart, perm, relinkModules_perm (.standard .mjs) ⟨"out".toList⟩ store apart perm⟩

end Relink
