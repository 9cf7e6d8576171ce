import Relink.Pass
import Relink.Proofs.Settling
import Relink.Proofs.Store

/-!
# Passes over a store

A pass writes no file but those of its modules, and once a module is relinked nothing is left to be done
for it. So a second pass changes no file, and fails where the first one failed.
-/

set_option autoImplicit false

namespace Relink

/-! ## One module -/

def written? (result : Except ModuleFault Outcome) : Option Text := result.toOption.bind Outcome.text

namespace Store

/-- The store with a text in the place of a file, if there is one. -/
def after (store : Store) (file : Path) : Option Text → Store
  | none => store
  | some text => store.put file text

/-- Stores with the same files, which differ in their texts only. -/
structure Alike (store later : Store) : Prop where
  contains : later.contains = store.contains
  unreadable : later.unreadable = store.unreadable
  unwritable : later.unwritable = store.unwritable

theorem Alike.refl (store : Store) : Alike store store := ⟨rfl, rfl, rfl⟩

theorem Alike.trans {store middle later : Store} (first : Alike store middle)
    (second : Alike middle later) : Alike store later :=
  ⟨second.contains.trans first.contains, second.unreadable.trans first.unreadable,
    second.unwritable.trans first.unwritable⟩

/-- What a module of a store comes to: it fails for the first thing that it needs and cannot have. -/
def verdict (options : Options) (store : Store) (file : Path) : Except ModuleFault Outcome :=
  match store.read file with
  | .error fault => .error (.inaccessible file .read fault)
  | .ok text =>
    match outcomeOf store.contains options file text with
    | .error fault => .error (.unparsable file fault)
    | .ok outcome =>
      if outcome.text.isSome && store.unwritable.any (·.same file) then
        .error (.inaccessible file .write .writeDenied)
      else .ok outcome

/-- Relinking a module writes its new text and nothing else. -/
theorem relinkModule_store (options : Options) (store : Store) (file : Path) :
    (relinkModule options store file).result = store.verdict options file ∧
      (relinkModule options store file).files =
        store.after file (written? (store.verdict options file)) := by
  have isRead : ModuleFiles.read store file = store.read file := rfl
  have isFile : ModuleFiles.isFile store = store.contains := rfl
  simp only [relinkModule, verdict, isRead]
  cases store.read file with
  | error fault => exact ⟨rfl, rfl⟩
  | ok text =>
      simp only [isFile, outcomeOf]
      cases relinkText store.contains options file text with
      | error fault => exact ⟨rfl, rfl⟩
      | ok relinking =>
          simp only [writeOutcome, Except.map]
          cases changed : relinking.outcome.text with
          | none =>
              simp only [Option.isSome_none, Bool.false_and, Bool.false_eq_true, if_false]
              exact ⟨trivial, by simp only [written?, Except.toOption, Option.bind_some, changed, after]⟩
          | some newText =>
              have isWritten : ModuleFiles.write store file newText = store.write file newText := rfl
              simp only [isWritten, write, Option.isSome_some, Bool.true_and]
              cases store.unwritable.any (·.same file) with
              | true => exact ⟨rfl, rfl⟩
              | false =>
                  simp only [Bool.false_eq_true, if_false, written?, Except.toOption,
                    Option.bind_some, changed]
                  exact ⟨trivial, rfl⟩

variable {options : Options} {store later : Store} {file other : Path}

theorem Alike.read (alike : Alike store later) (same : later.get? file = store.get? file) :
    later.read file = store.read file := by
  rw [Store.read, Store.read, alike.unreadable, same]

theorem Alike.verdict (alike : Alike store later) (same : later.get? file = store.get? file) :
    later.verdict options file = store.verdict options file := by
  simp only [Store.verdict, alike.read same, alike.contains, alike.unwritable]

/-- Under paths that name the same, a module comes to the same, but for the path of a fault. -/
theorem verdict_same (same : file.same other = true) :
    (store.verdict options file).toOption = (store.verdict options other).toOption := by
  have outcomes : ∀ text, outcomeOf store.contains options file text =
      outcomeOf store.contains options other text := fun text =>
    outcomeOf_congr fun specifier => contains_congr (Path.same_follow same specifier)
  simp only [verdict, read_congr same, outcomes, Path.same_congr same]
  cases store.read other with
  | error fault => rfl
  | ok text =>
      simp only
      cases outcomeOf store.contains options other text with
      | error fault => rfl
      | ok outcome =>
          simp only
          cases outcome.text.isSome && store.unwritable.any (·.same other) <;> rfl

theorem verdict_eq_ok {outcome : Outcome} (is : store.verdict options file = .ok outcome) :
    ∃ text, store.read file = .ok text ∧
      outcomeOf store.contains options file text = .ok outcome := by
  unfold verdict at is
  split at is
  · cases is
  rename_i text isRead
  split at is
  · cases is
  rename_i found isFound
  split at is
  · cases is
  · cases is
    exact ⟨text, isRead, isFound⟩

theorem verdict_of_kept {text : Text} {outcome : Outcome} (isRead : store.read file = .ok text)
    (is : outcomeOf store.contains options file text = .ok outcome) (kept : outcome.text = none) :
    store.verdict options file = .ok outcome := by
  simp only [verdict, isRead, is, kept, Option.isSome_none, Bool.false_and, Bool.false_eq_true,
    if_false]

/-- What is written for a module stands in the place of a text. -/
theorem alike_after (options : Options) (store : Store) (file : Path) :
    Alike store (store.after file (written? (store.verdict options file))) := by
  cases is : store.verdict options file with
  | error fault => exact .refl store
  | ok outcome =>
      obtain ⟨text, isRead, -⟩ := verdict_eq_ok is
      have contained : store.contains file = true := by
        rw [contains, (read_eq_ok_iff.mp isRead).2]
        rfl
      simp only [written?, Except.toOption, Option.bind_some]
      cases outcome.text with
      | none => exact .refl store
      | some newText => exact ⟨contains_put contained newText, rfl, rfl⟩

theorem get?_after_other (apart : file.same other = false) (written : Option Text) :
    (store.after file written).get? other = store.get? other := by
  cases written with
  | none => rfl
  | some text => exact get?_put_other apart text

theorem get?_after {text : Text} (present : store.get? file = some text) (written : Option Text) :
    (store.after file written).get? file = some (written.getD text) := by
  cases written with
  | none => exact present
  | some newText => exact get?_put_same file.same_refl newText

theorem Alike.read_after (alike : Alike store later) {text : Text} {written : Option Text}
    (isRead : store.read file = .ok text)
    (isWritten : later.get? file = (store.after file written).get? file) :
    later.read file = .ok (written.getD text) := by
  obtain ⟨readable, present⟩ := read_eq_ok_iff.mp isRead
  rw [get?_after present] at isWritten
  exact read_eq_ok_iff.mpr ⟨by rw [alike.unreadable]; exact readable, isWritten⟩

end Store

/-! ## Settled modules -/

/-- A module whose outcome is `old` in the store `before` and `new` in the store `after`, where nothing is
left to be relinked: each specifier that was replaced names a file and stays as it is. -/
structure Settled (options : Options) (before after : Store) (file : Path) (old new : Outcome) :
    Prop where
  texts : ∃ text, before.read file = .ok text ∧
    outcomeOf before.contains options file text = .ok old ∧
    after.read file = .ok (old.text.getD text) ∧
    outcomeOf after.contains options file (old.text.getD text) = .ok new
  requests : new.requests = old.requests.map ResolvedRequest.settled
  kept : ∀ request ∈ new.requests, request.resolution.isReplaced = false
  names : ∀ specifier replacement candidate,
    ⟨specifier, .replaced replacement candidate⟩ ∈ old.requests →
      after.contains ((file.parent?.getD ⟨[]⟩).follow replacement) = true ∧
        resolutionOf after.contains options (file.parent?.getD ⟨[]⟩) replacement =
          .alreadyResolved ∧
        ⟨replacement, .alreadyResolved⟩ ∈ new.requests

section Settled

variable {options : Options} {store later : Store} {file other : Path} {old : Outcome}

/-- A module is settled where it has the text that relinking it gives. -/
theorem Store.Alike.settled (alike : Store.Alike store later)
    (is : store.verdict options file = .ok old)
    (written : later.get? file = (store.after file old.text).get? file) :
    ∃ new, new.text = none ∧ Settled options store later file old new := by
  obtain ⟨text, isRead, isOld⟩ := Store.verdict_eq_ok is
  obtain ⟨new, isNew, kept, requests⟩ := outcomeOf_settled isOld
  rw [← alike.contains] at isNew
  refine ⟨new, kept, ⟨text, isRead, isOld, ?_, isNew⟩, requests, outcomeOf_kept isNew kept, ?_⟩
  · exact alike.read_after isRead written
  · intro specifier replacement candidate member
    have resolved := outcomeOf_resolved isOld member
    have replaces := Resolution.replaces_of_ofSpecifier resolved.symm
    refine ⟨?_, ?_, ?_⟩
    · rw [alike.contains]
      exact replaces.exists_
    · rw [resolutionOf, replaces.alreadyResolved]
      rfl
    · rw [requests]
      exact List.mem_map.mpr ⟨_, member, rfl⟩

/-- Texts that were written before do not matter where the text of the module stayed. -/
theorem Settled.behind {middle : Store} {new : Outcome}
    (settled : Settled options middle later file old new) (alike : Store.Alike store middle)
    (same : middle.get? file = store.get? file) : Settled options store later file old new := by
  obtain ⟨⟨text, isRead, isOld, isNew⟩, requests, kept, names⟩ := settled
  rw [alike.read same] at isRead
  rw [alike.contains] at isOld
  exact ⟨⟨text, isRead, isOld, isNew⟩, requests, kept, names⟩

end Settled

/-! ## Repetition -/

/-- How a module fares when the pass is repeated. -/
def ModuleStatus.repeated : ModuleStatus → ModuleStatus
  | .failed fault => .failed fault
  | _ => .unchanged

def ModuleReport.repeated (report : ModuleReport) : ModuleReport := ⟨report.path, report.status.repeated⟩

theorem ModuleStatus.repeated_ofResult (outcome : Outcome) :
    (ofResult (.ok outcome)).repeated = .unchanged := by
  simp only [ofResult]
  cases outcome.isRelinked <;> rfl

/-- Once a module is relinked nothing is written for it any more, and it fails as it did. -/
theorem Store.verdict_after (options : Options) (store : Store) (file : Path) :
    let next := store.after file (written? (store.verdict options file))
    written? (next.verdict options file) = none ∧
      ModuleStatus.ofResult (next.verdict options file) =
        (ModuleStatus.ofResult (store.verdict options file)).repeated := by
  have alike := alike_after options store file
  cases is : store.verdict options file with
  | error fault =>
      simp only [written?, Except.toOption, Option.bind_none, after, is]
      exact ⟨trivial, rfl⟩
  | ok old =>
      rw [is] at alike
      obtain ⟨new, kept, settled⟩ := alike.settled is rfl
      obtain ⟨text, -, -, isRead, isNew⟩ := settled.texts
      rw [ModuleStatus.repeated_ofResult]
      simp only [verdict_of_kept isRead isNew kept, ModuleStatus.ofResult, Outcome.isRelinked, kept]
      exact ⟨kept, rfl⟩

/-! ## Passes -/

theorem relinkModules_cons (options : Options) (root : Path) (store : Store) (path : Path)
    (rest : List Path) :
    let file := root.join path
    let next := store.after file (written? (store.verdict options file))
    (relinkModules options root store (path :: rest)).files =
        (relinkModules options root next rest).files ∧
      (relinkModules options root store (path :: rest)).result =
        ⟨path, .ofResult (store.verdict options file)⟩ ::
          (relinkModules options root next rest).result := by
  intro file next
  obtain ⟨result, files⟩ := Store.relinkModule_store options store file
  simp only [relinkModules, next, file] at result files ⊢
  rw [result, files]
  exact ⟨rfl, rfl⟩

/-- A pass leaves a module as it is where there is nothing to be written for it. -/
theorem relinkModules_stable {options : Options} {store : Store} {file : Path} (root : Path)
    (kept : written? (store.verdict options file) = none) (paths : List Path) :
    Store.Alike store (relinkModules options root store paths).files ∧
      (relinkModules options root store paths).files.get? file = store.get? file := by
  induction paths generalizing store with
  | nil => exact ⟨.refl store, rfl⟩
  | cons path rest ih =>
      let next := store.after (root.join path) (written? (store.verdict options (root.join path)))
      have alike : store.Alike next := Store.alike_after options store (root.join path)
      have same : next.get? file = store.get? file := by
        cases isFile : (root.join path).same file with
        | false => exact Store.get?_after_other isFile _
        | true =>
            have nothing : written? (store.verdict options (root.join path)) = none := by
              rw [written?, Store.verdict_same isFile]
              exact kept
            simp only [next, nothing]
            rfl
      obtain ⟨later, stays⟩ := ih (by rw [alike.verdict same]; exact kept)
      rw [(relinkModules_cons options root store path rest).1]
      exact ⟨alike.trans later, stays.trans same⟩

theorem ModuleStatus.of_succeeded {result : Except ModuleFault Outcome}
    (succeeded : (ofResult result).isFailed = false) : ∃ outcome, result = .ok outcome := by
  cases result with
  | error fault => cases succeeded
  | ok outcome => exact ⟨outcome, rfl⟩

/-- What is settled behind the relinking of a module is settled before it, be it the same module. -/
theorem Settled.before_module {options : Options} {store later : Store} {file other : Path}
    {old new : Outcome}
    (settled : Settled options (store.after file (written? (store.verdict options file))) later other
      old new) (alike : store.Alike later)
    (stays : later.get? file =
      (store.after file (written? (store.verdict options file))).get? file) :
    ∃ first last, Settled options store later other first last := by
  cases isFile : file.same other with
  | false =>
      exact ⟨old, new, settled.behind (Store.alike_after options store file)
        (Store.get?_after_other isFile _)⟩
  | true =>
      have same := @Store.verdict_same options store file other isFile
      cases is : store.verdict options file with
      | error fault =>
          rw [is] at settled
          exact ⟨old, new, settled⟩
      | ok first =>
          rw [is] at same stays
          obtain ⟨text, isRead, -⟩ := Store.verdict_eq_ok is
          have present := (Store.read_eq_ok_iff.mp isRead).2
          have otherPresent : store.get? other = some text := by
            rw [← Store.get?_congr isFile, present]
          have otherIs : store.verdict options other = .ok first := by
            cases otherIs : store.verdict options other with
            | error fault =>
                rw [otherIs] at same
                cases same
            | ok found =>
                rw [otherIs] at same
                cases same
                rfl
          obtain ⟨last, -, isSettled⟩ := alike.settled otherIs (by
            rw [Store.get?_after otherPresent, ← Store.get?_congr isFile, stays,
              Store.get?_after present]
            rfl)
          exact ⟨first, last, isSettled⟩

/-- After a pass every module that did not fail is settled. -/
theorem relinkModules_settled (options : Options) (root : Path) (store : Store)
    (paths : List Path) :
    ∀ report ∈ (relinkModules options root store paths).result, report.status.isFailed = false →
      ∃ old new, Settled options store (relinkModules options root store paths).files
        (root.join report.path) old new := by
  induction paths generalizing store with
  | nil =>
      intro report member
      cases member
  | cons path rest ih =>
      intro report member succeeded
      let file := root.join path
      let next := store.after file (written? (store.verdict options file))
      have alike : store.Alike next := Store.alike_after options store file
      obtain ⟨nothing, -⟩ := Store.verdict_after options store file
      obtain ⟨later, stays⟩ := relinkModules_stable root nothing rest
      obtain ⟨files, result⟩ := relinkModules_cons options root store path rest
      rw [result] at member
      rw [files]
      rcases List.mem_cons.mp member with rfl | inRest
      · obtain ⟨old, is⟩ := ModuleStatus.of_succeeded succeeded
        obtain ⟨new, -, settled⟩ := (alike.trans later).settled is (by
          rw [stays, is]
          rfl)
        exact ⟨old, new, settled⟩
      · obtain ⟨old, new, settled⟩ := ih next report inRest succeeded
        exact settled.before_module (alike.trans later) stays

/-- A second pass over the same modules changes no file. Every module that failed fails again, and all
others are settled: nothing in them is left to be relinked. -/
theorem relinkModules_repeated (options : Options) (root : Path) (store : Store)
    (paths : List Path) :
    let first := relinkModules options root store paths
    let second := relinkModules options root first.files paths
    second.files = first.files ∧ second.result = first.result.map ModuleReport.repeated ∧
      ∀ report ∈ first.result, report.status.isFailed = false →
        ∃ old new, Settled options store first.files (root.join report.path) old new := by
  induction paths generalizing store with
  | nil =>
      refine ⟨rfl, rfl, ?_⟩
      intro report member
      cases member
  | cons path rest ih =>
      intro first second
      let file := root.join path
      let next := store.after file (written? (store.verdict options file))
      let last := (relinkModules options root next rest).files
      have alike : store.Alike next := Store.alike_after options store file
      obtain ⟨nothing, repeated⟩ := Store.verdict_after options store file
      obtain ⟨later, stays⟩ := relinkModules_stable root nothing rest
      obtain ⟨files, result⟩ := relinkModules_cons options root store path rest
      have again : last.verdict options file = next.verdict options file := later.verdict stays
      obtain ⟨otherFiles, otherResult⟩ := relinkModules_cons options root last path rest
      -- Nothing is written for the first module again, so the second pass over the others begins where theirs did.
      have unwritten : last.after file (written? (last.verdict options file)) = last := by
        rw [again, nothing]
        rfl
      rw [unwritten] at otherFiles otherResult
      obtain ⟨sameFiles, sameResult, -⟩ := ih next
      refine ⟨?_, ?_, relinkModules_settled options root store (path :: rest)⟩
      · simp only [second, first, files]
        exact otherFiles.trans sameFiles
      · simp only [second, first, files, result]
        apply otherResult.trans
        rw [again, repeated, sameResult]
        rfl

end Relink
