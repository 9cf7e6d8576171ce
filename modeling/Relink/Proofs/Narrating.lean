import Relink.Pass
import Relink.Proofs.Accounting
import Relink.Report

/-!
# What a pass tells

A pass tells of every module that failed, and when it is verbose also what it came across in every module that
it could parse. It does the same whether it is verbose or not.
-/

set_option autoImplicit false

namespace Relink

/-! ## What is told of a module -/

/-- What a verbose run says of an entry: nothing of a request that is replaced. -/
def Entry.note? (file : Path) : Entry → Option Event
  | .resolved request =>
    if request.resolution.isReplaced then none else some (.keptRequest file request)
  | .odd anomaly => some (.oddStatement file anomaly)

def ModuleStatus.failure? : ModuleStatus → Option Event
  | .failed fault => some (.failed fault)
  | _ => none

def Event.isError (event : Event) : Bool := event.severity = .error

section Narrative

variable {Files : Type} [ModuleFiles Files]

/-- Whether a module has a new text that cannot be written. -/
def writeFails (files : Files) (file : Path) (outcome : Outcome) : Bool :=
  outcome.text.any fun newText => (ModuleFiles.write files file newText).toOption.isNone

/-- What there is to tell of a module: if it is read and parsed, its requests that are not replaced and its
anomalies, in source order; then that it is scanned and how many requests are replaced, if any, unless the
write fails. -/
def narrative (options : Options) (files : Files) (file : Path) : List Event :=
  match ModuleFiles.read files file with
  | .error _ => []
  | .ok text =>
    match Statement.split text with
    | .error _ => []
    | .ok found =>
      let isFile := ModuleFiles.isFile files
      let outcome := (relinkStatements isFile options file text found).outcome
      (found.filterMap (entryOf isFile options (file.parent?.getD ⟨[]⟩) text)).filterMap
          (Entry.note? file) ++
        if writeFails files file outcome then []
        else .scanned file ::
          if outcome.isRelinked then [.relinked file outcome.replacedRequests] else []

/-- What there is to tell of modules, each as it is in the files that those before it leave. -/
def passNarrative (options : Options) (root : Path) (files : Files) : List Path → List Event
  | [] => []
  | path :: rest =>
    narrative options files (root.join path) ++
      passNarrative options root (relinkModule options files (root.join path)).files rest

/-- The events that tell of failures are the messages in the entries of the modules that failed. -/
def TellsFailures (run : Run Files (List ModuleReport)) : Prop :=
  (run.events.filter Event.isError).map (fun event => some (JsonValue.string event.message)) =
    (PassReport.mk run.result).failures.map fun entry => entry.status.fields.lookup "message"

/-- How a verbose pass differs from a quiet one, and what they tell. -/
structure Narrated (options : Options) (root : Path) (files : Files) (paths : List Path)
    (quiet loud : Run Files (List ModuleReport)) : Prop where
  same : loud.files = quiet.files ∧ loud.trace = quiet.trace ∧ loud.result = quiet.result
  quietFailures : TellsFailures quiet
  loudFailures : TellsFailures loud
  quietNotes : quiet.events.filter (fun event => !event.isError) = []
  loudNotes : loud.events.filter (fun event => !event.isError) = passNarrative options root files paths

end Narrative

/-! ## Events of a module -/

theorem Treatment.events_eq (file : Path) (treatment : Treatment) :
    treatment.events file = (treatment.entry?.bind (Entry.note? file)).toList := by
  cases treatment with
  | copied => rfl
  | resolved request newText =>
      simp only [events, entry?, Option.bind_some, Entry.note?]
      split <;> rfl
  | odd anomaly => rfl

theorem relinkStatements_events (isFile : Path → Bool) (options : Options) (file : Path) {text : Text}
    {found : List Statement} (split : Statement.split text = .ok found) :
    (relinkStatements isFile options file text found).events =
      if options.verbose then
        (found.filterMap (entryOf isFile options (file.parent?.getD ⟨[]⟩) text)).filterMap
          (Entry.note? file)
      else [] := by
  obtain ⟨parts, tail, layout, rfl⟩ := layout_of_split split
  rw [layout.filterMap_entryOf, List.filterMap_filterMap]
  simp only [relinkStatements, layout.pieces, treatedPieces, List.map_map, List.flatMap_map,
    Treatment.events_eq, List.filterMap_eq_flatMap_toList, Function.comp_def]

/-! ## One module -/

theorem Entry.note_isError {file : Path} {entry : Entry} {event : Event}
    (noted : entry.note? file = some event) : event.isError = false := by
  cases entry with
  | resolved request =>
      rw [note?, Option.ite_none_left_eq_some] at noted
      cases noted.2
      rfl
  | odd anomaly =>
      cases noted
      rfl

theorem ModuleStatus.filter_failure (status : ModuleStatus) :
    status.failure?.toList.filter Event.isError = status.failure?.toList ∧
      status.failure?.toList.filter (fun event => !event.isError) = [] := by
  cases status <;> exact ⟨rfl, rfl⟩

section Verbose

variable (isFile : Path → Bool) (options : Options) (verbose : Bool)

theorem reassemble_verbose (isFirst : Bool) (treated : List (Piece × Treatment)) :
    reassemble { options with verbose := verbose } isFirst treated = reassemble options isFirst treated := by
  induction treated generalizing isFirst with
  | nil => rfl
  | cons entry rest ih =>
      obtain ⟨piece, treatment⟩ := entry
      rw [reassemble, reassemble, ih]
      rfl

theorem treat_verbose (directory : Path) (piece : Piece) :
    piece.treat isFile { options with verbose := verbose } directory = piece.treat isFile options directory := rfl

theorem relinkStatements_verbose (file : Path) (text : Text) (found : List Statement) :
    let relinking := relinkStatements isFile { options with verbose := verbose } file text found
    relinking.outcome = (relinkStatements isFile options file text found).outcome ∧
      relinking.probes = (relinkStatements isFile options file text found).probes := by
  simp only [relinkStatements, Outcome.ofPieces, treat_verbose, reassemble_verbose]
  exact ⟨trivial, trivial⟩

end Verbose

section Module

variable {Files : Type} [ModuleFiles Files] (options : Options) (files : Files) (file : Path)

/-- Whether a run is verbose changes nothing but what it tells. -/
theorem relinkModule_verbose (verbose : Bool) :
    let run := relinkModule { options with verbose := verbose } files file
    run.files = (relinkModule options files file).files ∧
      run.trace = (relinkModule options files file).trace ∧
      run.result = (relinkModule options files file).result := by
  simp only [relinkModule]
  cases ModuleFiles.read files file with
  | error fault => exact ⟨rfl, rfl, rfl⟩
  | ok text =>
      simp only [relinkText]
      cases Statement.split text with
      | error fault => exact ⟨rfl, rfl, rfl⟩
      | ok found =>
          obtain ⟨outcome, probes⟩ :=
            relinkStatements_verbose (ModuleFiles.isFile files) options verbose file text found
          simp only [Except.map, writeOutcome, outcome, probes]
          cases (relinkStatements (ModuleFiles.isFile files) options file text found).outcome.text with
          | none => exact ⟨rfl, rfl, rfl⟩
          | some newText =>
              simp only
              cases ModuleFiles.write files file newText <;> exact ⟨rfl, rfl, rfl⟩

theorem narrative_verbose (verbose : Bool) :
    narrative { options with verbose := verbose } files file = narrative options files file := by
  simp only [narrative, relinkStatements_verbose]
  rfl

/-- Writing an outcome tells nothing of its own. It fails exactly if there is a new text that cannot be
written. -/
theorem writeOutcome_told (trace : List Access) (events : List Event) (outcome : Outcome) :
    (writeOutcome files file trace events outcome).events = events ∧
      (writeFails files file outcome = true →
        ∃ fault, (writeOutcome files file trace events outcome).result = .error fault) ∧
      (writeFails files file outcome = false →
        (writeOutcome files file trace events outcome).result = .ok outcome) := by
  simp only [writeOutcome, writeFails]
  cases outcome.text with
  | none => exact ⟨rfl, nofun, fun _ => rfl⟩
  | some newText =>
      simp only [Option.any_some]
      cases ModuleFiles.write files file newText with
      | error fault => exact ⟨rfl, fun _ => ⟨_, rfl⟩, nofun⟩
      | ok written => exact ⟨rfl, nofun, fun _ => rfl⟩

theorem relinkModule_told :
    (relinkModule options files file).events ++
        finishEvents options file (.ofResult (relinkModule options files file).result) =
      (if options.verbose then narrative options files file else []) ++
        (ModuleStatus.ofResult (relinkModule options files file).result).failure?.toList := by
  simp only [relinkModule, narrative]
  cases ModuleFiles.read files file with
  | error fault => cases options.verbose <;> rfl
  | ok text =>
      simp only [relinkText]
      cases split : Statement.split text with
      | error fault => cases options.verbose <;> rfl
      | ok found =>
          simp only [Except.map]
          generalize Access.read file :: Access.ofProbes _ _ = trace
          obtain ⟨told, fails, succeeds⟩ := writeOutcome_told files file trace
            (relinkStatements (ModuleFiles.isFile files) options file text found).events
            (relinkStatements (ModuleFiles.isFile files) options file text found).outcome
          rw [told]
          cases isFailed : writeFails files file
              (relinkStatements (ModuleFiles.isFile files) options file text found).outcome with
          | true =>
              obtain ⟨fault, failed⟩ := fails isFailed
              rw [failed, relinkStatements_events _ options file split]
              cases options.verbose <;> simp [finishEvents, ModuleStatus.ofResult, ModuleStatus.failure?]
          | false =>
              rw [succeeds isFailed, relinkStatements_events _ options file split]
              simp only [ModuleStatus.ofResult]
              cases isVerbose : options.verbose <;>
                cases (relinkStatements (ModuleFiles.isFile files) options file text found).outcome.isRelinked <;>
                  simp [finishEvents, ModuleStatus.failure?, isVerbose]

theorem filter_narrative :
    (narrative options files file).filter Event.isError = [] ∧
      (narrative options files file).filter (fun event => !event.isError) =
        narrative options files file := by
  have note : ∀ event ∈ narrative options files file, event.isError = false := by
    intro event member
    unfold narrative at member
    split at member
    · cases member
    split at member
    · cases member
    rcases List.mem_append.mp member with isNote | isEnd
    · obtain ⟨entry, -, noted⟩ := List.mem_filterMap.mp isNote
      exact Entry.note_isError noted
    split at isEnd
    · cases isEnd
    rcases List.mem_cons.mp isEnd with rfl | isLast
    · rfl
    split at isLast
    · cases List.mem_singleton.mp isLast
      rfl
    · cases isLast
  constructor
  · exact List.filter_eq_nil_iff.mpr fun event member => by rw [note event member]; exact Bool.false_ne_true
  · exact List.filter_eq_self.mpr fun event member => by rw [note event member]; rfl

end Module

/-! ## Passes -/

section Pass

variable {Files : Type} [ModuleFiles Files] (options : Options) (root : Path)

theorem relinkModules_verbose (verbose : Bool) (files : Files) (paths : List Path) :
    let run := relinkModules { options with verbose := verbose } root files paths
    run.files = (relinkModules options root files paths).files ∧
      run.trace = (relinkModules options root files paths).trace ∧
      run.result = (relinkModules options root files paths).result := by
  induction paths generalizing files with
  | nil => exact ⟨rfl, rfl, rfl⟩
  | cons path rest ih =>
      obtain ⟨first, trace, result⟩ := relinkModule_verbose options files (root.join path) verbose
      obtain ⟨laterFiles, laterTrace, laterResult⟩ := ih (relinkModule options files (root.join path)).files
      simp only [relinkModules, first, trace, result, laterFiles, laterTrace, laterResult]
      exact ⟨trivial, trivial, trivial⟩

theorem passNarrative_verbose (verbose : Bool) (files : Files) (paths : List Path) :
    passNarrative { options with verbose := verbose } root files paths =
      passNarrative options root files paths := by
  induction paths generalizing files with
  | nil => rfl
  | cons path rest ih =>
      rw [passNarrative, passNarrative, narrative_verbose, (relinkModule_verbose ..).1, ih]

theorem relinkModules_told (files : Files) (paths : List Path) :
    let run := relinkModules options root files paths
    run.events.filter Event.isError = run.result.flatMap (fun entry => entry.status.failure?.toList) ∧
      run.events.filter (fun event => !event.isError) =
        if options.verbose then passNarrative options root files paths else [] := by
  induction paths generalizing files with
  | nil => cases options.verbose <;> exact ⟨rfl, rfl⟩
  | cons path rest ih =>
      obtain ⟨failures, notes⟩ := ih (relinkModule options files (root.join path)).files
      obtain ⟨noFailures, allNotes⟩ := filter_narrative options files (root.join path)
      simp only [relinkModules, relinkModule_told, List.filter_append, failures, notes, passNarrative,
        List.flatMap_cons, (ModuleStatus.filter_failure _).1, (ModuleStatus.filter_failure _).2]
      cases options.verbose <;> simp [noFailures, allNotes]

omit [ModuleFiles Files] in
theorem tellsFailures_of_filter {run : Run Files (List ModuleReport)}
    (failures : run.events.filter Event.isError =
      run.result.flatMap fun entry => entry.status.failure?.toList) :
    TellsFailures run := by
  rw [TellsFailures, failures, PassReport.failures]
  simp only
  induction run.result with
  | nil => rfl
  | cons entry rest ih =>
      obtain ⟨path, status⟩ := entry
      cases status with
      | failed fault => exact congrArg (some (JsonValue.string fault.message) :: ·) ih
      | _ => exact ih

/-- Whether a pass is verbose changes what it tells and nothing else. It tells once of each module that failed,
in the words of its report, and if it is verbose also what there is to tell of each module, one after another. -/
theorem relinkModules_narrates (files : Files) (paths : List Path) :
    Narrated options root files paths
      (relinkModules { options with verbose := false } root files paths)
      (relinkModules { options with verbose := true } root files paths) := by
  obtain ⟨quietFailures, quietNotes⟩ := relinkModules_told { options with verbose := false } root files paths
  obtain ⟨loudFailures, loudNotes⟩ := relinkModules_told { options with verbose := true } root files paths
  obtain ⟨quietFiles, quietTrace, quietResult⟩ := relinkModules_verbose options root false files paths
  obtain ⟨loudFiles, loudTrace, loudResult⟩ := relinkModules_verbose options root true files paths
  refine ⟨⟨loudFiles.trans quietFiles.symm, loudTrace.trans quietTrace.symm,
    loudResult.trans quietResult.symm⟩, tellsFailures_of_filter quietFailures,
    tellsFailures_of_filter loudFailures, quietNotes, ?_⟩
  rw [loudNotes, if_pos rfl, passNarrative_verbose]

end Pass

end Relink
