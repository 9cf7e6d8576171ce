import Relink.Proofs.Pass

/-!
# Accesses to files

Relinking a module reads it, asks which files there are, and writes it at most once. What it comes to
depends on nothing but the text that is read, the answers to what is asked and whether the module may be
written. Where it does not end with a new text in place, it leaves the files as they are.
-/

set_option autoImplicit false

namespace Relink

/-! ## What is asked decides

A question that is not among the probes of a run has no influence on it: where other files give the same
answers to the probes, the run is the same. -/

section Agree

variable {isFile other : Path → Bool} {directory : Path} {options : Options}

theorem firstTarget_agree {targets : List Text}
    (agree : ∀ path ∈ (firstTarget isFile directory targets).probes, other path = isFile path) :
    firstTarget other directory targets = firstTarget isFile directory targets := by
  induction targets with
  | nil => rfl
  | cons target rest ih =>
      rw [firstTarget] at agree
      rw [firstTarget, firstTarget]
      cases exists_ : isFile (directory.follow target) with
      | true =>
          simp only [exists_, if_true, List.forall_mem_singleton] at agree
          simp only [agree, if_true]
      | false =>
          simp only [exists_, Bool.false_eq_true, if_false, Probed.after, List.singleton_append,
            List.forall_mem_cons] at agree
          obtain ⟨here, later⟩ := agree
          simp only [here, Bool.false_eq_true, if_false, ih later]

theorem Candidate.lookup_agree {specifier : Text} {candidate : Candidate}
    (agree : ∀ path ∈ (candidate.lookup isFile options directory specifier).probes,
      other path = isFile path) :
    candidate.lookup other options directory specifier =
      candidate.lookup isFile options directory specifier := by
  rw [lookup, firstTarget_agree agree, ← lookup]

namespace Resolution

theorem ofCandidates_agree {specifier : Text} {candidates : List Candidate}
    (agree : ∀ path ∈ (ofCandidates isFile options directory specifier candidates).probes,
      other path = isFile path) :
    ofCandidates other options directory specifier candidates =
      ofCandidates isFile options directory specifier candidates := by
  induction candidates with
  | nil => rfl
  | cons candidate rest ih =>
      rw [ofCandidates] at agree
      -- The probes of the candidate come first, whatever it makes of the specifier.
      have first : candidate.lookup other options directory specifier =
          candidate.lookup isFile options directory specifier := by
        refine Candidate.lookup_agree fun path member => agree path ?_
        split
        · exact member
        · exact member
        · exact List.mem_append_left _ member
      rw [ofCandidates, ofCandidates, first]
      split
      · rfl
      · rfl
      · rename_i failed
        simp only [failed] at agree
        rw [ih fun path member => agree path (List.mem_append_right _ member)]

theorem ofSpecifier_agree {specifier : Text}
    (agree : ∀ path ∈ (ofSpecifier isFile options directory specifier).probes,
      other path = isFile path) :
    ofSpecifier other options directory specifier = ofSpecifier isFile options directory specifier := by
  unfold ofSpecifier at agree ⊢
  split
  · rfl
  split
  · rfl
  rename_i isLocal bare
  rw [if_neg isLocal, if_neg bare] at agree
  exact ofCandidates_agree agree

end Resolution

theorem Piece.treat_agree {piece : Piece}
    (agree : ∀ path ∈ (piece.treat isFile options directory).probes, other path = isFile path) :
    piece.treat other options directory = piece.treat isFile options directory := by
  unfold Piece.treat at agree ⊢
  split
  · rfl
  split
  · rfl
  rename_i request requests _ parts taken
  simp only [requests, taken] at agree
  rw [Resolution.ofSpecifier_agree agree]

variable {file : Path} {text : Text}

theorem relinkText_eq_ok {relinking : Relinking} (relinked : relinkText isFile options file text = .ok relinking) :
    ∃ found, Statement.split text = .ok found ∧
      relinking = relinkStatements isFile options file text found := by
  cases split : Statement.split text with
  | error fault =>
      rw [relinkText, split] at relinked
      cases relinked
  | ok found =>
      rw [relinkText, split] at relinked
      cases relinked
      exact ⟨found, rfl, rfl⟩

theorem relinkText_eq_error {fault : SyntaxFault} (failed : relinkText isFile options file text = .error fault) :
    Statement.split text = .error fault := by
  cases split : Statement.split text with
  | error other =>
      rw [relinkText, split] at failed
      cases failed
      rfl
  | ok found =>
      rw [relinkText, split] at failed
      cases failed

/-- A module comes to the same, by the same probes, where these are answered alike. -/
theorem relinkText_agree {relinking : Relinking}
    (relinked : relinkText isFile options file text = .ok relinking)
    (agree : ∀ path ∈ relinking.probes, other path = isFile path) :
    relinkText other options file text = .ok relinking := by
  obtain ⟨found, split, rfl⟩ := relinkText_eq_ok relinked
  have treated : ∀ piece ∈ (pieces 0 text found).1,
      piece.treat other options (file.parent?.getD ⟨[]⟩) =
        piece.treat isFile options (file.parent?.getD ⟨[]⟩) := by
    intro piece member
    refine Piece.treat_agree fun path isProbe => agree path ?_
    exact List.mem_flatMap.mpr ⟨_, List.mem_map.mpr ⟨piece, member, rfl⟩, isProbe⟩
  have same : (pieces 0 text found).1.map (fun piece =>
        (piece, piece.treat other options (file.parent?.getD ⟨[]⟩))) =
      (pieces 0 text found).1.map fun piece =>
        (piece, piece.treat isFile options (file.parent?.getD ⟨[]⟩)) :=
    List.map_congr_left fun piece member => by rw [treated piece member]
  rw [relinkText, split]
  simp only [Except.map, relinkStatements, same]

end Agree

/-! ## One module of a store -/

def Outcome.writes (file : Path) (outcome : Outcome) : List Access :=
  if outcome.text.isSome then [.write file] else []

namespace Store

section Course

variable {options : Options} {store : Store} {file : Path}

theorem relinkModule_unread {fault : FileFault} (unread : store.read file = .error fault) :
    (relinkModule options store file).trace = [.read file] ∧
      (relinkModule options store file).events = [] := by
  have isRead : ModuleFiles.read store file = .error fault := unread
  simp only [relinkModule, isRead]
  exact ⟨trivial, trivial⟩

theorem relinkModule_unparsed {text : Text} {fault : SyntaxFault} (isRead : store.read file = .ok text)
    (failed : relinkText store.contains options file text = .error fault) :
    (relinkModule options store file).trace = [.read file] ∧
      (relinkModule options store file).events = [] := by
  have isRead : ModuleFiles.read store file = .ok text := isRead
  have failed : relinkText (ModuleFiles.isFile store) options file text = .error fault := failed
  simp only [relinkModule, isRead, failed]
  exact ⟨trivial, trivial⟩

theorem relinkModule_parsed {text : Text} {relinking : Relinking} (isRead : store.read file = .ok text)
    (relinked : relinkText store.contains options file text = .ok relinking) :
    (relinkModule options store file).trace = .read file ::
        (Access.ofProbes store.contains relinking.probes ++ relinking.outcome.writes file) ∧
      (relinkModule options store file).events = relinking.events := by
  have isRead : ModuleFiles.read store file = .ok text := isRead
  have relinked : relinkText (ModuleFiles.isFile store) options file text = .ok relinking := relinked
  have probes : Access.ofProbes (ModuleFiles.isFile store) relinking.probes =
      Access.ofProbes store.contains relinking.probes := rfl
  simp only [relinkModule, isRead, relinked, writeOutcome, Outcome.writes, probes]
  cases relinking.outcome.text with
  | none => simp
  | some newText =>
      simp only [Option.isSome_some, if_true]
      cases ModuleFiles.write store file newText <;> exact ⟨rfl, rfl⟩

end Course

/-- Two stores that relinking a module cannot tell apart: they give the same text or fault for the module,
the same answers to what is asked, and let it be written or not alike. -/
structure Indistinct (store other : Store) (file : Path) (trace : List Access) : Prop where
  read : other.read file = store.read file
  answers : ∀ path found, .isFile path found ∈ trace → other.contains path = found
  writable : other.unwritable.any (·.same file) = store.unwritable.any (·.same file)

end Store

/-- Whether a trace is one read of a module, then questions if the text can be parsed, then an attempt to write
the module if there is a new text for it. -/
def IsCourse (options : Options) (store : Store) (file : Path) (trace : List Access) : Prop :=
  ∃ probes writes, trace = .read file :: (Access.ofProbes store.contains probes ++ writes) ∧
    (probes ≠ [] → ∃ text found, store.read file = .ok text ∧ Statement.split text = .ok found) ∧
    (writes = [] ∨ writes = [.write file]) ∧
    (writes = [.write file] ↔ ∃ text relinking newText, store.read file = .ok text ∧
      relinkText store.contains options file text = .ok relinking ∧
        relinking.outcome.text = some newText)

/-- What relinking a module does to a store and what of it can be seen. -/
structure Accessed (options : Options) (store : Store) (file : Path)
    (run : Run Store (Except ModuleFault Outcome)) : Prop where
  /-- It fails where the module cannot be read, parsed or written, and else has the outcome of its text. -/
  result : run.result = store.verdict options file
  trace : IsCourse options store file run.trace
  /-- A new text is in the place of the old one, and no other file changes. -/
  rewritten : ∀ outcome newText, run.result = .ok outcome → outcome.text = some newText →
    ∀ path, run.files.get? path = if file.same path = true then some newText else store.get? path
  kept : ∀ outcome, run.result = .ok outcome → outcome.text = none → run.files = store
  failed : ∀ fault, run.result = .error fault → run.files = store
  present : store.Alike run.files

theorem relinkModule_trace (options : Options) (store : Store) (file : Path) :
    IsCourse options store file (relinkModule options store file).trace := by
  cases isRead : store.read file with
  | error fault =>
      refine ⟨[], [], (Store.relinkModule_unread isRead).1, fun some => absurd rfl some, .inl rfl, ?_⟩
      simp [isRead]
  | ok text =>
      cases relinked : relinkText store.contains options file text with
      | error fault =>
          refine ⟨[], [], (Store.relinkModule_unparsed isRead relinked).1, fun some => absurd rfl some,
            .inl rfl, ?_⟩
          simp [isRead, relinked]
      | ok relinking =>
          obtain ⟨found, split, -⟩ := relinkText_eq_ok relinked
          refine ⟨relinking.probes, relinking.outcome.writes file,
            (Store.relinkModule_parsed isRead relinked).1, fun _ => ⟨text, found, isRead, split⟩, ?_, ?_⟩
          · unfold Outcome.writes
            split
            · exact .inr rfl
            · exact .inl rfl
          · cases changed : relinking.outcome.text <;> simp [Outcome.writes, isRead, relinked, changed]

theorem relinkModule_accessed (options : Options) (store : Store) (file : Path) :
    Accessed options store file (relinkModule options store file) := by
  obtain ⟨result, files⟩ := Store.relinkModule_store options store file
  refine ⟨result, relinkModule_trace options store file, ?_, ?_, ?_, ?_⟩
  · intro outcome newText succeeded changed path
    rw [result] at succeeded
    simp only [files, succeeded, written?, Except.toOption, Option.bind_some, changed, Store.after]
    exact Store.get?_put store file newText path
  · intro outcome succeeded unchanged
    rw [result] at succeeded
    simp only [files, succeeded, written?, Except.toOption, Option.bind_some, unchanged, Store.after]
  · intro fault failed
    rw [result] at failed
    simp only [files, failed, written?, Except.toOption, Option.bind_none, Store.after]
  · rw [files]
    exact Store.alike_after options store file

/-- What is asked and told and how the module fares is the same on stores that cannot be told apart. -/
theorem Store.Indistinct.alike {options : Options} {store other : Store} {file : Path}
    (indistinct : store.Indistinct other file (relinkModule options store file).trace) :
    (relinkModule options other file).result = (relinkModule options store file).result ∧
      (relinkModule options other file).trace = (relinkModule options store file).trace ∧
      (relinkModule options other file).events = (relinkModule options store file).events := by
  obtain ⟨read, answers, writable⟩ := indistinct
  rw [(relinkModule_store options other file).1, (relinkModule_store options store file).1]
  cases isRead : store.read file with
  | error fault =>
      have otherRead := read.trans isRead
      rw [(relinkModule_unread isRead).1, (relinkModule_unread isRead).2,
        (relinkModule_unread otherRead).1, (relinkModule_unread otherRead).2]
      simp [verdict, isRead, otherRead]
  | ok text =>
      have otherRead := read.trans isRead
      cases relinked : relinkText store.contains options file text with
      | error fault =>
          have otherRelinked : relinkText other.contains options file text = .error fault := by
            rw [relinkText, relinkText_eq_error relinked]
            rfl
          rw [(relinkModule_unparsed isRead relinked).1, (relinkModule_unparsed isRead relinked).2,
            (relinkModule_unparsed otherRead otherRelinked).1,
            (relinkModule_unparsed otherRead otherRelinked).2]
          simp [verdict, isRead, otherRead, outcomeOf, relinked, otherRelinked, Except.map]
      | ok relinking =>
          obtain ⟨trace, events⟩ := relinkModule_parsed isRead relinked
          have agree : ∀ path ∈ relinking.probes, other.contains path = store.contains path := by
            intro path member
            refine answers path _ ?_
            rw [trace]
            exact List.mem_cons_of_mem _
              (List.mem_append_left _ (List.mem_map.mpr ⟨path, member, rfl⟩))
          have otherRelinked := relinkText_agree relinked agree
          have probes : Access.ofProbes other.contains relinking.probes =
              Access.ofProbes store.contains relinking.probes :=
            List.map_congr_left fun path member => by rw [agree path member]
          obtain ⟨otherTrace, otherEvents⟩ := relinkModule_parsed otherRead otherRelinked
          rw [trace, events, otherTrace, otherEvents, probes]
          simp [verdict, isRead, otherRead, outcomeOf, relinked, otherRelinked, Except.map, writable]

/-- Relinking a module is one read, then questions if the module can be parsed, then at most one write of
the module, which happens whole or not at all. It cannot tell stores apart but by the text that is read, the
answers to its questions and whether the module may be written. -/
theorem relinkModule_accesses (options : Options) (store : Store) (file : Path) :
    Accessed options store file (relinkModule options store file) ∧
      ∀ other : Store, store.Indistinct other file (relinkModule options store file).trace →
        (relinkModule options other file).result = (relinkModule options store file).result ∧
          (relinkModule options other file).trace = (relinkModule options store file).trace ∧
          (relinkModule options other file).events = (relinkModule options store file).events :=
  ⟨relinkModule_accessed options store file, fun _ indistinct => indistinct.alike⟩

end Relink
