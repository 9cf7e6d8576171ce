import Relink.Proofs.Scan.Bounded
import Relink.Proofs.Scan.Preamble
import Relink.Scan.Statements

/-!
# Faults of modules

No statement is given up on outside the text, whatever its form, and so no module is.
-/

set_option autoImplicit false

namespace Relink.Scan

/-- The unit that was read past the end of a statement, if any, lies before the reader. -/
def PendingRead (pending : Option Token) (reader : Reader) : Prop :=
  ∀ token, pending = some token → ReadFrom 0 reader token.span

theorem pendingRead_none (reader : Reader) : PendingRead none reader := by
  intro token same
  cases same

theorem ReadFrom.pending {low : Nat} {reader : Reader} {token : Token}
    (read : ReadFrom low reader token.span) : PendingRead (some token) reader := by
  intro other same
  cases same
  exact read.lower (Nat.zero_le low)

/-- An action that finds the end of a statement. -/
abbrev Ends (reader : Reader) (action : Scan Ending) : Prop :=
  Bounded reader action fun ending after => PendingRead ending.pending after

abbrev Finds (reader : Reader) (action : Scan Scanned) : Prop :=
  Bounded reader action fun scanned after => PendingRead scanned.pending after

theorem Bounded.ended {reader : Reader} {stop : Nat} : Ends reader (Pure.pure ⟨stop, none⟩) :=
  Bounded.pure (pendingRead_none reader)

theorem Bounded.handedOn {low : Nat} {reader : Reader} {stop : Nat} {token : Token}
    (read : ReadFrom low reader token.span) : Ends reader (Pure.pure ⟨stop, some token⟩) :=
  Bounded.pure read.pending

theorem Ends.found {reader : Reader} {action : Scan Ending} (ends : Ends reader action)
    (request : Option ModuleRequest) (start : Nat) :
    Finds reader (action >>= fun ending => Pure.pure (.of request start ending)) :=
  .bind ends fun _ _ _ read => .pure read

section Statement

variable {unit : Scan Token} (reads : ∀ reader, Reads reader unit)

include reads

theorem pendingOr_bounded {pending : Option Token} {reader : Reader}
    (read : PendingRead pending reader) :
    Bounded reader (pendingOr unit pending) fun token after => ReadFrom 0 after token.span := by
  cases pending with
  | some token => exact .pure (read token rfl)
  | none => exact (reads reader).mono fun _ _ found => found.lower (Nat.zero_le _)

/-! ## Simple statements -/

omit reads in
theorem noteBrace_bounded (last : Kind) (token : Token) (reader : Reader) :
    Bounded reader (noteBrace last token) fun _ _ => True :=
  .ite (fun _ => expectOperand_bounded _) fun _ => .pure trivial

theorem simple_bounded (fuel stop : Nat) (last : Kind) {pending : Option Token} {reader : Reader}
    (read : PendingRead pending reader) : Ends reader (simple unit fuel stop last pending) := by
  induction fuel generalizing stop last pending reader with
  | zero => exact .outOfFuel
  | succ fuel ih =>
      apply Bounded.bind (pendingOr_bounded reads read)
      intro token middle _ found
      apply Bounded.ite (fun _ => .ended)
      intro _
      apply Bounded.ite (fun _ => .handedOn found)
      intro _
      apply Bounded.ite (fun _ => .fail_at found)
      intro _
      apply Bounded.bind (noteBrace_bounded last token middle)
      intro _ behind later _
      apply Bounded.ite (fun _ => .handedOn (found.later later))
      intro _
      exact ih _ _ (pendingRead_none behind)

theorem simpleAfter_bounded (fuel : Nat) (token : Token) (reader : Reader) :
    Ends reader (simpleAfter unit fuel token) :=
  simple_bounded reads fuel _ _ (pendingRead_none reader)

theorem declaration_bounded (fuel : Nat) (reader : Reader) :
    Ends reader (declaration unit fuel) := by
  induction fuel generalizing reader with
  | zero => exact .outOfFuel
  | succ fuel ih =>
      apply Bounded.bind (reads reader)
      intro token middle _ read
      refine .ite (fun _ => ?_) fun _ => ?_
      · exact .bind (expectOperand_bounded true) fun _ _ _ _ => .ended
      · exact .ite (fun _ => .fail_at read) fun _ => ih middle

omit reads in
theorem terminator_bounded {low : Nat} (stop : Nat) {next : Token} {reader : Reader}
    (read : ReadFrom low reader next.span) : Ends reader (terminator stop next) := by
  apply Bounded.ite (fun _ => .ended)
  intro _
  exact .ite (fun _ => .handedOn read) fun _ => .fail_at read

/-! ## Compound statements -/

theorem required_bounded (kind : Kind) (reader : Reader) :
    Bounded reader (unit >>= fun token => require kind token >>= fun _ => pure token.span.stop)
      fun _ _ => True :=
  .bind (reads reader) fun _ _ _ read => .bind (require_bounded read) fun _ _ _ _ => .pure trivial

theorem header_bounded (reader : Reader) : Bounded reader (header unit) fun _ _ => True :=
  required_bounded reads _ reader

theorem block_bounded (reader : Reader) : Bounded reader (block unit) fun _ _ => True :=
  required_bounded reads _ reader

section Nested

variable {nested : Scan Ending} (ends : ∀ reader, Ends reader nested)

include ends

theorem conditional_bounded (reader : Reader) : Ends reader (conditional unit nested) := by
  apply Bounded.bind (header_bounded reads reader)
  intro _ middle _ _
  apply Bounded.bind (ends middle)
  intro consequent behind _ read
  apply Bounded.bind (pendingOr_bounded reads read)
  intro next last _ nextRead
  exact .ite (fun _ => ends last) fun _ => .handedOn nextRead

theorem forLoop_bounded (reader : Reader) : Ends reader (forLoop unit nested) := by
  apply Bounded.bind (reads reader)
  intro first middle _ firstRead
  refine .ite (fun _ => ?_) fun _ => ?_
  · apply Bounded.bind (reads middle)
    intro second behind _ secondRead
    apply Bounded.bind (expectOperand_bounded true)
    intro _ between later _
    exact .bind (require_bounded (secondRead.later later)) fun _ last _ _ => ends last
  · exact .bind (require_bounded firstRead) fun _ last _ _ => ends last

theorem headed_bounded (reader : Reader) : Ends reader (headed unit nested) :=
  .bind (header_bounded reads reader) fun _ middle _ _ => ends middle

theorem doLoop_bounded (reader : Reader) : Ends reader (doLoop unit nested) := by
  apply Bounded.bind (ends reader)
  intro body middle _ read
  apply Bounded.bind (pendingOr_bounded reads read)
  intro word behind _ wordRead
  apply Bounded.bind (require_bounded wordRead)
  intro _ _ _ _
  apply Bounded.bind (header_bounded reads _)
  intro stop last _ _
  apply Bounded.bind (reads last)
  intro next _ _ nextRead
  exact .ite (fun _ => .ended) fun _ => .handedOn nextRead

omit ends

theorem switch_bounded (reader : Reader) : Ends reader (switch unit) := by
  apply Bounded.bind (header_bounded reads reader)
  intro _ middle _ _
  exact .bind (block_bounded reads middle) fun _ _ _ _ => .ended

theorem finallyPart_bounded {low : Nat} (caught : Option Nat) {next : Token} {reader : Reader}
    (read : ReadFrom low reader next.span) : Ends reader (finallyPart unit caught next) := by
  refine .ite (fun _ => ?_) fun _ => ?_
  · exact .bind (block_bounded reads reader) fun _ _ _ _ => .ended
  · cases caught with
    | some stop => exact .handedOn read
    | none => exact .fail_at read

theorem catchPart_bounded (reader : Reader) : Bounded reader (catchPart unit) fun _ _ => True := by
  apply Bounded.bind (reads reader)
  intro token middle _ read
  apply Bounded.ite (fun _ => block_bounded reads middle)
  intro _
  exact .bind (require_bounded read) fun _ _ _ _ => .pure trivial

theorem guarded_bounded (reader : Reader) : Ends reader (guarded unit) := by
  apply Bounded.bind (block_bounded reads reader)
  intro _ middle _ _
  apply Bounded.bind (reads middle)
  intro next behind _ nextRead
  refine .ite (fun _ => ?_) fun _ => finallyPart_bounded reads none nextRead
  apply Bounded.bind (catchPart_bounded reads behind)
  intro stop between _ _
  exact .bind (reads between) fun after _ _ afterRead => finallyPart_bounded reads (some stop) afterRead

end Nested

/-! ## Requests -/

theorem requestEnding_bounded (stop : Nat) (reader : Reader) :
    Ends reader (requestEnding unit stop) := by
  apply Bounded.bind (reads reader)
  intro next middle _ nextRead
  refine .ite (fun _ => ?_) fun _ => terminator_bounded stop nextRead
  apply Bounded.bind (reads middle)
  intro attributes behind _ attributesRead
  apply Bounded.bind (require_bounded attributesRead)
  intro _ _ _ _
  exact .bind (reads _) fun after _ _ afterRead => terminator_bounded _ afterRead

theorem request_bounded {low : Nat} (start : Nat) (form : RequestForm) {specifier : Token}
    {reader : Reader} (read : ReadFrom low reader specifier.span) :
    Finds reader (request unit start form specifier) :=
  .ite (fun _ => (requestEnding_bounded reads _ reader).found _ start) fun _ => .fail_at read

theorem requestNext_bounded (start : Nat) (form : RequestForm) (reader : Reader) :
    Finds reader (requestNext unit start form) :=
  .bind (reads reader) fun _ _ _ read => request_bounded reads start form read

theorem importClause_bounded {low : Nat} (fuel : Nat) (bound : Bool) {token : Token}
    {reader : Reader} (read : ReadFrom low reader token.span) :
    Bounded reader (importClause unit fuel bound token) fun _ _ => True := by
  induction fuel generalizing low bound token reader with
  | zero => exact .outOfFuel
  | succ fuel ih =>
      apply Bounded.ite (fun _ => .pure trivial)
      intro _
      apply Bounded.ite (fun _ => .bind (reads reader) fun _ _ _ nextRead => ih true nextRead)
      intro _
      refine .ite (fun _ => ?_) fun _ => .fail_at read
      exact .bind (reads reader) fun _ _ _ nextRead => ih bound nextRead

theorem importStatement_bounded {low : Nat} (fuel start : Nat) {next : Token} {reader : Reader}
    (read : ReadFrom low reader next.span) : Finds reader (importStatement unit fuel start next) := by
  apply Bounded.ite (fun _ => request_bounded reads start .sideEffect read)
  intro _
  apply Bounded.bind (importClause_bounded reads fuel false read)
  intro _ middle _ _
  exact requestNext_bounded reads start .bindings middle

theorem exportFrom_bounded {low : Nat} (start : Nat) {token : Token} {reader : Reader}
    (read : ReadFrom low reader token.span) : Finds reader (exportFrom unit start token) :=
  .ite (fun _ => requestNext_bounded reads start .reExport reader) fun _ => .fail_at read

theorem exportAll_bounded (start : Nat) (reader : Reader) :
    Finds reader (exportAll unit start) := by
  apply Bounded.bind (reads reader)
  intro token middle _ tokenRead
  refine .ite (fun _ => ?_) fun _ => exportFrom_bounded reads start tokenRead
  apply Bounded.bind (reads middle)
  intro name behind _ nameRead
  refine .ite (fun _ => ?_) fun _ => .fail_at nameRead
  exact .bind (reads behind) fun _ _ _ afterRead => exportFrom_bounded reads start afterRead

theorem exportList_bounded (start stop : Nat) (reader : Reader) :
    Finds reader (exportList unit start stop) := by
  apply Bounded.bind (reads reader)
  intro token middle _ tokenRead
  apply Bounded.ite (fun _ => requestNext_bounded reads start .reExport middle)
  intro _
  exact (terminator_bounded stop tokenRead).found none start

/-! ## Statements -/

section Nested

variable {nested : Scan Ending} (ends : ∀ reader, Ends reader nested)

include ends

theorem named_bounded (fuel : Nat) (first : Token) (reader : Reader) :
    Ends reader (named unit fuel nested first) := by
  apply Bounded.bind (reads reader)
  intro next middle _ nextRead
  have goesOn := simple_bounded reads fuel first.span.stop first.kind nextRead.pending
  refine .ite (fun _ => ?_) fun _ => ?_
  · exact .ite (fun _ => declaration_bounded reads fuel middle) fun _ => goesOn
  · exact .ite (fun _ => ends middle) fun _ => goesOn

theorem body_bounded {low : Nat} (fuel : Nat) {first : Token} {reader : Reader}
    (read : ReadFrom low reader first.span) : Ends reader (body unit fuel nested first) := by
  unfold body
  split
  · exact .ended
  · exact .bind (expectOperand_bounded true) fun _ _ _ _ => .ended
  · exact .fail_at read
  · exact .fail_at read
  · exact .fail_at read
  · exact declaration_bounded reads fuel reader
  · exact declaration_bounded reads fuel reader
  · exact conditional_bounded reads ends reader
  · exact forLoop_bounded reads ends reader
  · exact headed_bounded reads ends reader
  · exact headed_bounded reads ends reader
  · exact switch_bounded reads reader
  · exact doLoop_bounded reads ends reader
  · exact guarded_bounded reads reader
  · exact named_bounded reads ends fuel first reader
  · exact simpleAfter_bounded reads fuel first reader

theorem defaultValue_bounded {low : Nat} (fuel : Nat) {value : Token} {reader : Reader}
    (read : ReadFrom low reader value.span) :
    Ends reader (defaultValue unit fuel nested value) := by
  apply Bounded.ite (fun _ => body_bounded reads ends fuel read)
  intro _
  exact .ite (fun _ => .fail_at read) fun _ => simpleAfter_bounded reads fuel value reader

theorem exportStatement_bounded (fuel start : Nat) (reader : Reader) :
    Finds reader (exportStatement unit fuel nested start) := by
  apply Bounded.bind (reads reader)
  intro next middle _ nextRead
  apply Bounded.ite (fun _ => exportAll_bounded reads start middle)
  intro _
  apply Bounded.ite (fun _ => exportList_bounded reads start _ middle)
  intro _
  refine .ite (fun _ => ?_) fun _ => ?_
  · apply Bounded.bind (reads middle)
    intro value behind _ valueRead
    exact (defaultValue_bounded reads ends fuel valueRead).found none start
  · apply Bounded.ite (fun _ => .fail_at nextRead)
    intro _
    exact (body_bounded reads ends fuel nextRead).found none start

theorem statementOver_bounded {low : Nat} (fuel : Nat) {first : Token} {reader : Reader}
    (read : ReadFrom low reader first.span) :
    Finds reader (statementOver unit fuel nested first) := by
  refine .ite (fun _ => ?_) fun _ => ?_
  · apply Bounded.bind (reads reader)
    intro next middle _ nextRead
    refine .ite (fun _ => ?_) fun _ => importStatement_bounded reads fuel _ nextRead
    exact (simpleAfter_bounded reads fuel next middle).found none first.span.start
  · apply Bounded.ite (fun _ => exportStatement_bounded reads ends fuel _ reader)
    intro _
    exact (body_bounded reads ends fuel read).found none first.span.start

end Nested

theorem nestedIn_bounded {statement : Token → Scan Scanned}
    (finds : ∀ (low : Nat) (reader : Reader) (first : Token), ReadFrom low reader first.span →
      Finds reader (statement first)) (reader : Reader) : Ends reader (nestedIn unit statement) := by
  apply Bounded.bind (reads reader)
  intro first middle _ firstRead
  apply Bounded.ite (fun _ => .fail_at firstRead)
  intro _
  exact .bind (finds _ middle first firstRead) fun _ _ _ found => .pure found

theorem statement_bounded (fuel : Nat) {low : Nat} {first : Token} {reader : Reader}
    (read : ReadFrom low reader first.span) : Finds reader (statement unit fuel first) := by
  induction fuel generalizing low first reader with
  | zero => exact .outOfFuel
  | succ fuel ih =>
      have ends := nestedIn_bounded reads fun _ _ _ found => ih found
      exact statementOver_bounded reads ends (fuel + 1) read

theorem statements_bounded (bound fuel : Nat) {pending : Option Token} {reader : Reader}
    (read : PendingRead pending reader) :
    Bounded reader (statements unit bound fuel pending) fun _ _ => True := by
  induction fuel generalizing pending reader with
  | zero => exact .outOfFuel
  | succ fuel ih =>
      apply Bounded.bind (pendingOr_bounded reads read)
      intro first middle _ firstRead
      apply Bounded.ite (fun _ => .pure trivial)
      intro _
      apply Bounded.bind (statement_bounded reads bound firstRead)
      intro scanned behind _ found
      exact .bind (ih found) fun _ _ _ _ => .pure trivial

end Statement

end Relink.Scan

namespace Relink

/-- The fault of a module lies within its text. -/
theorem fault_within {text : Text} {fault : SyntaxFault}
    (split : Statement.split text = .error fault) :
    fault.span.start ≤ fault.span.stop ∧ fault.span.stop ≤ text.size := by
  rcases split_eq_error split with run | atEnd
  · have bounded := Scan.statements_bounded (Scan.unit_bounded ((Preamble.mask text).length + 2))
      ((Preamble.mask text).length + 2) ((Preamble.mask text).length + 2)
      (Scan.pendingRead_none (Reader.behindPreamble text))
    unfold Scan.Bounded at bounded
    unfold Scan.moduleRun Scan.moduleStatements at run
    rw [run, Reader.behindPreamble_finish] at bounded
    exact bounded
  · rw [atEnd]
    exact ⟨Nat.le_refl _, Nat.le_refl _⟩

end Relink
