import Relink.Proofs.Scan.Compound
import Relink.Scan.Request

/-!
# Borders of module requests

A request ends before a border behind its specifier, past attributes and a semicolon if there are any.
-/

set_option autoImplicit false

namespace Relink

open Scan

variable {depth otherDepth : Nat}

/-! ## Scanned statements -/

/-- A scanned statement and the unit behind it, read before or only now. -/
def Scan.resumeScanned (unit : Scan Token) (scanned : Scan Scanned) : Scan (Statement × Token) := do
  let found ← scanned
  let next ← pendingOr unit found.pending
  pure (found.statement, next)

section Resume

variable {α : Type} (unit : Scan Token)

theorem resumeScanned_bind (action : Scan α) (next : α → Scan Scanned) :
    resumeScanned unit (action >>= next) =
      action >>= fun value => resumeScanned unit (next value) := by
  simp only [resumeScanned, bind_assoc]

theorem resumeScanned_ite (condition : Prop) [Decidable condition] (yes no : Scan Scanned) :
    resumeScanned unit (if condition then yes else no) =
      if condition then resumeScanned unit yes else resumeScanned unit no := by
  split <;> rfl

theorem resumeScanned_fail (fault : SyntaxFault) : resumeScanned unit (fail fault) = fail fault :=
  rfl

theorem resumeScanned_of (ending : Scan Ending) (request : Option ModuleRequest) (start : Nat) :
    resumeScanned unit (ending >>= fun ended => pure (.of request start ended)) =
      resume unit ending >>= fun parts => pure (⟨request, ⟨start, parts.1⟩⟩, parts.2) := by
  simp only [resumeScanned, resume, bind_assoc, pure_bind, Scanned.of]

end Resume

def ModuleRequest.shift (request : ModuleRequest) (distance : Nat) : ModuleRequest :=
  { request with specifier := request.specifier.shift distance }

theorem Closes.scanned (deeper : depth ≤ otherDepth) {marked : Prop} {reader : Reader}
    {ending : Scan Ending} {other : Nat → Scan Ending}
    (closes : Closes depth otherDepth marked reader (resume (unit depth) ending)
      fun distance => resume (unit otherDepth) (other distance))
    (request : Option ModuleRequest) (start : Nat) :
    Closes depth otherDepth marked reader
      (resumeScanned (unit depth) (ending >>= fun ended => pure (.of request start ended)))
      fun distance => resumeScanned (unit otherDepth) (other distance >>= fun ended =>
        pure (.of (request.map (·.shift distance)) (start + distance) ended)) := by
  simp only [resumeScanned_of]
  refine closes.andThen deeper fun stop next after run => .inr ⟨_, rfl, rfl, ?_⟩
  intro distance token resembles
  rfl

theorem ClosesFrom.scanned {marked : Prop} {reader middle : Reader} {token : Token}
    {ending : Scan Ending} {other : Nat → Token → Scan Ending}
    (closes : ClosesFrom depth otherDepth marked reader token middle (resume (unit depth) ending)
      fun distance otherToken => resume (unit otherDepth) (other distance otherToken))
    (request : Option ModuleRequest) (start : Nat) :
    ClosesFrom depth otherDepth marked reader token middle
      (resumeScanned (unit depth) (ending >>= fun ended => pure (.of request start ended)))
      fun distance otherToken => resumeScanned (unit otherDepth)
        (other distance otherToken >>= fun ended =>
          pure (.of (request.map (·.shift distance)) (start + distance) ended)) := by
  intro value next after run
  rw [resumeScanned_of] at run
  obtain ⟨parts, last, ended, done⟩ := bind_eq_ok run
  cases done
  obtain ⟨passed, border, past, is, beside⟩ := closes parts.1 parts.2 after ended
  refine ⟨passed, border, past, is, ?_⟩
  intro seam twin here twins otherNext otherPast otherRead resembles
  obtain ⟨otherToken, otherMiddle, firstRead, firstResembles, otherRun⟩ :=
    beside seam twin here twins otherNext otherPast otherRead resembles
  refine ⟨otherToken, otherMiddle, firstRead, firstResembles, ?_⟩
  simp only [resumeScanned_of]
  exact bind_of_ok otherRun _

/-! ## Attributes -/

theorem introducesAttributes_resembles {token other : Token} (resembles : token.Resembles other)
    (not : introducesAttributes token = false) : introducesAttributes other = false := by
  simp only [introducesAttributes, Bool.or_eq_false_iff, Bool.and_eq_false_iff,
    resembles.isKeyword, resembles.isWord] at not ⊢
  refine ⟨not.1, not.2.imp_right fun onNewLine => ?_⟩
  rw [resembles.onNewLine (by simpa using onNewLine)]
  rfl

theorem introducesAttributes_shift (token : Token) (distance : Nat) :
    introducesAttributes (token.shift distance) = introducesAttributes token := rfl

theorem requestEnding_closes (deeper : depth ≤ otherDepth) {reader : Reader} {stop : Nat}
    (here : stop = reader.position) :
    Closes depth otherDepth False reader (resume (unit depth) (requestEnding (unit depth) stop))
      fun distance => resume (unit otherDepth)
        (requestEnding (unit otherDepth) (stop + distance)) := by
  simp only [requestEnding, resume_bind, resume_ite]
  apply Closes.of_from
  intro next middle read
  by_cases introduces : introducesAttributes next = true
  · apply ClosesFrom.beyond deeper read
    intro body lies
    simp only [introducesAttributes_shift, introduces, if_true]
    refine .seq (fun distance token => token.shift distance) (fun seam => .unit deeper)
      fun attributes behind _ attributesRead _ => ?_
    obtain ⟨_, liesBehind⟩ := unit_at attributesRead
    refine .seq (fun _ => id) (fun seam => .require _ attributes seam.shift)
      fun _ required _ requireRun _ => .of_from fun after last readAfter => ?_
    obtain ⟨-, rfl⟩ := require_eq_ok requireRun
    exact terminator_closesFrom deeper readAfter liesBehind.stop
  · simp only [introduces, Bool.false_eq_true, if_false]
    apply (terminator_closesFrom deeper read here).congr
    intro distance other resembles
    have still := introducesAttributes_resembles resembles (by simpa using introduces)
    simp only [still, Bool.false_eq_true, if_false]

/-! ## Requests -/

/-- The specifier of a request is a string, whose span has room for its quotes. -/
theorem request_closes (deeper : depth ≤ otherDepth) {reader : Reader} (start : Nat)
    (form : RequestForm) {specifier : Token} (stop : specifier.span.stop = reader.position)
    (room : specifier.kind = .literal .string → 1 ≤ specifier.span.stop) :
    Closes depth otherDepth False reader
      (resumeScanned (unit depth) (request (unit depth) start form specifier))
      fun distance => resumeScanned (unit otherDepth)
        (request (unit otherDepth) (start + distance) form (specifier.shift distance)) := by
  simp only [request, resumeScanned_ite, resumeScanned_fail, Token.kind_shift]
  by_cases string : specifier.kind = .literal .string
  · simp only [string, if_true]
    have inside (distance : Nat) : specifier.span.stop + distance - 1 =
        specifier.span.stop - 1 + distance := by
      have := room string
      omega
    have start' (distance : Nat) : specifier.span.start + distance + 1 =
        specifier.span.start + 1 + distance := by omega
    have closes := (requestEnding_closes deeper stop).scanned deeper
      (some ⟨form, ⟨specifier.span.start + 1, specifier.span.stop - 1⟩⟩) start
    simp only [Token.start_shift, Token.stop_shift, inside, start']
    exact closes
  · refine .of_failing (fun result run => ?_) _
    simp only [string, if_false] at run
    cases run

theorem UnitAt.room {reader after : Reader} {token : Token} {body : Text}
    (lies : UnitAt reader token body after) (string : token.kind = .literal .string) :
    1 ≤ token.span.stop := by
  have some := lies.start_lt_stop (by rw [string]; nofun)
  omega

theorem requestNext_closes (deeper : depth ≤ otherDepth) (reader : Reader) (start : Nat)
    (form : RequestForm) :
    Closes depth otherDepth False reader
      (resumeScanned (unit depth) (requestNext (unit depth) start form))
      fun distance => resumeScanned (unit otherDepth)
        (requestNext (unit otherDepth) (start + distance) form) := by
  simp only [requestNext, resumeScanned_bind]
  refine .of_from fun specifier middle read => .beyond deeper read fun body lies => ?_
  exact (request_closes deeper start form lies.stop lies.room).mono False.elim

/-! ## Imports -/

theorem importClause_follows {seam : Seam} (deeper : depth ≤ otherDepth) {fuel otherFuel : Nat}
    (enough : fuel ≤ otherFuel) (bound : Bool) (token : Token) :
    seam.Follows (importClause (unit depth) fuel bound token)
      (importClause (unit otherDepth) otherFuel bound (token.shift seam.shift)) id := by
  induction fuel generalizing otherFuel bound token with
  | zero => exact .outOfFuel _ _
  | succ fuel ih =>
      obtain ⟨otherFuel, rfl⟩ := Nat.exists_eq_add_one_of_ne_zero (by omega : otherFuel ≠ 0)
      have less : fuel ≤ otherFuel := by omega
      refine .ite (fun _ => .pure rfl) fun _ => .ite (fun _ => ?_) fun _ => .ite (fun _ => ?_) fun _ => ?_
      · exact .seq (.unit deeper) fun next => ih less true next
      · exact .seq (.unit deeper) fun next => ih less bound next
      · exact .fail _ _ _

/-- How a statement goes on behind the unit that a reader stands behind. -/
theorem importStatement_closes (deeper : depth ≤ otherDepth) {fuel otherFuel : Nat}
    (enough : fuel ≤ otherFuel) {reader : Reader} (start : Nat) {next : Token}
    (stop : next.span.stop = reader.position)
    (room : next.kind = .literal .string → 1 ≤ next.span.stop) :
    Closes depth otherDepth False reader
      (resumeScanned (unit depth) (importStatement (unit depth) fuel start next))
      fun distance => resumeScanned (unit otherDepth)
        (importStatement (unit otherDepth) otherFuel (start + distance) (next.shift distance)) := by
  simp only [importStatement, resumeScanned_ite, resumeScanned_bind]
  apply Closes.ite (fun _ => request_closes deeper start .sideEffect stop room)
  intro _
  refine .seq (fun _ => id) (fun seam => importClause_follows deeper enough false next)
    fun _ middle _ _ _ => ?_
  exact (requestNext_closes deeper middle start .bindings).mono False.elim

/-! ## Exports -/

theorem exportFrom_closes (deeper : depth ≤ otherDepth) (reader : Reader) (start : Nat)
    (token : Token) :
    Closes depth otherDepth False reader
      (resumeScanned (unit depth) (exportFrom (unit depth) start token))
      fun distance => resumeScanned (unit otherDepth)
        (exportFrom (unit otherDepth) (start + distance) (token.shift distance)) := by
  simp only [exportFrom, resumeScanned_ite, resumeScanned_fail]
  apply Closes.ite (fun _ => requestNext_closes deeper reader start .reExport)
  intro _
  exact .of_failing (fun result run => by cases run) _

theorem exportAll_closes (deeper : depth ≤ otherDepth) (reader : Reader) (start : Nat) :
    Closes depth otherDepth False reader (resumeScanned (unit depth) (exportAll (unit depth) start))
      fun distance => resumeScanned (unit otherDepth)
        (exportAll (unit otherDepth) (start + distance)) := by
  simp only [exportAll, resumeScanned_ite, resumeScanned_bind, resumeScanned_fail]
  refine .seq (fun distance token => token.shift distance) (fun seam => .unit deeper)
    fun token middle _ _ _ => .ite (fun _ => ?_) fun _ => ?_
  · refine .seq (fun distance token => token.shift distance) (fun seam => .unit deeper)
      fun name behind _ _ _ => .ite (fun _ => ?_) fun _ => ?_
    · refine .seq (fun distance token => token.shift distance) (fun seam => .unit deeper)
        fun after last _ _ _ => ?_
      exact (exportFrom_closes deeper last start after).mono False.elim
    · exact .of_failing (fun result run => by cases run) _
  · exact (exportFrom_closes deeper middle start token).mono False.elim

theorem exportList_closes (deeper : depth ≤ otherDepth) {reader : Reader} (start : Nat)
    {stop : Nat} (here : stop = reader.position) :
    Closes depth otherDepth False reader
      (resumeScanned (unit depth) (exportList (unit depth) start stop))
      fun distance => resumeScanned (unit otherDepth)
        (exportList (unit otherDepth) (start + distance) (stop + distance)) := by
  simp only [exportList, resumeScanned_ite, resumeScanned_bind]
  apply Closes.of_from
  intro token middle read
  by_cases isFrom : token.isWord "from" = true
  · apply ClosesFrom.beyond deeper read
    intro body lies
    simp only [Token.isWord_shift, isFrom, if_true]
    exact (requestNext_closes deeper middle start .reExport).mono False.elim
  · simp only [isFrom, Bool.false_eq_true, if_false, ← resumeScanned_bind]
    have ends : ClosesFrom depth otherDepth False reader token middle
        (resume (unit depth) (terminator stop token))
        fun distance other => resume (unit otherDepth) (terminator (stop + distance) other) :=
      terminator_closesFrom deeper read here
    apply (ends.scanned none start).congr
    intro distance other resembles
    simp only [resembles.isWord, isFrom, Bool.false_eq_true, if_false]
    rfl

end Relink
