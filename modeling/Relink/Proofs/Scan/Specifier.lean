import Relink.Proofs.Scan.Statement

/-!
# Specifiers of requests

A statement that requests a module comes to a string, which is its specifier, and from there to its
ending. Beside a seam before that string it comes to whatever string stands behind the seam.
-/

set_option autoImplicit false

namespace Relink

open Scan

variable {depth otherDepth : Nat}

/-- The statement of a request from `start` with its specifier in a string, up to `stop`. -/
def requestOf (start : Nat) (form : RequestForm) (specifier : Token) (stop : Nat) : Statement :=
  ⟨some ⟨form, ⟨specifier.span.start + 1, specifier.span.stop - 1⟩⟩, ⟨start, stop⟩⟩

/-- The ending of a request behind its specifier. -/
def requestRest (unit : Scan Token) (start : Nat) (form : RequestForm) (specifier : Token) :
    Scan (Statement × Token) :=
  resume unit (requestEnding unit specifier.span.stop) >>= fun parts =>
    pure (requestOf start form specifier parts.1, parts.2)

/-- Where the specifier stands of a scanned request that starts at `start`. -/
structure Specified (depth : Nat) (reader : Reader) (start : Nat) (statement : Statement)
    (next : Token) (after quoted behind : Reader) (form : RequestForm) (specifier : Token) : Prop where
  leads : reader.Leads quoted
  read : unit depth quoted = .ok (specifier, behind)
  string : specifier.kind = .literal .string
  rest : requestRest (unit depth) start form specifier behind = .ok ((statement, next), after)

/-- A scan finds a statement from `start` on. If that is a request it comes to a string, and beside a
seam before that string `other` comes to the string behind the seam. -/
def Requests (depth otherDepth : Nat) (reader : Reader) (start : Nat)
    (action : Scan (Statement × Token)) (other : Nat → Scan (Statement × Token)) : Prop :=
  ∀ statement next after, action reader = .ok ((statement, next), after) →
    statement.span.start = start ∧
      (statement.request.isSome = true → ∃ quoted behind form specifier,
        Specified depth reader start statement next after quoted behind form specifier ∧
          ∀ (seam : Seam) twin, seam.left = quoted.rest → seam.Twins reader twin →
            ∀ otherSpecifier otherBehind,
              unit otherDepth (seam.across quoted) = .ok (otherSpecifier, otherBehind) →
                otherSpecifier.kind = .literal .string →
                  other seam.shift twin = requestRest (unit otherDepth) (start + seam.shift) form
                    otherSpecifier otherBehind)

theorem resumeScanned_request (inner : Scan Token) (start : Nat) (form : RequestForm)
    {specifier : Token} (string : specifier.kind = .literal .string) :
    resumeScanned inner (request inner start form specifier) =
      requestRest inner start form specifier := by
  simp only [request, string, if_true, resumeScanned_of]
  rfl

/-! ## Rules -/

section Rules

variable {reader : Reader} {start : Nat}

theorem Requests.of_ending (ending : Scan Ending) (other : Nat → Scan (Statement × Token)) :
    Requests depth otherDepth reader start
      (ending >>= fun ended => resumeScanned (unit depth) (pure (.of none start ended))) other := by
  intro statement next after run
  rw [← resumeScanned_bind, resumeScanned_of] at run
  obtain ⟨parts, last, -, done⟩ := bind_eq_ok run
  cases done
  exact ⟨rfl, nofun⟩

theorem Requests.of_failing {action : Scan (Statement × Token)}
    (fails : ∀ result, action reader ≠ .ok result) (other : Nat → Scan (Statement × Token)) :
    Requests depth otherDepth reader start action other :=
  fun statement next after run => absurd run (fails ((statement, next), after))

theorem Requests.ite {condition : Prop} [Decidable condition]
    {yes no : Scan (Statement × Token)} {otherYes otherNo : Nat → Scan (Statement × Token)}
    (holds : condition → Requests depth otherDepth reader start yes otherYes)
    (fails : ¬ condition → Requests depth otherDepth reader start no otherNo) :
    Requests depth otherDepth reader start (if condition then yes else no)
      fun distance => if condition then otherYes distance else otherNo distance := by
  by_cases decided : condition
  · simp only [if_pos decided]
    exact holds decided
  · simp only [if_neg decided]
    exact fails decided

theorem Requests.seq {α β : Type} {action : Scan α} {otherAction : Nat → Scan β}
    {next : α → Scan (Statement × Token)} {otherNext : Nat → β → Scan (Statement × Token)}
    (move : Nat → α → β)
    (first : ∀ seam : Seam, seam.Follows action (otherAction seam.shift) (move seam.shift))
    (second : ∀ value middle, action reader = .ok (value, middle) →
      Requests depth otherDepth middle start (next value)
        fun distance => otherNext distance (move distance value)) :
    Requests depth otherDepth reader start (action >>= next)
      fun distance => otherAction distance >>= otherNext distance := by
  intro statement token after run
  obtain ⟨value, middle, firstRun, secondRun⟩ := bind_eq_ok run
  obtain ⟨starts, specified⟩ := second value middle firstRun statement token after secondRun
  refine ⟨starts, fun requests => ?_⟩
  obtain ⟨quoted, behind, form, specifier, is, beside⟩ := specified requests
  have leads := (first Seam.atEnd).leads firstRun
  refine ⟨quoted, behind, form, specifier, ⟨leads.trans is.leads, is.read, is.string, is.rest⟩, ?_⟩
  intro seam twin here twins otherSpecifier otherBehind read string
  have beyond : seam.left <:+ middle.rest := by
    rw [here]
    exact is.leads.suffix
  obtain ⟨twinMiddle, otherFirst, twinsMiddle⟩ :=
    (first seam reader value middle firstRun).2 twin twins beyond
  exact (bind_of_ok otherFirst _).trans
    (beside seam twinMiddle here twinsMiddle otherSpecifier otherBehind read string)

theorem Requests.here {next : Token → Scan (Statement × Token)}
    {otherNext : Nat → Token → Scan (Statement × Token)} {form : RequestForm} {specifier : Token}
    {behind : Reader} (read : unit depth reader = .ok (specifier, behind))
    (string : specifier.kind = .literal .string)
    (goesOn : next specifier = requestRest (unit depth) start form specifier)
    (others : ∀ distance otherSpecifier, otherSpecifier.kind = .literal .string →
      otherNext distance otherSpecifier =
        requestRest (unit otherDepth) (start + distance) form otherSpecifier) :
    Requests depth otherDepth reader start (unit depth >>= next)
      fun distance => unit otherDepth >>= otherNext distance := by
  intro statement token after run
  rw [bind_of_ok read, goesOn] at run
  have starts : statement.span.start = start := by
    obtain ⟨parts, last, -, done⟩ := bind_eq_ok run
    cases done
    rfl
  refine ⟨starts, fun _ => ?_⟩
  refine ⟨reader, behind, form, specifier, ⟨.refl reader, read, string, run⟩, ?_⟩
  intro seam twin here twins otherSpecifier otherBehind otherRead otherString
  rw [twins.eq_across here, ← others seam.shift otherSpecifier otherString]
  exact bind_of_ok otherRead _

theorem Requests.of_unit {next : Token → Scan (Statement × Token)}
    {other : Nat → Scan (Statement × Token)}
    (requests : ∀ token middle, unit depth reader = .ok (token, middle) →
      Requests depth otherDepth reader start (unit depth >>= next) other) :
    Requests depth otherDepth reader start (unit depth >>= next) other := by
  intro statement token after run
  obtain ⟨first, middle, read, -⟩ := bind_eq_ok run
  exact requests first middle read statement token after run

end Rules

/-! ## Requests -/

theorem requestNext_requests (reader : Reader) (start : Nat) (form : RequestForm) :
    Requests depth otherDepth reader start
      (resumeScanned (unit depth) (requestNext (unit depth) start form))
      fun distance => resumeScanned (unit otherDepth)
        (requestNext (unit otherDepth) (start + distance) form) := by
  simp only [requestNext, resumeScanned_bind]
  apply Requests.of_unit
  intro specifier behind read
  by_cases string : specifier.kind = .literal .string
  · exact .here read string (resumeScanned_request _ start form string) fun distance _ otherString =>
      resumeScanned_request _ _ form otherString
  · intro statement next after run
    rw [bind_of_ok read] at run
    simp only [request, string, if_false] at run
    cases run

theorem exportFrom_requests (reader : Reader) (start : Nat) (token : Token) :
    Requests depth otherDepth reader start
      (resumeScanned (unit depth) (exportFrom (unit depth) start token))
      fun distance => resumeScanned (unit otherDepth)
        (exportFrom (unit otherDepth) (start + distance) (token.shift distance)) := by
  simp only [exportFrom, resumeScanned_ite, resumeScanned_fail]
  apply Requests.ite (fun _ => requestNext_requests reader start .reExport)
  intro _
  exact .of_failing (fun result run => by cases run) _

theorem exportAll_requests (deeper : depth ≤ otherDepth) (reader : Reader) (start : Nat) :
    Requests depth otherDepth reader start
      (resumeScanned (unit depth) (exportAll (unit depth) start))
      fun distance => resumeScanned (unit otherDepth)
        (exportAll (unit otherDepth) (start + distance)) := by
  simp only [exportAll, resumeScanned_ite, resumeScanned_bind, resumeScanned_fail]
  refine .seq (fun distance token => token.shift distance) (fun seam => .unit deeper)
    fun token middle _ => .ite (fun _ => ?_) fun _ => exportFrom_requests middle start token
  refine .seq (fun distance token => token.shift distance) (fun seam => .unit deeper)
    fun name behind _ => .ite (fun _ => ?_) fun _ => .of_failing (fun result run => by cases run) _
  refine .seq (fun distance token => token.shift distance) (fun seam => .unit deeper)
    fun after last _ => exportFrom_requests last start after

theorem exportList_requests (deeper : depth ≤ otherDepth) (reader : Reader) (start stop : Nat) :
    Requests depth otherDepth reader start
      (resumeScanned (unit depth) (exportList (unit depth) start stop))
      fun distance => resumeScanned (unit otherDepth)
        (exportList (unit otherDepth) (start + distance) (stop + distance)) := by
  simp only [exportList, resumeScanned_ite, resumeScanned_bind]
  refine .seq (fun distance token => token.shift distance) (fun seam => .unit deeper)
    fun token middle _ => .ite (fun _ => ?_) fun _ => .of_ending _ _
  exact requestNext_requests middle start .reExport

section Nested

variable (deeper : depth ≤ otherDepth) {fuel otherFuel : Nat} (nested otherNested : Scan Ending)

include deeper

theorem exportStatement_requests (reader : Reader) (start : Nat) :
    Requests depth otherDepth reader start
      (resumeScanned (unit depth) (exportStatement (unit depth) fuel nested start))
      fun distance => resumeScanned (unit otherDepth)
        (exportStatement (unit otherDepth) otherFuel otherNested (start + distance)) := by
  simp only [exportStatement, resumeScanned_bind, resumeScanned_ite]
  refine .seq (fun distance token => token.shift distance) (fun seam => .unit deeper)
    fun next middle _ => ?_
  refine .ite (fun _ => exportAll_requests deeper middle start) fun _ =>
    .ite (fun _ => exportList_requests deeper middle start _) fun _ => .ite (fun _ => ?_) fun _ =>
      .ite (fun _ => .of_failing (fun result run => by cases run) _) fun _ => .of_ending _ _
  exact .seq (fun distance token => token.shift distance) (fun seam => .unit deeper)
    fun value behind _ => .of_ending _ _

end Nested

/-- The rest of a statement that begins with `import`. -/
def importRest (inner : Scan Token) (fuel start : Nat) (next : Token) : Scan Scanned :=
  if next.isPunctuator .parenthesisOpen || next.isPunctuator .dot then do
    let ending ← simpleAfter inner fuel next
    pure (.of none start ending)
  else
    importStatement inner fuel start next

theorem importRest_string (inner : Scan Token) (fuel start : Nat) {next : Token}
    (string : next.kind = .literal .string) :
    resumeScanned inner (importRest inner fuel start next) =
      requestRest inner start .sideEffect next := by
  have noPunctuator (p : Punctuator) : next.isPunctuator p = false := by
    simp [Token.isPunctuator, string]
  simp only [importRest, noPunctuator, Bool.or_self, Bool.false_eq_true, if_false, importStatement,
    string, if_true, resumeScanned_request inner start .sideEffect string]

/-- An import statement comes to its specifier at once, or past its bindings. -/
theorem importRest_requests (deeper : depth ≤ otherDepth) {fuel otherFuel : Nat}
    (enough : fuel ≤ otherFuel) (reader : Reader) (start : Nat) :
    Requests depth otherDepth reader start
      (unit depth >>= fun next => resumeScanned (unit depth) (importRest (unit depth) fuel start next))
      fun distance => unit otherDepth >>= fun next =>
        resumeScanned (unit otherDepth) (importRest (unit otherDepth) otherFuel (start + distance) next) := by
  apply Requests.of_unit
  intro next middle read
  by_cases string : next.kind = .literal .string
  · exact .here read string (importRest_string _ _ start string) fun distance _ otherString =>
      importRest_string _ _ (start + distance) otherString
  · refine .seq (fun distance token => token.shift distance) (fun seam => .unit deeper)
      fun value behind again => ?_
    rw [read] at again
    cases again
    simp only [importRest, importStatement, resumeScanned_ite, resumeScanned_bind,
      Token.isPunctuator_shift, Token.kind_shift, string, if_false]
    apply Requests.ite (fun _ => .of_ending _ _)
    intro _
    exact .seq (fun _ => id) (fun seam => importClause_follows deeper enough false next)
      fun _ last _ => requestNext_requests last start .bindings

theorem statement_requests (deeper : depth ≤ otherDepth) {fuel otherFuel : Nat}
    (enough : fuel ≤ otherFuel) (reader : Reader) (first : Token) :
    Requests depth otherDepth reader first.span.start
      (resumeScanned (unit depth) (statement (unit depth) fuel first))
      fun distance => resumeScanned (unit otherDepth)
        (statement (unit otherDepth) otherFuel (first.shift distance)) := by
  cases fuel with
  | zero => exact .of_failing (fun result run => by cases run) _
  | succ fuel =>
      obtain ⟨otherFuel, rfl⟩ := Nat.exists_eq_add_one_of_ne_zero (by omega : otherFuel ≠ 0)
      simp only [statement, statementOver]
      rw [resumeScanned_ite]
      simp only [resumeScanned_ite]
      refine .ite (fun _ => ?_) fun _ => .ite (fun _ => ?_) fun _ => ?_
      · rw [resumeScanned_bind]
        simp only [resumeScanned_bind]
        exact importRest_requests deeper enough reader first.span.start
      · exact exportStatement_requests deeper _ _ reader first.span.start
      · rw [resumeScanned_bind]
        exact .of_ending _ _

end Relink
