import Relink.Proofs.Scan.Bounded
import Relink.Proofs.Scan.Onward
import Relink.Proofs.Scan.Repeat.Statements

/-!
# Progress

A scan never goes back, and a unit that is not the end of the module takes at least one byte. So every loop and
recursion of a scan ends: bounds of two more than the bytes that are left are never used up, and larger ones change
nothing. This holds from every reader on, and so wherever a scan gets to.
-/

set_option autoImplicit false

namespace Relink

open Scan

/-! ## Behind trivia -/

/-- The end of the trivia that stands at an offset. None stands inside a character or behind the end. -/
def Trivia.endFrom (code : Text) (offset : Nat) : Nat :=
  let parts := Text.cut offset code
  if parts.1.size = offset then offset + (beforeFault parts.2).1.size else offset

theorem Trivia.le_endFrom (code : Text) (offset : Nat) : offset ≤ endFrom code offset := by
  simp only [endFrom]
  split <;> omega

theorem Trivia.endFrom_le {code : Text} {offset : Nat} (within : offset ≤ code.size) : endFrom code offset ≤ code.size := by
  simp only [endFrom]
  split
  · rename_i boundary
    have whole := congrArg Text.size (Text.cut_append offset code)
    have rest := congrArg Text.size (beforeFault_append (Text.cut offset code).2)
    rw [Text.size_append] at whole rest
    omega
  · exact within

/-- What cannot be read is reported from behind the trivia at the place of the reader. -/
theorem Reader.unreadable_start {reader : Reader} {front : Text} (here : front.size = reader.position)
    (fault : Token.Fault) : (reader.unreadable fault).span.start = Trivia.endFrom (front ++ reader.rest) reader.position := by
  rw [Trivia.endFrom, ← here, Text.cut_size_append, if_pos rfl, unreadable, here]

/-! ## Calls -/

namespace Scan

/-- A statement within another, with bounds on the depth of its units and on its steps. -/
def nestedStatement (depth steps : Nat) : Scan Ending := nestedIn (unit depth) (statement (unit depth) steps)

/-- A substitution, with bounds on the depth of its units and on its steps. -/
def substitutionOf (depth steps : Nat) : Scan Unit := substitution (unit depth) steps

/-- The calls of a scan, each with a bound on the depth of units and one on the steps of loops. -/
inductive Call : {α : Type} → (Nat → Nat → Scan α) → Prop where
  | unit : Call fun depth _ => Scan.unit depth
  | group (bracket : Bracket) : Call fun depth steps => Scan.group (Scan.unit depth) bracket steps
  | substitution : Call substitutionOf
  | templateRest (opening : Nat) (ending : Literal) :
      Call fun depth steps => Scan.templateRest (substitutionOf depth steps) opening steps ending
  | template (first : Token) (ending : Literal) :
      Call fun depth steps => Scan.template (substitutionOf depth steps) steps first ending
  | elementName (token : Token) : Call fun _ steps => Scan.elementName steps token
  | closingTag (name : Text) (opening : Token) : Call fun _ steps => Scan.closingTag name steps opening
  | attributes (token : Token) : Call fun depth steps =>
      Scan.attributes (substitutionOf depth steps) (Scan.element (substitutionOf depth steps) steps) steps token
  | children (name : Text) (opening : Nat) : Call fun depth steps =>
      Scan.children (substitutionOf depth steps) (Scan.element (substitutionOf depth steps) steps) name opening steps
  | element (opening : Token) : Call fun depth steps => Scan.element (substitutionOf depth steps) steps opening
  | simple (stop : Nat) (last : Kind) (pending : Option Token) :
      Call fun depth steps => Scan.simple (Scan.unit depth) steps stop last pending
  | declaration : Call fun depth steps => Scan.declaration (Scan.unit depth) steps
  | conditional : Call fun depth steps => Scan.conditional (Scan.unit depth) (nestedStatement depth steps)
  | forLoop : Call fun depth steps => Scan.forLoop (Scan.unit depth) (nestedStatement depth steps)
  | headed : Call fun depth steps => Scan.headed (Scan.unit depth) (nestedStatement depth steps)
  | switch : Call fun depth _ => Scan.switch (Scan.unit depth)
  | doLoop : Call fun depth steps => Scan.doLoop (Scan.unit depth) (nestedStatement depth steps)
  | guarded : Call fun depth _ => Scan.guarded (Scan.unit depth)
  | request (start : Nat) (form : RequestForm) (specifier : Token) :
      Call fun depth _ => Scan.request (Scan.unit depth) start form specifier
  | importClause (bound : Bool) (token : Token) :
      Call fun depth steps => Scan.importClause (Scan.unit depth) steps bound token
  | importStatement (start : Nat) (next : Token) :
      Call fun depth steps => Scan.importStatement (Scan.unit depth) steps start next
  | exportStatement (start : Nat) :
      Call fun depth steps => Scan.exportStatement (Scan.unit depth) steps (nestedStatement depth steps) start
  | body (first : Token) :
      Call fun depth steps => Scan.body (Scan.unit depth) steps (nestedStatement depth steps) first
  | nested : Call nestedStatement
  | statement (first : Token) : Call fun depth steps => Scan.statement (Scan.unit depth) steps first
  | statements (pending : Option Token) :
      Call fun depth steps => Scan.statements (Scan.unit depth) steps steps pending

/-! ## No call goes back -/

theorem Call.advances {α : Type} {action : Nat → Nat → Scan α} (call : Call action) (depth steps : Nat) :
    Advances (action depth steps) := by
  have units : Advances (Scan.unit depth) := .unit depth
  have nests : Advances (nestedStatement depth steps) := .nestedIn units (.statement units steps)
  cases call with
  | unit => exact units
  | group bracket => exact .group depth steps bracket
  | substitution => exact .substitution depth steps
  | templateRest opening ending => exact .templateRest depth steps steps opening ending
  | template first ending => exact .template depth steps steps first ending
  | elementName token => exact .elementName steps token
  | closingTag name opening => exact .closingTag name steps opening
  | attributes token => exact .attributes depth steps steps token
  | children name opening => exact .children depth steps steps name opening
  | element opening => exact .element depth steps steps opening
  | simple stop last pending => exact .simple units steps stop last pending
  | declaration => exact .declaration units steps
  | conditional => exact .conditional units nests
  | forLoop => exact .forLoop units nests
  | headed => exact .headed units nests
  | switch => exact .switch units
  | doLoop => exact .doLoop units nests
  | guarded => exact .guarded units
  | request start form specifier => exact .request units start form specifier
  | importClause bound token => exact .importClause units steps bound token
  | importStatement start next => exact .importStatement units steps start next
  | exportStatement start => exact .exportStatement units nests steps start
  | body first => exact .body units nests steps first
  | nested => exact nests
  | statement first => exact .statement units steps first
  | statements pending => exact .statements units steps steps pending

/-! ## No call runs out of steps -/

/-- Two actions that do the same from a reader on, without using up their bounds. -/
def Settles {α : Type} (reader : Reader) (action other : Scan α) : Prop :=
  other reader ≠ .error .outOfFuel ∧ other reader = action reader

theorem Repeats.settles {α : Type} {reader : Reader} {action other : Scan α} {move : α → α} {post : α → Reader → Prop}
    (repeats : Repeats 0 reader action other move post) (still : ∀ value, move value = value) :
    Settles reader action other := by
  have here : reader.later 0 = reader := rfl
  unfold Repeats at repeats
  rw [here] at repeats
  split at repeats
  · rename_i value after run
    rw [still] at repeats
    rw [Settles, repeats.2, run]
    exact ⟨nofun, rfl⟩
  · rename_i fault run
    rw [Settles, repeats, run]
    exact ⟨nofun, rfl⟩
  · exact repeats.elim

theorem pending_still (pending : Option Token) : pending.map (·.shift 0) = pending := by cases pending <;> rfl

theorem Ending.shift_zero (ending : Ending) : ending.shift 0 = ending := by
  rw [Ending.shift, pending_still]
  rfl

theorem Scanned.shift_zero (scanned : Scanned) : scanned.shift 0 = scanned := by
  rw [Scanned.shift, Statement.shift_zero, pending_still]

theorem TagEnd.move_zero (ending : TagEnd) : Seam.moveTagEnd 0 ending = ending := by cases ending <;> rfl

section Enough

variable {least depth steps : Nat} (deep : least ≤ depth) (many : least ≤ steps)

include deep in
theorem unit_again {reader : Reader} (fits : reader.left < least) :
    Repeats 0 reader (unit least) (unit depth) (·.shift 0) (Spends reader) :=
  (unit_repeats deep fits).known fun _ _ read spends => ⟨spends, (Token.before read).room⟩

include deep many

theorem substitution_again {reader : Reader} (fits : reader.left < least) :
    Repeats 0 reader (substitutionOf least least) (substitutionOf depth steps) id
      fun _ after => after.left < reader.left :=
  substitution_repeats (fun _ within => unit_repeats deep within) many fits fits

theorem element_again (opening : Token) {reader : Reader} (fits : reader.left < least) :
    Repeats 0 reader (element (substitutionOf least least) least opening)
      (element (substitutionOf depth steps) steps (opening.shift 0)) (·.shift 0)
      fun _ after => after.left ≤ reader.left :=
  element_repeats (fun _ within => substitution_again deep many within) many (Nat.le_refl least) opening fits

theorem statement_again (first : Token) {reader : Reader} (fits : reader.left < least) :
    Refinds 0 reader.left reader (statement (unit least) least first) (statement (unit depth) steps (first.shift 0)) :=
  statement_repeats (fun _ within => unit_again deep within) many (Nat.le_refl least) first fits

theorem nested_again {reader : Reader} (fits : reader.left < least) :
    Reends 0 reader.left reader (nestedStatement least least) (nestedStatement depth steps) :=
  nestedIn_repeats (fun _ within => unit_again deep within)
    (fun first _ within => statement_again deep many first within) (by omega) fits

/-- A template that stands where it did need not have room for its backtick. -/
theorem template_again (first : Token) (ending : Literal) {reader : Reader} (fits : reader.left < least) :
    Repeats 0 reader (template (substitutionOf least least) least first ending)
      (template (substitutionOf depth steps) steps first ending) id fun _ _ => True := by
  apply Repeats.bind (templateRest_repeats (fun _ within => substitution_again deep many within) _ many ending fits fits)
  intro _ between _
  apply Repeats.bind position_repeats
  rintro stop _ rfl
  exact .pure rfl trivial

omit many in
/-- Nor need a request have room for the quotes of its specifier. -/
theorem request_again (start : Nat) (form : RequestForm) (specifier : Token) {reader : Reader}
    (fits : reader.left < least) :
    Refinds 0 reader.left reader (request (unit least) start form specifier)
      (request (unit depth) start form specifier) := by
  refine .ite (fun _ => ?_) fun _ => .fail rfl
  exact (requestEnding_repeats (fun _ within => unit_again deep within) specifier.span.stop fits).found
    (some ⟨form, ⟨specifier.span.start + 1, specifier.span.stop - 1⟩⟩) start

theorem importStatement_again (start : Nat) (next : Token) {reader : Reader} (fits : next.cost + reader.left < least) :
    Refinds 0 reader.left reader (importStatement (unit least) least start next)
      (importStatement (unit depth) steps start next) := by
  refine .ite (fun _ => request_again deep start .sideEffect next (by omega)) fun _ => ?_
  apply Repeats.bind (importClause_repeats (fun _ within => unit_again deep within) many false next fits (by omega))
  intro _ between less
  exact (requestNext_repeats (fun _ within => unit_again deep within) start .bindings (by omega)).weaken less

/-- A bound that exceeds the characters that are left by two is as good as every larger one. -/
theorem Call.settles {α : Type} {action : Nat → Nat → Scan α} (call : Call action) {reader : Reader}
    (fits : reader.left + 2 ≤ least) : Settles reader (action least least) (action depth steps) := by
  have within : reader.left < least := by omega
  have units : ∀ reader : Reader, reader.left < least →
      Repeats 0 reader (Scan.unit least) (Scan.unit depth) (·.shift 0) (Spends reader) :=
    fun _ within => unit_again deep within
  have rereads : ∀ reader : Reader, reader.left < least → Rereads 0 reader (Scan.unit least) (Scan.unit depth) :=
    fun _ within => unit_repeats deep within
  have substitutions : ∀ reader : Reader, reader.left < least →
      Repeats 0 reader (substitutionOf least least) (substitutionOf depth steps) id
        fun _ after => after.left < reader.left :=
    fun _ within => substitution_again deep many within
  have nests : ∀ reader : Reader, reader.left < least →
      Reends 0 reader.left reader (nestedStatement least least) (nestedStatement depth steps) :=
    fun _ within => nested_again deep many within
  -- A token that is already read still takes a step of its own: that is what the second of the two is for.
  have cost (token : Token) : token.cost + reader.left < least := by
    unfold Token.cost
    split <;> omega
  have owes (pending : Option Token) : owed pending + reader.left < least := by
    cases pending with
    | none => simpa only [owed_none, Nat.zero_add] using within
    | some token => exact cost token
  cases call with
  | unit => exact (rereads reader within).settles fun _ => rfl
  | group bracket => exact (group_repeats rereads bracket many within within).settles fun _ => rfl
  | substitution => exact (substitutions reader within).settles fun _ => rfl
  | templateRest opening ending =>
      exact (templateRest_repeats substitutions opening many ending within within).settles fun _ => rfl
  | template first ending => exact (template_again deep many first ending within).settles fun _ => rfl
  | elementName token => exact (elementName_repeats many token within).settles fun _ => rfl
  | closingTag name opening => exact (closingTag_repeats name many opening within).settles fun _ => rfl
  | attributes token =>
      exact (attributes_repeats substitutions (fun opening _ within => element_again deep many opening within) many token
        within within).settles TagEnd.move_zero
  | children name opening =>
      exact (children_repeats substitutions (fun opening _ within => element_again deep many opening within) name opening
        many within within).settles fun _ => rfl
  | element opening => exact (element_again deep many opening within).settles fun _ => rfl
  | simple stop last pending =>
      have repeated := simple_repeats units many stop last pending (owes pending) within
      rw [pending_still] at repeated
      exact repeated.settles Ending.shift_zero
  | declaration => exact (declaration_repeats units many within within).settles Ending.shift_zero
  | conditional => exact (conditional_repeats units nests within).settles Ending.shift_zero
  | forLoop => exact (forLoop_repeats units nests within).settles Ending.shift_zero
  | headed => exact (headed_repeats units nests within).settles Ending.shift_zero
  | switch => exact (switch_repeats units within).settles Ending.shift_zero
  | doLoop => exact (doLoop_repeats units nests within).settles Ending.shift_zero
  | guarded => exact (guarded_repeats units within).settles Ending.shift_zero
  | request start form specifier => exact (request_again deep start form specifier within).settles Scanned.shift_zero
  | importClause bound token =>
      exact (importClause_repeats units many bound token (cost token) within).settles fun _ => rfl
  | importStatement start next => exact (importStatement_again deep many start next (cost next)).settles Scanned.shift_zero
  | exportStatement start => exact (exportStatement_repeats units nests many start within within).settles Scanned.shift_zero
  | body first => exact (body_repeats units nests many first within within).settles Ending.shift_zero
  | nested => exact (nests reader within).settles Ending.shift_zero
  | statement first => exact (statement_again deep many first within).settles Scanned.shift_zero
  | statements pending =>
      have repeated := statements_repeats units many (Nat.le_refl least) many pending (owes pending) within
      rw [pending_still] at repeated
      exact repeated.settles fun found => by simp only [Statement.shift_zero, List.map_id']

end Enough

/-! ## Progress -/

/-- What a call does from a reader on: bounds of two more than the bytes that are left are not used up, larger ones
change nothing, and whatever the bounds are, no place is reached before the reader or past the end. -/
structure Progresses {α : Type} (reader : Reader) (action : Nat → Nat → Scan α) : Prop where
  ends : ∀ depth steps, reader.rest.size + 2 ≤ depth → reader.rest.size + 2 ≤ steps →
    action depth steps reader ≠ .error .outOfFuel
  same : ∀ depth steps, reader.rest.size + 2 ≤ depth → reader.rest.size + 2 ≤ steps →
    action depth steps reader = action (reader.rest.size + 2) (reader.rest.size + 2) reader
  onward : ∀ depth steps value after, action depth steps reader = .ok (value, after) →
    reader.position ≤ after.position ∧ after.position ≤ reader.finish ∧ after.finish = reader.finish

theorem Call.progresses {α : Type} {action : Nat → Nat → Scan α} (call : Call action) (reader : Reader) :
    Progresses reader action := by
  have fits : reader.left + 2 ≤ reader.rest.size + 2 := Nat.add_le_add_right (Text.length_le_size reader.rest) 2
  refine ⟨fun depth steps deep many => (call.settles deep many fits).1,
    fun depth steps deep many => (call.settles deep many fits).2, fun depth steps value after run => ?_⟩
  have leads := call.advances depth steps run
  refine ⟨leads.position_le, ?_, leads.finish_eq⟩
  rw [← leads.finish_eq, Reader.finish]
  exact Nat.le_add_right ..

theorem unit_progresses {depth : Nat} {reader after : Reader} {token : Token}
    (read : unit depth reader = .ok (token, after)) :
    (token.kind = .eof ∧ after.rest = [] ∧ after.position = reader.finish) ∨ reader.position < after.position := by
  obtain ⟨body, lies⟩ := unit_at read
  by_cases ended : token.kind = .eof
  · have empty := lies.ended ended
    have finish := (unit_leads read).finish_eq
    rw [Reader.finish, empty, Text.size_nil, Nat.add_zero] at finish
    exact .inl ⟨ended, empty, finish⟩
  · have some := Text.size_pos fun empty => ended (lies.empty.mpr empty)
    have position := lies.passes.position
    rw [Text.size_append] at position
    exact .inr (by omega)

/-- A scan makes progress from every reader on. -/
theorem scan_progresses (reader : Reader) :
    (∀ depth token after, unit depth reader = .ok (token, after) →
      (token.kind = .eof ∧ after.rest = [] ∧ after.position = reader.finish) ∨ reader.position < after.position) ∧
    (∀ {α : Type} {action : Nat → Nat → Scan α}, Call action → Progresses reader action) ∧
    (∀ code offset, offset ≤ Text.size code →
      offset ≤ Trivia.endFrom code offset ∧ Trivia.endFrom code offset ≤ code.size) ∧
    ∀ front fault, Text.size front = reader.position →
      (reader.unreadable fault).span.start = Trivia.endFrom (front ++ reader.rest) reader.position := by
  refine ⟨fun depth token after read => unit_progresses read, fun call => call.progresses reader,
    fun code offset within => ⟨Trivia.le_endFrom code offset, Trivia.endFrom_le within⟩,
    fun front fault here => Reader.unreadable_start here fault⟩

/-- A scan of a module that ends within a group. -/
theorem scan_progresses_unclosed :
    (∃ token after, unit 1 (Reader.start "a (".toList) = .ok (token, after) ∧ token.kind = .identifier ∧
      0 < after.position) ∧
    (∀ depth steps, 5 ≤ depth → 5 ≤ steps →
      statements (unit depth) steps steps none (Reader.start "a (".toList) =
        .error (.faulty ⟨.unexpectedEnd, ⟨3, 3⟩, some (.punctuator .parenthesisClose)⟩)) ∧
    Trivia.endFrom "a (".toList 1 ≤ 3 := by
  obtain ⟨units, calls, trivia, -⟩ := scan_progresses (Reader.start "a (".toList)
  refine ⟨?_, fun depth steps deep many => ?_, (trivia "a (".toList 1 (by decide)).2⟩
  · have read : unit 1 (Reader.start "a (".toList) =
        .ok (⟨.identifier, ⟨0, 1⟩, ['a'], false⟩, ⟨" (".toList, 1, false, .identifier⟩) := by
      with_unfolding_all rfl
    exact ⟨_, _, read, rfl, (units _ _ _ read).resolve_left (by simp)⟩
  · rw [(calls (.statements none)).same depth steps deep many]
    with_unfolding_all rfl

end Scan

end Relink
