import Relink.Proofs.Scan.Extent
import Relink.Scan.Statements

/-!
# Going on

No action of a scan goes back or past the end, whatever its bounds are and wherever it starts. Below a statement
this is part of what following means; statements are put together from units by a few rules.
-/

set_option autoImplicit false

namespace Relink.Scan

/-- An action gets nowhere but to where it has read. -/
def Advances {α : Type} (action : Scan α) : Prop :=
  ∀ ⦃reader after : Reader⦄ ⦃value : α⦄, action reader = .ok (value, after) → reader.Leads after

namespace Advances

variable {α β : Type}

/-! ## Rules -/

theorem of_follows {action : Scan α} {other : Scan β} {move : α → β}
    (follows : Seam.atEnd.Follows action other move) : Advances action :=
  fun _ _ _ run => follows.leads run

theorem pure (value : α) : Advances (Pure.pure value) := by
  rintro reader _ _ ⟨⟩
  exact .refl reader

theorem fail (fault : SyntaxFault) : Advances (Scan.fail fault : Scan α) := by
  rintro reader _ _ run
  cases run

theorem outOfFuel : Advances (Scan.outOfFuel : Scan α) := by
  rintro reader _ _ run
  cases run

theorem bind {action : Scan α} {next : α → Scan β} (first : Advances action) (second : ∀ value, Advances (next value)) :
    Advances (action >>= next) := by
  intro reader after result run
  obtain ⟨value, middle, toMiddle, toAfter⟩ := bind_eq_ok run
  exact (first toMiddle).trans (second value toAfter)

theorem ite {condition : Prop} [Decidable condition] {yes no : Scan α} (holds : Advances yes) (fails : Advances no) :
    Advances (if condition then yes else no) := by
  split
  · exact holds
  · exact fails

/-! ## Units and what is in them -/

theorem unit (depth : Nat) : Advances (unit depth) := of_follows (.unit (Nat.le_refl depth))

theorem expectOperand (due : Bool) : Advances (expectOperand due) := of_follows (.expectOperand due)

theorem require (kind : Kind) (token : Token) : Advances (require kind token) := of_follows (.require kind token 0)

theorem elementName (fuel : Nat) (token : Token) : Advances (elementName fuel token) :=
  of_follows (.elementName (Nat.le_refl fuel) token)

theorem closingTag (name : Text) (fuel : Nat) (opening : Token) : Advances (closingTag name fuel opening) :=
  of_follows (.closingTag name (Nat.le_refl fuel) opening)

section Nested

variable (depth fuel : Nat)

theorem group (bracket : Bracket) : Advances (group (Scan.unit depth) bracket fuel) :=
  of_follows (.group (.unit (Nat.le_refl depth)) bracket (Nat.le_refl fuel))

theorem follows_substitution : Seam.atEnd.Follows (substitution (Scan.unit depth) fuel)
    (substitution (Scan.unit depth) fuel) id :=
  .substitution (.unit (Nat.le_refl depth)) (Nat.le_refl fuel)

theorem follows_element (bound : Nat) (opening : Token) :
    Seam.atEnd.Follows (element (substitution (Scan.unit depth) bound) fuel opening)
      (element (substitution (Scan.unit depth) bound) fuel (opening.shift 0)) (·.shift 0) :=
  .element (follows_substitution depth bound) (Nat.le_refl fuel) opening

theorem substitution : Advances (substitution (Scan.unit depth) fuel) := of_follows (follows_substitution depth fuel)

theorem templateRest (bound opening : Nat) (ending : Literal) :
    Advances (templateRest (Scan.substitution (Scan.unit depth) bound) opening fuel ending) :=
  of_follows (.templateRest (follows_substitution depth bound) opening (Nat.le_refl fuel) ending)

theorem template (bound : Nat) (first : Token) (ending : Literal) :
    Advances (template (Scan.substitution (Scan.unit depth) bound) fuel first ending) :=
  .bind (templateRest depth fuel bound _ ending) fun _ => .bind (of_follows .position) fun _ => .pure _

theorem attributes (bound : Nat) (token : Token) :
    Advances (attributes (Scan.substitution (Scan.unit depth) bound)
      (Scan.element (Scan.substitution (Scan.unit depth) bound) bound) fuel token) :=
  of_follows (.attributes (follows_substitution depth bound) (follows_element depth bound bound)
    (Nat.le_refl fuel) token)

theorem children (bound : Nat) (name : Text) (opening : Nat) :
    Advances (children (Scan.substitution (Scan.unit depth) bound)
      (Scan.element (Scan.substitution (Scan.unit depth) bound) bound) name opening fuel) :=
  of_follows (.children (follows_substitution depth bound) (follows_element depth bound bound) name opening
    (Nat.le_refl fuel))

theorem element (bound : Nat) (opening : Token) :
    Advances (element (Scan.substitution (Scan.unit depth) bound) fuel opening) :=
  of_follows (follows_element depth fuel bound opening)

theorem foldGroup (token : Token) : Advances (foldGroup (Scan.unit depth) fuel token) :=
  of_follows (.foldGroup (.unit (Nat.le_refl depth)) (Nat.le_refl fuel) token)

end Nested

/-! ## Parts of statements -/

section Statement

variable {unit : Scan Token} (units : Advances unit)

include units

theorem pendingOr (pending : Option Token) : Advances (pendingOr unit pending) := by
  cases pending with
  | none => exact units
  | some token => exact .pure token

omit units in
theorem terminator (stop : Nat) (next : Token) : Advances (terminator stop next) :=
  .ite (.pure _) (.ite (.pure _) (.fail _))

omit units in
theorem noteBrace (last : Kind) (token : Token) : Advances (noteBrace last token) :=
  .ite (.expectOperand _) (.pure ())

theorem simple (fuel stop : Nat) (last : Kind) (pending : Option Token) :
    Advances (simple unit fuel stop last pending) := by
  induction fuel generalizing stop last pending with
  | zero => exact .outOfFuel
  | succ fuel ih =>
      refine .bind (.pendingOr units pending) fun token => .ite (.pure _) (.ite (.pure _) (.ite (.fail _) ?_))
      exact .bind (.noteBrace last token) fun _ => .ite (.pure _) (ih _ _ none)

theorem simpleAfter (fuel : Nat) (token : Token) : Advances (simpleAfter unit fuel token) :=
  simple units fuel token.span.stop token.kind none

theorem declaration (fuel : Nat) : Advances (declaration unit fuel) := by
  induction fuel with
  | zero => exact .outOfFuel
  | succ fuel ih =>
      exact .bind units fun token => .ite (.bind (.expectOperand true) fun _ => .pure _) (.ite (.fail _) ih)

theorem header : Advances (header unit) := .bind units fun token => .bind (.require _ token) fun _ => .pure _

theorem block : Advances (block unit) := .bind units fun token => .bind (.require _ token) fun _ => .pure _

theorem switch : Advances (switch unit) := .bind (header units) fun _ => .bind (block units) fun _ => .pure _

theorem finallyPart (caught : Option Nat) (next : Token) : Advances (finallyPart unit caught next) := by
  refine .ite (.bind (block units) fun _ => .pure _) ?_
  cases caught with
  | none => exact .fail _
  | some stop => exact .pure _

theorem catchPart : Advances (catchPart unit) :=
  .bind units fun token => .ite (block units) (.bind (.require _ token) fun _ => .pure _)

theorem guarded : Advances (guarded unit) :=
  .bind (block units) fun _ => .bind units fun next =>
    .ite (.bind (catchPart units) fun stop => .bind units fun after => finallyPart units (some stop) after)
      (finallyPart units none next)

/-! ## Requests -/

theorem requestEnding (stop : Nat) : Advances (requestEnding unit stop) :=
  .bind units fun next =>
    .ite (.bind units fun attributes => .bind (.require _ attributes) fun _ =>
      .bind units fun after => .terminator _ after) (.terminator stop next)

theorem request (start : Nat) (form : RequestForm) (specifier : Token) : Advances (request unit start form specifier) :=
  .ite (.bind (requestEnding units _) fun _ => .pure _) (.fail _)

theorem requestNext (start : Nat) (form : RequestForm) : Advances (requestNext unit start form) :=
  .bind units fun specifier => request units start form specifier

theorem importClause (fuel : Nat) (bound : Bool) (token : Token) : Advances (importClause unit fuel bound token) := by
  induction fuel generalizing bound token with
  | zero => exact .outOfFuel
  | succ fuel ih =>
      exact .ite (.pure ()) (.ite (.bind units fun next => ih true next)
        (.ite (.bind units fun next => ih bound next) (.fail _)))

theorem importStatement (fuel start : Nat) (next : Token) : Advances (importStatement unit fuel start next) :=
  .ite (request units start .sideEffect next)
    (.bind (importClause units fuel false next) fun _ => requestNext units start .bindings)

theorem exportFrom (start : Nat) (token : Token) : Advances (exportFrom unit start token) :=
  .ite (requestNext units start .reExport) (.fail _)

theorem exportAll (start : Nat) : Advances (exportAll unit start) :=
  .bind units fun token =>
    .ite (.bind units fun _ => .ite (.bind units fun after => exportFrom units start after) (.fail _))
      (exportFrom units start token)

theorem exportList (start stop : Nat) : Advances (exportList unit start stop) :=
  .bind units fun token => .ite (requestNext units start .reExport) (.bind (.terminator stop token) fun _ => .pure _)

/-! ## Statements -/

section Nested

variable {nested : Scan Ending} (nests : Advances nested)

include nests

theorem conditional : Advances (conditional unit nested) :=
  .bind (header units) fun _ => .bind nests fun consequent =>
    .bind (pendingOr units consequent.pending) fun _ => .ite nests (.pure _)

theorem forLoop : Advances (forLoop unit nested) :=
  .bind units fun first =>
    .ite (.bind units fun second => .bind (.expectOperand true) fun _ => .bind (.require _ second) fun _ => nests)
      (.bind (.require _ first) fun _ => nests)

theorem headed : Advances (headed unit nested) := .bind (header units) fun _ => nests

theorem doLoop : Advances (doLoop unit nested) :=
  .bind nests fun body => .bind (pendingOr units body.pending) fun word => .bind (.require _ word) fun _ =>
    .bind (header units) fun _ => .bind units fun _ => .ite (.pure _) (.pure _)

theorem named (fuel : Nat) (first : Token) : Advances (named unit fuel nested first) :=
  .bind units fun _ => .ite (.ite (declaration units fuel) (simple units fuel _ _ _))
    (.ite nests (simple units fuel _ _ _))

theorem body (fuel : Nat) (first : Token) : Advances (body unit fuel nested first) := by
  unfold Scan.body
  split
  case h_1 => exact .pure _
  case h_2 => exact .bind (.expectOperand true) fun _ => .pure _
  case h_3 | h_4 | h_5 => exact .fail _
  case h_6 | h_7 => exact declaration units fuel
  case h_8 => exact conditional units nests
  case h_9 => exact forLoop units nests
  case h_10 | h_11 => exact headed units nests
  case h_12 => exact switch units
  case h_13 => exact doLoop units nests
  case h_14 => exact guarded units
  case h_15 => exact named units nests fuel first
  case h_16 => exact simpleAfter units fuel first

theorem defaultValue (fuel : Nat) (value : Token) : Advances (defaultValue unit fuel nested value) :=
  .ite (body units nests fuel value) (.ite (.fail _) (simpleAfter units fuel value))

theorem exportStatement (fuel start : Nat) : Advances (exportStatement unit fuel nested start) :=
  .bind units fun next => .ite (exportAll units start) <| .ite (exportList units start _) <|
    .ite (.bind units fun value => .bind (defaultValue units nests fuel value) fun _ => .pure _) <|
      .ite (.fail _) (.bind (body units nests fuel next) fun _ => .pure _)

theorem statementOver (fuel : Nat) (first : Token) : Advances (statementOver unit fuel nested first) :=
  .ite (.bind units fun next => .ite (.bind (simpleAfter units fuel next) fun _ => .pure _)
      (importStatement units fuel _ next)) <|
    .ite (exportStatement units nests fuel _) (.bind (body units nests fuel first) fun _ => .pure _)

end Nested

theorem nestedIn {statement : Token → Scan Scanned} (statements : ∀ first, Advances (statement first)) :
    Advances (nestedIn unit statement) :=
  .bind units fun first => .ite (.fail _) (.bind (statements first) fun _ => .pure _)

theorem statement (fuel : Nat) (first : Token) : Advances (statement unit fuel first) := by
  induction fuel generalizing first with
  | zero => exact .outOfFuel
  | succ fuel ih => exact statementOver units (nestedIn units ih) (fuel + 1) first

theorem statements (bound fuel : Nat) (pending : Option Token) : Advances (statements unit bound fuel pending) := by
  induction fuel generalizing pending with
  | zero => exact .outOfFuel
  | succ fuel ih =>
      refine .bind (pendingOr units pending) fun first => .ite (.pure []) ?_
      exact .bind (statement units bound first) fun scanned => .bind (ih scanned.pending) fun _ => .pure _

end Statement

end Advances

end Relink.Scan
