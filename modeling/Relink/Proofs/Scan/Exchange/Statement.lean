import Relink.Proofs.Scan.Exchange.Group

/-!
# Statements around a group

The statements of a module are the same with either content of a group, if the scan reads that group as a
unit.
-/

set_option autoImplicit false

namespace Relink

open Scan

namespace Scan

def Ending.relocate (move : Nat → Nat) (ending : Ending) : Ending :=
  ⟨move ending.stop, ending.pending.map (.relocate move)⟩

def Scanned.relocate (move : Nat → Nat) (scanned : Scanned) : Scanned :=
  ⟨scanned.statement.relocate move, scanned.pending.map (.relocate move)⟩

end Scan

namespace Exchange

variable {exchange : Exchange} {bound fuel otherFuel : Nat} {given : Prop}

/-- Actions that find the same end of a statement; below, the same statement and the same offset. -/
abbrev Ends (exchange : Exchange) (bound : Nat) (given : Prop) (diverted : SyntaxFault → Scan Ending)
    (action other : Scan Ending) : Prop :=
  exchange.Mirrors bound given diverted action other (.relocate exchange.move) fun _ => True

abbrev Finds (exchange : Exchange) (bound : Nat) (given : Prop) (diverted : SyntaxFault → Scan Scanned)
    (action other : Scan Scanned) : Prop :=
  exchange.Mirrors bound given diverted action other (.relocate exchange.move) fun _ => True

abbrev Stops (exchange : Exchange) (bound : Nat) (given : Prop) (diverted : SyntaxFault → Scan Nat)
    (action other : Scan Nat) : Prop :=
  exchange.Mirrors bound given diverted action other exchange.move fun _ => True

namespace Mirrors

theorem done {α : Type} {value moved : α} {move : α → α} (same : moved = move value) :
    exchange.Mirrors bound given (fun _ => Pure.pure value) (Pure.pure value) (Pure.pure moved) move
      fun _ => True :=
  .pure fun _ => ⟨same, trivial⟩

theorem found {diverted : SyntaxFault → Scan Ending} {action other : Scan Ending}
    (ends : exchange.Ends bound given diverted action other) (start : Nat) :
    exchange.Finds bound given
      (fun fault => diverted fault >>= fun ending => Pure.pure (.of none start ending))
      (action >>= fun ending => Pure.pure (.of none start ending))
      (other >>= fun ending => Pure.pure (.of none (exchange.move start) ending)) :=
  .seq ends fun _ => .done rfl

section Statement

variable {diverted : SyntaxFault → Scan Token} {unit otherUnit : Scan Token}
  (units : exchange.Mirrors bound True diverted unit otherUnit (.relocate exchange.move) exchange.QuotesFit)

include units

theorem pendingOr (pending : Option Token) :
    exchange.Mirrors bound given (fun fault => pendingOr (diverted fault) pending) (pendingOr unit pending)
      (pendingOr otherUnit (pending.map (.relocate exchange.move))) (.relocate exchange.move)
      fun _ => True := by
  cases pending with
  | some token => exact .done rfl
  | none => exact units.under.forget

/-! ## Simple statements -/

omit units in
theorem noteBrace (last : Kind) (token : Token) :
    exchange.Mirrors bound given (fun _ => noteBrace last token) (noteBrace last token)
      (noteBrace last (token.relocate exchange.move)) id fun _ => True :=
  .ite (fun _ => .expectOperand _) fun _ => .done rfl

theorem simple (enough : fuel ≤ otherFuel) (stop : Nat) (last : Kind) (pending : Option Token) :
    exchange.Ends bound given (fun fault => simple (diverted fault) fuel stop last pending)
      (simple unit fuel stop last pending)
      (simple otherUnit otherFuel (exchange.move stop) last (pending.map (.relocate exchange.move))) := by
  induction fuel generalizing otherFuel stop last pending with
  | zero => exact .outOfFuel _
  | succ fuel ih =>
      obtain ⟨otherFuel, rfl⟩ := Nat.exists_eq_add_one_of_ne_zero (by omega : otherFuel ≠ 0)
      refine .seq (pendingOr units pending) fun token => ?_
      refine .ite (fun _ => .done rfl) fun _ => .ite (fun _ => .done rfl) fun _ => ?_
      refine .ite (fun _ => .fail _ _) fun _ => .seq (.noteBrace last token) fun _ => ?_
      exact .ite (fun _ => .done rfl) fun _ => ih (by omega) token.span.stop token.kind none

theorem simpleAfter (enough : fuel ≤ otherFuel) (token : Token) :
    exchange.Ends bound given (fun fault => simpleAfter (diverted fault) fuel token)
      (simpleAfter unit fuel token) (simpleAfter otherUnit otherFuel (token.relocate exchange.move)) :=
  simple units enough token.span.stop token.kind none

theorem declaration (enough : fuel ≤ otherFuel) :
    exchange.Ends bound given (fun fault => declaration (diverted fault) fuel) (declaration unit fuel)
      (declaration otherUnit otherFuel) := by
  induction fuel generalizing otherFuel with
  | zero => exact .outOfFuel _
  | succ fuel ih =>
      obtain ⟨otherFuel, rfl⟩ := Nat.exists_eq_add_one_of_ne_zero (by omega : otherFuel ≠ 0)
      refine .seq units.under fun token => .ite (fun _ => ?_) fun _ => ?_
      · exact .seq (.expectOperand true) fun _ => .done rfl
      · exact .ite (fun _ => .fail _ _) fun _ => ih (by omega)

omit units in
theorem terminator (stop : Nat) (next : Token) :
    exchange.Ends bound given (fun _ => terminator stop next) (terminator stop next)
      (terminator (exchange.move stop) (next.relocate exchange.move)) :=
  .ite (fun _ => .done rfl) fun _ => .ite (fun _ => .done rfl) fun _ => .fail _ _

/-! ## Compound statements -/

theorem required (kind : Kind) :
    exchange.Stops bound given
      (fun fault => diverted fault >>= fun token =>
        Scan.require kind token >>= fun _ => Pure.pure token.span.stop)
      (unit >>= fun token => Scan.require kind token >>= fun _ => Pure.pure token.span.stop)
      (otherUnit >>= fun token => Scan.require kind token >>= fun _ => Pure.pure token.span.stop) :=
  .seq units.under fun token => .seq (.require kind token) fun _ => .done rfl

theorem header :
    exchange.Stops bound given (fun fault => header (diverted fault)) (header unit) (header otherUnit) :=
  required units _

theorem block :
    exchange.Stops bound given (fun fault => block (diverted fault)) (block unit) (block otherUnit) :=
  required units _

section Nested

variable {divertedNested : SyntaxFault → Scan Ending} {nested otherNested : Scan Ending}
  (ends : exchange.Ends bound True divertedNested nested otherNested)

include ends

theorem conditional :
    exchange.Ends bound given (fun fault => conditional (diverted fault) (divertedNested fault))
      (conditional unit nested) (conditional otherUnit otherNested) := by
  refine .seq (header units) fun _ => .seq ends.under fun consequent => ?_
  refine .seq (pendingOr units consequent.pending) fun next => ?_
  exact .ite (fun _ => ends.under) fun _ => .done rfl

theorem forLoop :
    exchange.Ends bound given (fun fault => forLoop (diverted fault) (divertedNested fault))
      (forLoop unit nested) (forLoop otherUnit otherNested) := by
  refine .seq units.under fun first => .ite (fun _ => ?_) fun _ => ?_
  · refine .seq units.under fun second => .seq (.expectOperand true) fun _ => ?_
    exact .seq (.require _ second) fun _ => ends.under
  · exact .seq (.require _ first) fun _ => ends.under

theorem headed :
    exchange.Ends bound given (fun fault => headed (diverted fault) (divertedNested fault))
      (headed unit nested) (headed otherUnit otherNested) :=
  .seq (header units) fun _ => ends.under

theorem doLoop :
    exchange.Ends bound given (fun fault => doLoop (diverted fault) (divertedNested fault))
      (doLoop unit nested) (doLoop otherUnit otherNested) := by
  refine .seq ends.under fun body => .seq (pendingOr units body.pending) fun word => ?_
  refine .seq (.require _ word) fun _ => .seq (header units) fun stop => ?_
  refine .seq units.under fun next => ?_
  exact .ite (fun _ => .done rfl) fun _ => .done rfl

omit ends

theorem switch :
    exchange.Ends bound given (fun fault => switch (diverted fault)) (switch unit) (switch otherUnit) :=
  .seq (header units) fun _ => .seq (block units) fun _ => .done rfl

theorem finallyPart (caught : Option Nat) (next : Token) :
    exchange.Ends bound given (fun fault => finallyPart (diverted fault) caught next)
      (finallyPart unit caught next)
      (finallyPart otherUnit (caught.map exchange.move) (next.relocate exchange.move)) := by
  refine .ite (fun _ => .seq (block units) fun _ => .done rfl) fun _ => ?_
  cases caught with
  | some stop => exact .done rfl
  | none => exact .fail _ _

theorem catchPart :
    exchange.Stops bound given (fun fault => catchPart (diverted fault)) (catchPart unit)
      (catchPart otherUnit) := by
  refine .seq units.under fun token => .ite (fun _ => block units) fun _ => ?_
  exact .seq (.require _ token) fun _ => .done rfl

theorem guarded :
    exchange.Ends bound given (fun fault => guarded (diverted fault)) (guarded unit)
      (guarded otherUnit) := by
  refine .seq (block units) fun _ => .seq units.under fun next => ?_
  refine .ite (fun _ => ?_) fun _ => finallyPart units none next
  refine .seq (catchPart units) fun stop => .seq units.under fun after => ?_
  exact finallyPart units (some stop) after

end Nested

/-! ## Requests -/

theorem requestEnding (stop : Nat) :
    exchange.Ends bound given (fun fault => requestEnding (diverted fault) stop)
      (requestEnding unit stop) (requestEnding otherUnit (exchange.move stop)) := by
  refine .seq units.under fun next => .ite (fun _ => ?_) fun _ => .terminator stop next
  refine .seq units.under fun attributes => .seq (.require _ attributes) fun _ => ?_
  exact .seq units.under fun after => .terminator _ after

theorem request (start : Nat) (form : RequestForm) {specifier : Token}
    (fits : given → exchange.QuotesFit specifier) :
    exchange.Finds bound given (fun fault => request (diverted fault) start form specifier)
      (request unit start form specifier)
      (request otherUnit (exchange.move start) form (specifier.relocate exchange.move)) := by
  refine .ite (fun string => ?_) fun _ => .fail _ _
  refine .seq (requestEnding units specifier.span.stop) fun ending => .pure fun holds => ⟨?_, trivial⟩
  obtain ⟨opening, closing⟩ := fits holds string
  simp only [Scanned.of, Scanned.relocate, Statement.relocate, ModuleRequest.relocate, Span.relocate,
    Ending.relocate, Token.relocate, Option.map_some, opening, closing]

theorem requestNext (start : Nat) (form : RequestForm) :
    exchange.Finds bound given (fun fault => requestNext (diverted fault) start form)
      (requestNext unit start form) (requestNext otherUnit (exchange.move start) form) :=
  .bind units.under fun _ => request units start form And.right

theorem importClause (enough : fuel ≤ otherFuel) (sees : Bool) (token : Token) :
    exchange.Mirrors bound given (fun fault => importClause (diverted fault) fuel sees token)
      (importClause unit fuel sees token)
      (importClause otherUnit otherFuel sees (token.relocate exchange.move)) id fun _ => True := by
  induction fuel generalizing otherFuel sees token with
  | zero => exact .outOfFuel _
  | succ fuel ih =>
      obtain ⟨otherFuel, rfl⟩ := Nat.exists_eq_add_one_of_ne_zero (by omega : otherFuel ≠ 0)
      have less : fuel ≤ otherFuel := by omega
      refine .ite (fun _ => .done rfl) fun _ => .ite (fun _ => ?_) fun _ => ?_
      · exact .seq units.under fun next => ih less true next
      · exact .ite (fun _ => .seq units.under fun next => ih less sees next) fun _ => .fail _ _

theorem importStatement (enough : fuel ≤ otherFuel) (start : Nat) {next : Token}
    (fits : given → exchange.QuotesFit next) :
    exchange.Finds bound given (fun fault => importStatement (diverted fault) fuel start next)
      (importStatement unit fuel start next)
      (importStatement otherUnit otherFuel (exchange.move start) (next.relocate exchange.move)) := by
  refine .ite (fun _ => request units start .sideEffect fits) fun _ => ?_
  exact .seq (importClause units enough false next) fun _ => requestNext units start .bindings

theorem exportFrom (start : Nat) (token : Token) :
    exchange.Finds bound given (fun fault => exportFrom (diverted fault) start token)
      (exportFrom unit start token)
      (exportFrom otherUnit (exchange.move start) (token.relocate exchange.move)) :=
  .ite (fun _ => requestNext units start .reExport) fun _ => .fail _ _

theorem exportAll (start : Nat) :
    exchange.Finds bound given (fun fault => exportAll (diverted fault) start) (exportAll unit start)
      (exportAll otherUnit (exchange.move start)) := by
  refine .seq units.under fun token => .ite (fun _ => ?_) fun _ => exportFrom units start token
  refine .seq units.under fun name => .ite (fun _ => ?_) fun _ => .fail _ _
  exact .seq units.under fun after => exportFrom units start after

theorem exportList (start stop : Nat) :
    exchange.Finds bound given (fun fault => exportList (diverted fault) start stop)
      (exportList unit start stop)
      (exportList otherUnit (exchange.move start) (exchange.move stop)) := by
  refine .seq units.under fun token => .ite (fun _ => requestNext units start .reExport) fun _ => ?_
  exact (terminator stop token).found start

/-! ## Statements -/

section Nested

variable {divertedNested : SyntaxFault → Scan Ending} {nested otherNested : Scan Ending}
  (ends : exchange.Ends bound True divertedNested nested otherNested) (enough : fuel ≤ otherFuel)

include ends enough

theorem named (first : Token) :
    exchange.Ends bound given (fun fault => named (diverted fault) fuel (divertedNested fault) first)
      (named unit fuel nested first)
      (named otherUnit otherFuel otherNested (first.relocate exchange.move)) := by
  refine .seq units.under fun next => ?_
  have goesOn : exchange.Ends bound given _ _ _ :=
    simple units enough first.span.stop first.kind (some next)
  refine .ite (fun _ => ?_) fun _ => .ite (fun _ => ends.under) fun _ => goesOn
  exact .ite (fun _ => declaration units enough) fun _ => goesOn

theorem body (first : Token) :
    exchange.Ends bound given (fun fault => body (diverted fault) fuel (divertedNested fault) first)
      (body unit fuel nested first)
      (body otherUnit otherFuel otherNested (first.relocate exchange.move)) := by
  unfold Scan.body
  rw [Token.kind_relocate]
  split
  · exact .done rfl
  · exact .seq (.expectOperand true) fun _ => .done rfl
  · exact .fail _ _
  · exact .fail _ _
  · exact .fail _ _
  · exact declaration units enough
  · exact declaration units enough
  · exact conditional units ends
  · exact forLoop units ends
  · exact headed units ends
  · exact headed units ends
  · exact switch units
  · exact doLoop units ends
  · exact guarded units
  · exact named units ends enough first
  · exact simpleAfter units enough first

theorem defaultValue (value : Token) :
    exchange.Ends bound given
      (fun fault => defaultValue (diverted fault) fuel (divertedNested fault) value)
      (defaultValue unit fuel nested value)
      (defaultValue otherUnit otherFuel otherNested (value.relocate exchange.move)) := by
  refine .ite (fun _ => body units ends enough value) fun _ => ?_
  exact .ite (fun _ => .fail _ _) fun _ => simpleAfter units enough value

theorem exportStatement (start : Nat) :
    exchange.Finds bound given
      (fun fault => exportStatement (diverted fault) fuel (divertedNested fault) start)
      (exportStatement unit fuel nested start)
      (exportStatement otherUnit otherFuel otherNested (exchange.move start)) := by
  refine .seq units.under fun next => .ite (fun _ => exportAll units start) fun _ => ?_
  refine .ite (fun _ => exportList units start next.span.stop) fun _ => .ite (fun _ => ?_) fun _ => ?_
  · exact .seq units.under fun value => (defaultValue units ends enough value).found start
  · exact .ite (fun _ => .fail _ _) fun _ => (body units ends enough next).found start

theorem statementOver (first : Token) :
    exchange.Finds bound given
      (fun fault => statementOver (diverted fault) fuel (divertedNested fault) first)
      (statementOver unit fuel nested first)
      (statementOver otherUnit otherFuel otherNested (first.relocate exchange.move)) := by
  refine .ite (fun _ => ?_) fun _ => .ite (fun _ => ?_) fun _ => ?_
  · refine .bind units.under fun next => .ite (fun _ => ?_) fun _ => ?_
    · exact (simpleAfter units enough next).found first.span.start
    · exact importStatement units enough first.span.start And.right
  · exact exportStatement units ends enough first.span.start
  · exact (body units ends enough first).found first.span.start

end Nested

theorem nestedIn {divertedIn : SyntaxFault → Token → Scan Scanned}
    {statement otherStatement : Token → Scan Scanned}
    (finds : ∀ first, exchange.Finds bound True (fun fault => divertedIn fault first) (statement first)
      (otherStatement (first.relocate exchange.move))) :
    exchange.Ends bound given (fun fault => nestedIn (diverted fault) (divertedIn fault))
      (nestedIn unit statement) (nestedIn otherUnit otherStatement) := by
  refine .seq units.under fun first => .ite (fun _ => .fail _ _) fun _ => ?_
  exact .seq (finds first).under fun scanned => .done rfl

theorem statement (enough : fuel ≤ otherFuel) (first : Token) :
    exchange.Finds bound given (fun fault => statement (diverted fault) fuel first)
      (statement unit fuel first) (statement otherUnit otherFuel (first.relocate exchange.move)) := by
  induction fuel generalizing otherFuel first given with
  | zero => exact .outOfFuel _
  | succ fuel ih =>
      obtain ⟨otherFuel, rfl⟩ := Nat.exists_eq_add_one_of_ne_zero (by omega : otherFuel ≠ 0)
      have less : fuel ≤ otherFuel := by omega
      exact statementOver units (nestedIn units fun first => ih less first) enough first

theorem statements {limit otherLimit : Nat} (most : limit ≤ otherLimit) (enough : fuel ≤ otherFuel)
    (pending : Option Token) :
    exchange.Mirrors bound given (fun fault => statements (diverted fault) limit fuel pending)
      (statements unit limit fuel pending)
      (statements otherUnit otherLimit otherFuel (pending.map (.relocate exchange.move)))
      (List.map (.relocate exchange.move)) fun _ => True := by
  induction fuel generalizing otherFuel pending with
  | zero => exact .outOfFuel _
  | succ fuel ih =>
      obtain ⟨otherFuel, rfl⟩ := Nat.exists_eq_add_one_of_ne_zero (by omega : otherFuel ≠ 0)
      have less : fuel ≤ otherFuel := by omega
      refine .seq (pendingOr units pending) fun first => .ite (fun _ => .done rfl) fun _ => ?_
      refine .seq (statement units most first) fun scanned => ?_
      exact .seq (ih less scanned.pending) fun others => .done rfl

end Statement

end Mirrors

end Exchange

end Relink
