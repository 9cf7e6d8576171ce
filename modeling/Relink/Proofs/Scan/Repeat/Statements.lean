import Relink.Proofs.Scan.Repeat
import Relink.Proofs.Scan.Units
import Relink.Scan.Statements

/-!
# The same statements, later

Statements end, or are given up on, at the same places of the text that is left, wherever it stands. A
unit that was read past the end of a statement counts as a character that is left, so each statement
takes at least one.
-/

set_option autoImplicit false

namespace Relink

open Scan

namespace Scan

def Ending.shift (distance : Nat) (ending : Ending) : Ending :=
  ⟨ending.stop + distance, ending.pending.map (·.shift distance)⟩

/-- The same statement and the unit past its end, `distance` bytes later. -/
def Scanned.shift (distance : Nat) (scanned : Scanned) : Scanned :=
  ⟨scanned.statement.shift distance, scanned.pending.map (·.shift distance)⟩

/-- What a pending unit took of the characters of a module. -/
def owed (pending : Option Token) : Nat := pending.elim 0 Token.cost

theorem owed_none : owed none = 0 := rfl

theorem owed_some (token : Token) : owed (some token) = token.cost := rfl

/-- A unit that is read: it takes a character unless it is the end, and a string has room for its
quotes. -/
structure Spends (reader : Reader) (token : Token) (after : Reader) : Prop where
  cost : token.cost + after.left ≤ reader.left
  room : token.kind = .literal .string → 1 ≤ token.span.stop

/-- An action that finds the same end of a statement; with a unit past it, `most` characters are left. -/
abbrev Reends (distance most : Nat) (reader : Reader) (action other : Scan Ending) : Prop :=
  Repeats distance reader action other (.shift distance) fun ending after =>
    owed ending.pending + after.left ≤ most

/-- An action that finds the same statement; with a unit past it, `most` characters are left. -/
abbrev Refinds (distance most : Nat) (reader : Reader) (action other : Scan Scanned) : Prop :=
  Repeats distance reader action other (.shift distance) fun scanned after =>
    owed scanned.pending + after.left ≤ most

section Rules

variable {distance most : Nat} {reader : Reader}

theorem Repeats.ended {stop : Nat} (within : reader.left ≤ most) :
    Reends distance most reader (Pure.pure ⟨stop, none⟩) (Pure.pure ⟨stop + distance, none⟩) :=
  .pure rfl (by rw [owed_none]; omega)

theorem Repeats.handedOn {stop : Nat} {token : Token} (within : token.cost + reader.left ≤ most) :
    Reends distance most reader (Pure.pure ⟨stop, some token⟩)
      (Pure.pure ⟨stop + distance, some (token.shift distance)⟩) :=
  .pure rfl (by rw [owed_some]; exact within)

theorem Reends.weaken {less : Nat} {action other : Scan Ending}
    (reends : Reends distance less reader action other) (within : less ≤ most) :
    Reends distance most reader action other :=
  reends.mono fun _ _ spent => Nat.le_trans spent within

theorem Refinds.weaken {less : Nat} {action other : Scan Scanned}
    (refinds : Refinds distance less reader action other) (within : less ≤ most) :
    Refinds distance most reader action other :=
  refinds.mono fun _ _ spent => Nat.le_trans spent within

theorem Reends.found {action other : Scan Ending} (reends : Reends distance most reader action other)
    (request : Option ModuleRequest) (start : Nat) :
    Refinds distance most reader (action >>= fun ending => Pure.pure (.of request start ending))
      (other >>= fun ending => Pure.pure (.of (request.map fun request =>
        { request with specifier := request.specifier.shift distance }) (start + distance) ending)) := by
  apply Repeats.bind reends
  intro ending after spent
  exact .pure rfl spent

end Rules

section Statement

variable {distance bound : Nat} {unit otherUnit : Scan Token}
  (rereads : ∀ reader : Reader, reader.left < bound →
    Repeats distance reader unit otherUnit (·.shift distance) (Spends reader))

include rereads

theorem pendingOr_repeats (pending : Option Token) {reader : Reader} (within : reader.left < bound) :
    Repeats distance reader (pendingOr unit pending)
      (pendingOr otherUnit (pending.map (·.shift distance))) (·.shift distance) fun token after =>
        token.cost + after.left ≤ owed pending + reader.left ∧ after.left ≤ reader.left := by
  cases pending with
  | some token => exact .pure rfl ⟨Nat.le_refl _, Nat.le_refl _⟩
  | none =>
      refine (rereads reader within).mono fun token after spends => ?_
      have cost := spends.cost
      rw [owed_none]
      omega

/-! ## Simple statements -/

omit rereads in
theorem noteBrace_repeats (last : Kind) (token : Token) (reader : Reader) :
    Repeats distance reader (noteBrace last token) (noteBrace last (token.shift distance)) id
      fun _ after => after.left = reader.left :=
  .ite (fun _ => expectOperand_repeats _) fun _ => .pure rfl rfl

theorem simple_repeats {fuel otherFuel : Nat} (enough : fuel ≤ otherFuel) (stop : Nat) (last : Kind)
    (pending : Option Token) {reader : Reader} (fits : owed pending + reader.left < fuel)
    (within : reader.left < bound) :
    Reends distance (owed pending + reader.left) reader (simple unit fuel stop last pending)
      (simple otherUnit otherFuel (stop + distance) last (pending.map (·.shift distance))) := by
  induction fuel generalizing otherFuel stop last pending reader with
  | zero => omega
  | succ fuel ih =>
      obtain ⟨otherFuel, rfl⟩ := Nat.exists_eq_add_one_of_ne_zero (by omega : otherFuel ≠ 0)
      apply Repeats.bind (pendingOr_repeats rereads pending within)
      rintro token between ⟨cost, still⟩
      refine .ite (fun _ => .ended (by omega)) fun _ => ?_
      refine .ite (fun _ => .handedOn cost) fun goesOn => ?_
      refine .ite (fun _ => .fail rfl) fun _ => ?_
      have one := Token.cost_goesOn goesOn
      apply Repeats.bind (noteBrace_repeats last token between)
      intro _ behind same
      refine .ite (fun _ => .handedOn (by omega)) fun _ => ?_
      have later := ih (by omega : fuel ≤ otherFuel) token.span.stop token.kind none
        (show owed none + behind.left < fuel by rw [owed_none]; omega) (by omega)
      exact later.weaken (by rw [owed_none]; omega)

theorem simpleAfter_repeats {fuel otherFuel : Nat} (enough : fuel ≤ otherFuel) (token : Token)
    {reader : Reader} (fits : reader.left < fuel) (within : reader.left < bound) :
    Reends distance reader.left reader (simpleAfter unit fuel token)
      (simpleAfter otherUnit otherFuel (token.shift distance)) := by
  have repeated := simple_repeats rereads enough token.span.stop token.kind none
    (show owed none + reader.left < fuel by rw [owed_none]; omega) within
  exact repeated.weaken (by rw [owed_none]; omega)

theorem declaration_repeats {fuel otherFuel : Nat} (enough : fuel ≤ otherFuel) {reader : Reader}
    (fits : reader.left < fuel) (within : reader.left < bound) :
    Reends distance reader.left reader (declaration unit fuel) (declaration otherUnit otherFuel) := by
  induction fuel generalizing otherFuel reader with
  | zero => omega
  | succ fuel ih =>
      obtain ⟨otherFuel, rfl⟩ := Nat.exists_eq_add_one_of_ne_zero (by omega : otherFuel ≠ 0)
      apply Repeats.bind (rereads reader within)
      intro token between spends
      have cost := spends.cost
      refine .ite (fun _ => ?_) fun _ => ?_
      · exact .bind (expectOperand_repeats true) fun _ behind same => .ended (by omega)
      refine .ite (fun _ => .fail rfl) fun goesOn => ?_
      have one : token.cost = 1 := Token.cost_goesOn fun ended => goesOn (.inl ended)
      exact (ih (by omega) (by omega) (by omega)).weaken (by omega)

omit rereads in
theorem terminator_repeats {most : Nat} (stop : Nat) {next : Token} {reader : Reader}
    (within : next.cost + reader.left ≤ most) :
    Reends distance most reader (terminator stop next)
      (terminator (stop + distance) (next.shift distance)) := by
  refine .ite (fun _ => .ended (by omega)) fun _ => ?_
  exact .ite (fun _ => .handedOn within) fun _ => .fail rfl

/-! ## Compound statements -/

theorem required_repeats (kind : Kind) {reader : Reader} (within : reader.left < bound) :
    Repeats distance reader
      (unit >>= fun token => require kind token >>= fun _ => pure token.span.stop)
      (otherUnit >>= fun token => require kind token >>= fun _ => pure token.span.stop)
      (· + distance) fun _ after => after.left ≤ reader.left := by
  apply Repeats.bind (rereads reader within)
  intro token between spends
  have cost := spends.cost
  apply Repeats.bind (require_repeats kind token)
  rintro _ _ ⟨-, rfl⟩
  exact .pure rfl (by omega)

theorem header_repeats {reader : Reader} (within : reader.left < bound) :
    Repeats distance reader (header unit) (header otherUnit) (· + distance)
      fun _ after => after.left ≤ reader.left :=
  required_repeats rereads _ within

theorem block_repeats {reader : Reader} (within : reader.left < bound) :
    Repeats distance reader (block unit) (block otherUnit) (· + distance)
      fun _ after => after.left ≤ reader.left :=
  required_repeats rereads _ within

section Nested

variable {nested otherNested : Scan Ending}
  (reends : ∀ reader : Reader, reader.left < bound →
    Reends distance reader.left reader nested otherNested)

include reends

theorem conditional_repeats {reader : Reader} (within : reader.left < bound) :
    Reends distance reader.left reader (conditional unit nested)
      (conditional otherUnit otherNested) := by
  apply Repeats.bind (header_repeats rereads within)
  intro _ between headed
  apply Repeats.bind (reends between (by omega))
  intro consequent behind spent
  apply Repeats.bind (pendingOr_repeats rereads consequent.pending (by omega))
  rintro next last ⟨cost, still⟩
  refine .ite (fun _ => (reends last (by omega)).weaken (by omega)) fun _ => .handedOn (by omega)

theorem forLoop_repeats {reader : Reader} (within : reader.left < bound) :
    Reends distance reader.left reader (forLoop unit nested) (forLoop otherUnit otherNested) := by
  apply Repeats.bind (rereads reader within)
  intro first between spends
  have cost := spends.cost
  refine .ite (fun _ => ?_) fun _ => ?_
  · apply Repeats.bind (rereads between (by omega))
    intro second behind more
    have moreCost := more.cost
    apply Repeats.bind (expectOperand_repeats true)
    intro _ noted same
    apply Repeats.bind (require_repeats _ second)
    rintro _ _ ⟨-, rfl⟩
    exact (reends _ (by omega)).weaken (by omega)
  · apply Repeats.bind (require_repeats _ first)
    rintro _ _ ⟨-, rfl⟩
    exact (reends _ (by omega)).weaken (by omega)

theorem headed_repeats {reader : Reader} (within : reader.left < bound) :
    Reends distance reader.left reader (headed unit nested) (headed otherUnit otherNested) := by
  apply Repeats.bind (header_repeats rereads within)
  intro _ between spent
  exact (reends between (by omega)).weaken spent

theorem doLoop_repeats {reader : Reader} (within : reader.left < bound) :
    Reends distance reader.left reader (doLoop unit nested) (doLoop otherUnit otherNested) := by
  apply Repeats.bind (reends reader within)
  intro body between spent
  apply Repeats.bind (pendingOr_repeats rereads body.pending (by omega))
  rintro word behind ⟨cost, still⟩
  apply Repeats.bind (require_repeats _ word)
  rintro _ _ ⟨-, rfl⟩
  apply Repeats.bind (header_repeats rereads (by omega))
  intro stop last headed
  apply Repeats.bind (rereads last (by omega))
  intro next after spends
  have nextCost := spends.cost
  exact .ite (fun _ => .ended (by omega)) fun _ => .handedOn (by omega)

omit reends

theorem switch_repeats {reader : Reader} (within : reader.left < bound) :
    Reends distance reader.left reader (switch unit) (switch otherUnit) := by
  apply Repeats.bind (header_repeats rereads within)
  intro _ between headed
  exact .bind (block_repeats rereads (by omega)) fun stop after spent => .ended (by omega)

theorem finallyPart_repeats {most : Nat} (caught : Option Nat) {next : Token} {reader : Reader}
    (spent : next.cost + reader.left ≤ most) (within : reader.left < bound) :
    Reends distance most reader (finallyPart unit caught next)
      (finallyPart otherUnit (caught.map (· + distance)) (next.shift distance)) := by
  refine .ite (fun _ => ?_) fun _ => ?_
  · exact .bind (block_repeats rereads within) fun stop after less => .ended (by omega)
  · cases caught with
    | some stop => exact .handedOn spent
    | none => exact .fail rfl

theorem catchPart_repeats {reader : Reader} (within : reader.left < bound) :
    Repeats distance reader (catchPart unit) (catchPart otherUnit) (· + distance)
      fun _ after => after.left ≤ reader.left := by
  apply Repeats.bind (rereads reader within)
  intro token between spends
  have cost := spends.cost
  refine .ite (fun _ => ?_) fun _ => ?_
  · exact (block_repeats rereads (by omega)).mono fun _ after spent => by omega
  · apply Repeats.bind (require_repeats _ token)
    rintro _ _ ⟨-, rfl⟩
    exact .pure rfl (by omega)

theorem guarded_repeats {reader : Reader} (within : reader.left < bound) :
    Reends distance reader.left reader (guarded unit) (guarded otherUnit) := by
  apply Repeats.bind (block_repeats rereads within)
  intro _ between spent
  apply Repeats.bind (rereads between (by omega))
  intro next behind spends
  have cost := spends.cost
  refine .ite (fun _ => ?_) fun _ => finallyPart_repeats rereads none (by omega) (by omega)
  apply Repeats.bind (catchPart_repeats rereads (by omega))
  intro stop caught less
  apply Repeats.bind (rereads caught (by omega))
  intro after last more
  have moreCost := more.cost
  exact finallyPart_repeats rereads (some stop) (by omega) (by omega)

end Nested

/-! ## Requests -/

theorem requestEnding_repeats (stop : Nat) {reader : Reader} (within : reader.left < bound) :
    Reends distance reader.left reader (requestEnding unit stop)
      (requestEnding otherUnit (stop + distance)) := by
  apply Repeats.bind (rereads reader within)
  intro next between spends
  have cost := spends.cost
  refine .ite (fun _ => ?_) fun _ => terminator_repeats stop (by omega)
  apply Repeats.bind (rereads between (by omega))
  intro attributes behind more
  have moreCost := more.cost
  apply Repeats.bind (require_repeats _ attributes)
  rintro _ _ ⟨-, rfl⟩
  apply Repeats.bind (rereads _ (by omega))
  intro after last final
  have finalCost := final.cost
  exact terminator_repeats _ (by omega)

theorem request_repeats (start : Nat) (form : RequestForm) {specifier : Token} {reader : Reader}
    (room : specifier.kind = .literal .string → 1 ≤ specifier.span.stop)
    (within : reader.left < bound) :
    Refinds distance reader.left reader (request unit start form specifier)
      (request otherUnit (start + distance) form (specifier.shift distance)) := by
  refine .ite (fun string => ?_) fun _ => .fail rfl
  have found := (requestEnding_repeats rereads specifier.span.stop within).found
    (some ⟨form, ⟨specifier.span.start + 1, specifier.span.stop - 1⟩⟩) start
  -- The quotes stand inside the string, wherever it stands.
  have quotes : Span.shift ⟨specifier.span.start + 1, specifier.span.stop - 1⟩ distance =
      ⟨specifier.span.start + distance + 1, specifier.span.stop + distance - 1⟩ := by
    have some := room string
    simp only [Span.shift, Span.mk.injEq]
    omega
  simp only [Option.map_some, quotes] at found
  exact found

theorem requestNext_repeats (start : Nat) (form : RequestForm) {reader : Reader}
    (within : reader.left < bound) :
    Refinds distance reader.left reader (requestNext unit start form)
      (requestNext otherUnit (start + distance) form) := by
  apply Repeats.bind (rereads reader within)
  intro specifier between spends
  have cost := spends.cost
  exact (request_repeats rereads start form spends.room (by omega)).weaken (by omega)

theorem importClause_repeats {fuel otherFuel : Nat} (enough : fuel ≤ otherFuel) (sees : Bool)
    (token : Token) {reader : Reader} (fits : token.cost + reader.left < fuel)
    (within : reader.left < bound) :
    Repeats distance reader (importClause unit fuel sees token)
      (importClause otherUnit otherFuel sees (token.shift distance)) id
      fun _ after => after.left ≤ reader.left := by
  induction fuel generalizing otherFuel sees token reader with
  | zero => omega
  | succ fuel ih =>
      obtain ⟨otherFuel, rfl⟩ := Nat.exists_eq_add_one_of_ne_zero (by omega : otherFuel ≠ 0)
      -- A unit of the clause is not the end, so the next one may be.
      have goOn : ∀ sees : Bool, token.kind ≠ .eof →
          Repeats distance reader (unit >>= importClause unit fuel sees)
            (otherUnit >>= importClause otherUnit otherFuel sees) id
            fun _ after => after.left ≤ reader.left := by
        intro sees goesOn
        have one := Token.cost_goesOn goesOn
        apply Repeats.bind (rereads reader within)
        intro next between spends
        have cost := spends.cost
        exact (ih (by omega) sees next (by omega) (by omega)).mono fun _ after less => by omega
      refine .ite (fun _ => .pure rfl (Nat.le_refl _)) fun _ => ?_
      refine .ite (fun binds => goOn true ?_) fun _ => ?_
      · intro ended
        simp [bindsNames, Token.isPunctuator, ended] at binds
      refine .ite (fun comma => goOn sees ?_) fun _ => .fail rfl
      intro ended
      simp [Token.isPunctuator, ended] at comma

theorem importStatement_repeats {fuel otherFuel : Nat} (enough : fuel ≤ otherFuel) (start : Nat)
    {next : Token} {reader : Reader}
    (room : next.kind = .literal .string → 1 ≤ next.span.stop)
    (fits : next.cost + reader.left < fuel) (within : reader.left < bound) :
    Refinds distance reader.left reader (importStatement unit fuel start next)
      (importStatement otherUnit otherFuel (start + distance) (next.shift distance)) := by
  refine .ite (fun _ => request_repeats rereads start .sideEffect room within) fun _ => ?_
  apply Repeats.bind (importClause_repeats rereads enough false next fits within)
  intro _ between less
  exact (requestNext_repeats rereads start .bindings (by omega)).weaken less

theorem exportFrom_repeats (start : Nat) (token : Token) {reader : Reader}
    (within : reader.left < bound) :
    Refinds distance reader.left reader (exportFrom unit start token)
      (exportFrom otherUnit (start + distance) (token.shift distance)) :=
  .ite (fun _ => requestNext_repeats rereads start .reExport within) fun _ => .fail rfl

theorem exportAll_repeats (start : Nat) {reader : Reader} (within : reader.left < bound) :
    Refinds distance reader.left reader (exportAll unit start)
      (exportAll otherUnit (start + distance)) := by
  apply Repeats.bind (rereads reader within)
  intro token between spends
  have cost := spends.cost
  refine .ite (fun _ => ?_) fun _ =>
    (exportFrom_repeats rereads start token (by omega)).weaken (by omega)
  apply Repeats.bind (rereads between (by omega))
  intro name behind more
  have moreCost := more.cost
  refine .ite (fun _ => ?_) fun _ => .fail rfl
  apply Repeats.bind (rereads behind (by omega))
  intro after last final
  have finalCost := final.cost
  exact (exportFrom_repeats rereads start after (by omega)).weaken (by omega)

theorem exportList_repeats (start stop : Nat) {reader : Reader} (within : reader.left < bound) :
    Refinds distance reader.left reader (exportList unit start stop)
      (exportList otherUnit (start + distance) (stop + distance)) := by
  apply Repeats.bind (rereads reader within)
  intro token between spends
  have cost := spends.cost
  refine .ite (fun _ => ?_) fun _ => ?_
  · exact (requestNext_repeats rereads start .reExport (by omega)).weaken (by omega)
  · exact Reends.found (terminator_repeats stop cost) none start

/-! ## Statements -/

section Nested

variable {nested otherNested : Scan Ending}
  (reends : ∀ reader : Reader, reader.left < bound →
    Reends distance reader.left reader nested otherNested)
  {fuel otherFuel : Nat} (enough : fuel ≤ otherFuel)

include reends enough

theorem named_repeats (first : Token) {reader : Reader} (fits : reader.left < fuel)
    (within : reader.left < bound) :
    Reends distance reader.left reader (named unit fuel nested first)
      (named otherUnit otherFuel otherNested (first.shift distance)) := by
  apply Repeats.bind (rereads reader within)
  intro next between spends
  have cost := spends.cost
  have goesOn : Reends distance reader.left between
      (simple unit fuel first.span.stop first.kind (some next))
      (simple otherUnit otherFuel (first.span.stop + distance) first.kind
        (some (next.shift distance))) := by
    have repeated := simple_repeats rereads enough first.span.stop first.kind (some next)
      (show owed (some next) + between.left < fuel by rw [owed_some]; omega) (by omega)
    exact repeated.weaken cost
  refine .ite (fun _ => ?_) fun _ => ?_
  · refine .ite (fun _ => ?_) fun _ => goesOn
    exact (declaration_repeats rereads enough (by omega) (by omega)).weaken (by omega)
  · exact .ite (fun _ => (reends between (by omega)).weaken (by omega)) fun _ => goesOn

theorem body_repeats (first : Token) {reader : Reader} (fits : reader.left < fuel)
    (within : reader.left < bound) :
    Reends distance reader.left reader (body unit fuel nested first)
      (body otherUnit otherFuel otherNested (first.shift distance)) := by
  unfold body
  rw [Token.kind_shift]
  split
  · exact .ended (Nat.le_refl _)
  · exact .bind (expectOperand_repeats true) fun _ _ same => .ended (by omega)
  · exact .fail rfl
  · exact .fail rfl
  · exact .fail rfl
  · exact declaration_repeats rereads enough fits within
  · exact declaration_repeats rereads enough fits within
  · exact conditional_repeats rereads reends within
  · exact forLoop_repeats rereads reends within
  · exact headed_repeats rereads reends within
  · exact headed_repeats rereads reends within
  · exact switch_repeats rereads within
  · exact doLoop_repeats rereads reends within
  · exact guarded_repeats rereads within
  · exact named_repeats rereads reends enough first fits within
  · exact simpleAfter_repeats rereads enough first fits within

theorem defaultValue_repeats (value : Token) {reader : Reader} (fits : reader.left < fuel)
    (within : reader.left < bound) :
    Reends distance reader.left reader (defaultValue unit fuel nested value)
      (defaultValue otherUnit otherFuel otherNested (value.shift distance)) := by
  refine .ite (fun _ => body_repeats rereads reends enough value fits within) fun _ => ?_
  refine .ite (fun _ => .fail rfl) fun _ => ?_
  exact simpleAfter_repeats rereads enough value fits within

theorem exportStatement_repeats (start : Nat) {reader : Reader} (fits : reader.left < fuel)
    (within : reader.left < bound) :
    Refinds distance reader.left reader (exportStatement unit fuel nested start)
      (exportStatement otherUnit otherFuel otherNested (start + distance)) := by
  apply Repeats.bind (rereads reader within)
  intro next between spends
  have cost := spends.cost
  refine .ite (fun _ => ?_) fun _ => .ite (fun _ => ?_) fun _ => .ite (fun _ => ?_) fun _ => ?_
  · exact (exportAll_repeats rereads start (by omega)).weaken (by omega)
  · exact (exportList_repeats rereads start next.span.stop (by omega)).weaken (by omega)
  · apply Repeats.bind (rereads between (by omega))
    intro value behind more
    have moreCost := more.cost
    have repeated := (defaultValue_repeats rereads reends enough value
      (show behind.left < fuel by omega) (by omega)).found none start
    exact repeated.weaken (by omega)
  · refine .ite (fun _ => .fail rfl) fun _ => ?_
    have repeated := (body_repeats rereads reends enough next
      (show between.left < fuel by omega) (by omega)).found none start
    exact repeated.weaken (by omega)

theorem statementOver_repeats (first : Token) {reader : Reader} (fits : reader.left < fuel)
    (within : reader.left < bound) :
    Refinds distance reader.left reader (statementOver unit fuel nested first)
      (statementOver otherUnit otherFuel otherNested (first.shift distance)) := by
  refine .ite (fun _ => ?_) fun _ => .ite (fun _ => ?_) fun _ => ?_
  · apply Repeats.bind (rereads reader within)
    intro next between spends
    have cost := spends.cost
    refine .ite (fun _ => ?_) fun _ => ?_
    · have repeated := (simpleAfter_repeats rereads enough next
        (show between.left < fuel by omega) (by omega)).found none first.span.start
      exact repeated.weaken (by omega)
    · exact (importStatement_repeats rereads enough first.span.start spends.room (by omega)
        (by omega)).weaken (by omega)
  · exact exportStatement_repeats rereads reends enough first.span.start fits within
  · exact (body_repeats rereads reends enough first fits within).found none first.span.start

end Nested

theorem nestedIn_repeats {fuel : Nat} {statement otherStatement : Token → Scan Scanned}
    (refinds : ∀ (first : Token) (reader : Reader), reader.left < fuel →
      Refinds distance reader.left reader (statement first) (otherStatement (first.shift distance)))
    {reader : Reader} (fits : reader.left < fuel + 1) (within : reader.left < bound) :
    Reends distance reader.left reader (nestedIn unit statement)
      (nestedIn otherUnit otherStatement) := by
  apply Repeats.bind (rereads reader within)
  intro first between spends
  have cost := spends.cost
  refine .ite (fun _ => .fail rfl) fun goesOn => ?_
  have one := Token.cost_goesOn goesOn
  apply Repeats.bind (refinds first between (by omega))
  intro scanned after spent
  exact .pure rfl (Nat.le_trans spent (by omega))

theorem statement_repeats {fuel otherFuel : Nat} (enough : fuel ≤ otherFuel) (deep : fuel ≤ bound)
    (first : Token) {reader : Reader} (fits : reader.left < fuel) :
    Refinds distance reader.left reader (statement unit fuel first)
      (statement otherUnit otherFuel (first.shift distance)) := by
  induction fuel generalizing otherFuel first reader with
  | zero => omega
  | succ fuel ih =>
      obtain ⟨otherFuel, rfl⟩ := Nat.exists_eq_add_one_of_ne_zero (by omega : otherFuel ≠ 0)
      have within : ∀ reader : Reader, reader.left < fuel + 1 →
          Repeats distance reader unit otherUnit (·.shift distance) (Spends reader) :=
        fun reader fits => rereads reader (by omega)
      have nested : ∀ reader : Reader, reader.left < fuel + 1 →
          Reends distance reader.left reader (nestedIn unit (statement unit fuel))
            (nestedIn otherUnit (statement otherUnit otherFuel)) :=
        fun reader fits => nestedIn_repeats within
          (fun first reader fits => ih (by omega) (by omega) first fits) fits fits
      exact statementOver_repeats within nested enough first fits fits

theorem statements_repeats {limit otherLimit fuel otherFuel : Nat} (most : limit ≤ otherLimit)
    (deep : limit ≤ bound) (enough : fuel ≤ otherFuel) (pending : Option Token) {reader : Reader}
    (fits : owed pending + reader.left < fuel) (within : reader.left < limit) :
    Repeats distance reader (statements unit limit fuel pending)
      (statements otherUnit otherLimit otherFuel (pending.map (·.shift distance)))
      (List.map (·.shift distance)) fun _ _ => True := by
  induction fuel generalizing otherFuel pending reader with
  | zero => omega
  | succ fuel ih =>
      obtain ⟨otherFuel, rfl⟩ := Nat.exists_eq_add_one_of_ne_zero (by omega : otherFuel ≠ 0)
      apply Repeats.bind (pendingOr_repeats rereads pending (by omega))
      rintro first between ⟨cost, still⟩
      refine .ite (fun _ => .pure rfl trivial) fun goesOn => ?_
      have one := Token.cost_goesOn goesOn
      apply Repeats.bind (statement_repeats rereads most deep first (by omega))
      intro scanned behind spent
      apply Repeats.bind (ih (by omega) scanned.pending (by omega) (by omega))
      intro others after _
      exact .pure rfl trivial

end Statement

/-- A module of at most `bound` characters is scanned the same at every place and with every larger
bound. -/
theorem moduleStatements_repeats {distance bound otherBound : Nat} (enough : bound ≤ otherBound)
    {reader : Reader} (fits : reader.left ≤ bound) :
    Repeats distance reader (moduleStatements bound) (moduleStatements otherBound)
      (List.map (·.shift distance)) fun _ _ => True := by
  have rereads : ∀ reader : Reader, reader.left < bound + 2 →
      Repeats distance reader (unit (bound + 2)) (unit (otherBound + 2)) (·.shift distance)
        (Spends reader) :=
    fun reader fits => (unit_repeats (by omega) fits).known fun token after read spends =>
      ⟨spends, (Token.before read).room⟩
  exact statements_repeats rereads (by omega) (Nat.le_refl _) (by omega) none
    (by rw [owed_none]; omega) (by omega)

end Scan

end Relink
