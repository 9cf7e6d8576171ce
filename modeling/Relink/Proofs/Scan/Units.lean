import Relink.Proofs.Scan.Border

/-!
# Units one behind the other

The units that a scan reads stand one behind the other: each is read where the one before it ended. The
scan decides nothing but whether an operand is due, and that only behind a group.
-/

set_option autoImplicit false

namespace Relink

open Scan

/-! ## Notes -/

/-- A reader may note otherwise whether an operand is due where it stands behind a group. -/
def Reader.Notes (reader noted : Reader) : Prop :=
  noted = reader ∨
    reader.previous.closes?.isSome = true ∧ ∃ operand, noted = { reader with operand := operand }

namespace Reader.Notes

variable {reader noted later : Reader}

theorem refl (reader : Reader) : reader.Notes reader := .inl rfl

theorem of_group (closes : reader.previous.closes?.isSome = true) (operand : Bool) :
    reader.Notes { reader with operand := operand } := .inr ⟨closes, operand, rfl⟩

theorem only (notes : reader.Notes noted) : noted = { reader with operand := noted.operand } := by
  rcases notes with rfl | ⟨-, operand, rfl⟩ <;> rfl

theorem rest (notes : reader.Notes noted) : noted.rest = reader.rest := by rw [notes.only]

theorem position (notes : reader.Notes noted) : noted.position = reader.position := by
  rw [notes.only]

theorem previous (notes : reader.Notes noted) : noted.previous = reader.previous := by
  rw [notes.only]

theorem trans (first : reader.Notes noted) (second : noted.Notes later) : reader.Notes later := by
  rcases second with rfl | ⟨closes, operand, rfl⟩
  · exact first
  · rw [first.previous] at closes
    rw [first.only]
    exact of_group closes operand

theorem leads (notes : reader.Notes noted) : reader.Leads noted :=
  ⟨[], notes.rest.symm, notes.position⟩

theorem eq_of_semicolon (notes : reader.Notes noted)
    (semicolon : reader.previous = .punctuator .semicolon) : noted = reader := by
  rcases notes with same | ⟨closes, -⟩
  · exact same
  · rw [semicolon] at closes
    cases closes

end Reader.Notes

/-- Only a closing bracket may stand for a unit of another kind. -/
theorem eq_of_trace {kind last : Kind} (same : trace kind = last) (noClose : last.closes? = none) :
    kind = last := by
  unfold trace at same
  split at same
  · rename_i bracket _
    subst same
    cases bracket <;> cases noClose
  · exact same

/-! ## Restricted words -/

theorem operandAfter_restricted {kind : Kind} (restricted : kind.isRestricted = true) (before : Kind) :
    operandAfter before kind = true := by
  cases kind with
  | keyword word => cases word <;> first | rfl | cases restricted
  | _ => cases restricted

theorem trace_restricted {kind : Kind} (restricted : kind.isRestricted = true) :
    (trace kind).closes? = none := by
  cases kind with
  | keyword word => rfl
  | _ => cases restricted

/-! ## The end of the module -/

/-- The module ends behind the trivia before its end. -/
theorem unit_ends {depth : Nat} {reader after : Reader} {token : Token}
    (read : unit depth reader = .ok (token, after)) (ended : token.kind = .eof) :
    (Trivia.skip reader.rest).rest = [] := by
  obtain ⟨body, lies⟩ := unit_at read
  rw [lies.behindGap, lies.empty.mp ended, lies.ended ended, List.append_nil]

/-- A unit, or nothing at the end of the module. -/
def Token.orEnd (token : Token) : Option Token := if token.kind = .eof then none else some token

/-! ## Behind a unit -/

/-- A reader stands behind a unit, whatever it has noted there. -/
structure Token.Before (token : Token) (reader : Reader) : Prop where
  stop : token.span.stop = reader.position
  previous : reader.previous = trace token.kind
  room : token.kind = .literal .string → 1 ≤ token.span.stop
  operand : token.kind.isRestricted = true → reader.operand = true

theorem Token.before {depth : Nat} {reader after : Reader} {token : Token}
    (read : unit depth reader = .ok (token, after)) : token.Before after := by
  obtain ⟨body, lies⟩ := unit_at read
  refine ⟨lies.stop, lies.previous, fun string => ?_, fun restricted => ?_⟩
  · have some := lies.start_lt_stop (by rw [string]; nofun)
    omega
  · rw [lies.operand]
    exact operandAfter_restricted restricted _

namespace Token.Before

variable {token : Token} {reader later : Reader}

theorem noted (before : token.Before reader) (notes : reader.Notes later) : token.Before later where
  stop := before.stop.trans notes.position.symm
  previous := notes.previous.trans before.previous
  room := before.room
  operand := fun restricted => by
    rcases notes with rfl | ⟨closes, -⟩
    · exact before.operand restricted
    · rw [before.previous, trace_restricted restricted] at closes
      cases closes

theorem notes_group (before : token.Before reader) (opens : token.kind.opens?.isSome = true)
    (operand : Bool) : reader.Notes { reader with operand := operand } := by
  apply Reader.Notes.of_group
  obtain ⟨bracket, isOpening⟩ := Option.isSome_iff_exists.mp opens
  rw [before.previous, trace, isOpening]
  cases bracket <;> rfl

theorem previous_ne_semicolon (before : token.Before reader)
    (other : token.kind ≠ .punctuator .semicolon) : reader.previous ≠ .punctuator .semicolon := by
  intro semicolon
  rw [before.previous] at semicolon
  exact other (eq_of_trace semicolon rfl)

theorem previous_ne_eof (before : token.Before reader) (noEnd : token.kind ≠ .eof) :
    reader.previous ≠ .eof := by
  intro eof
  rw [before.previous] at eof
  exact noEnd (eq_of_trace eof rfl)

end Token.Before

/-! ## Chains of units -/

/-- Units that are read one behind the other, from a reader to another. -/
inductive Units : Reader → List Token → Reader → Prop where
  | nil {reader noted : Reader} : reader.Notes noted → Units reader [] noted
  | cons {depth : Nat} {reader noted after last : Reader} {token : Token} {tokens : List Token} :
      reader.Notes noted → unit depth noted = .ok (token, after) → Units after tokens last →
        Units reader (token :: tokens) last

namespace Units

variable {depth : Nat} {reader noted middle after last : Reader} {token : Token}
  {tokens others : List Token}

theorem refl (reader : Reader) : Units reader [] reader := .nil (.refl reader)

theorem single (read : unit depth reader = .ok (token, after)) : Units reader [token] after :=
  .cons (.refl reader) read (.refl after)

theorem behind (notes : reader.Notes noted) (units : Units noted tokens last) :
    Units reader tokens last := by
  cases units with
  | nil later => exact .nil (notes.trans later)
  | cons later read units => exact .cons (notes.trans later) read units

theorem append (first : Units reader tokens middle) (second : Units middle others last) :
    Units reader (tokens ++ others) last := by
  induction first with
  | nil notes => exact second.behind notes
  | cons notes read units ih => exact .cons notes read (ih second)

theorem leads (units : Units reader tokens last) : reader.Leads last := by
  induction units with
  | nil notes => exact notes.leads
  | cons notes read units ih => exact notes.leads.trans ((unit_leads read).trans ih)

/-- A chain ends with the reading of its last unit. -/
theorem last_read (units : Units reader tokens last) {token : Token}
    (final : tokens.getLast? = some token) :
    ∃ depth noted after, reader.Leads noted ∧ unit depth noted = .ok (token, after) ∧
      after.Notes last := by
  induction units with
  | nil => cases final
  | @cons depth reader noted after last first tokens notes read units ih =>
      cases tokens with
      | nil =>
          cases units with
          | nil later =>
              obtain rfl : first = token := Option.some.inj final
              exact ⟨depth, noted, after, notes.leads, read, later⟩
      | cons second tokens =>
          obtain ⟨_, before, behind, leads, lastRead, later⟩ := ih (by simpa using final)
          exact ⟨_, before, behind, notes.leads.trans ((unit_leads read).trans leads), lastRead, later⟩

theorem before_last (units : Units reader tokens last) {token : Token}
    (final : tokens.getLast? = some token) : token.Before last := by
  obtain ⟨depth, noted, after, -, read, later⟩ := units.last_read final
  exact (Token.before read).noted later

/-- A unit of a chain is read behind those before it. -/
theorem read_mem (units : Units reader (tokens ++ token :: others) last) :
    ∃ depth noted after, Units reader tokens noted ∧ unit depth noted = .ok (token, after) ∧
      Units after others last := by
  induction tokens generalizing reader with
  | nil =>
      cases units with
      | cons notes read more => exact ⟨_, _, _, .nil notes, read, more⟩
  | cons first tokens ih =>
      cases units with
      | cons notes read more =>
          obtain ⟨depth, noted, after, front, readToken, behind⟩ := ih more
          exact ⟨depth, noted, after, .cons notes read front, readToken, behind⟩

theorem position_le (units : Units reader tokens last) :
    ∀ unit ∈ tokens, reader.position ≤ unit.span.start := by
  intro token member
  obtain ⟨front, back, rfl⟩ := List.append_of_mem member
  obtain ⟨depth, noted, after, chain, read, -⟩ := units.read_mem
  obtain ⟨body, lies⟩ := unit_at read
  have before := chain.leads.position_le
  have start := lies.start
  omega

/-- Each unit of a chain ends before the next one starts. -/
theorem ordered (units : Units reader tokens last) :
    tokens.Pairwise fun unit later => unit.span.stop ≤ later.span.start := by
  induction units with
  | nil => exact .nil
  | cons notes read more ih =>
      refine .cons (fun later member => ?_) ih
      rw [(Token.before read).stop]
      exact more.position_le later member

/-- A unit that is not the end of the module takes a character. -/
theorem countP_le (units : Units reader tokens last) :
    (tokens.map (·.kind)).countP (· != .eof) ≤ reader.rest.length := by
  induction units with
  | nil => exact Nat.zero_le _
  | @cons depth reader noted after last token tokens notes read units ih =>
      obtain ⟨body, lies⟩ := unit_at read
      have passed := congrArg List.length (notes.rest.symm.trans lies.passes.rest)
      simp only [List.length_append] at passed
      rw [List.map_cons, List.countP_cons]
      split
      · rename_i noEnd
        have goesOn : body ≠ [] := fun empty => by simp [lies.empty.mpr empty] at noEnd
        have some := List.length_pos_iff.mpr goesOn
        omega
      · omega

theorem operand (units : Units reader tokens last) (nonempty : tokens ≠ [])
    (semicolon : last.previous = .punctuator .semicolon) : last.operand = true := by
  have final := List.getLast?_eq_some_getLast nonempty
  obtain ⟨depth, noted, after, -, read, later⟩ := units.last_read final
  obtain ⟨body, lies⟩ := unit_at read
  rw [later.previous] at semicolon
  have kind := lies.previous.symm.trans semicolon
  rw [later.eq_of_semicolon semicolon, lies.operand, eq_of_trace kind rfl]
  rfl

end Units

end Relink
