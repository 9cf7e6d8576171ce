import Relink.Proofs.Scan.Break
import Relink.Proofs.Scan.Compound
import Relink.Proofs.Scan.Notes
import Relink.Proofs.Scan.Units
import Relink.Proofs.Token.Trivia

/-!
# Written semicolons

Where a line break ends a statement a semicolon may be written. The scan then ends behind it, and the unit
on the new line is read behind a semicolon in place of the last unit of the statement. That comes to the
same: no unit that carries on an expression begins there but behind a word that allows no line break, and
behind such a word an operand is due as it is behind a semicolon.
-/

set_option autoImplicit false

namespace Relink

open Scan

theorem Scan.ahead_of_ok {α : Type} {action : Scan α} {reader after : Reader} {value : α}
    (run : action reader = .ok (value, after)) : ahead action reader = .ok (value, reader) := by
  rw [ahead, run]
  rfl

/-! ## Gaps -/

theorem Trivia.IsTrivia.head_beginsGap {ended : Bool} {gap : Text} (trivia : IsTrivia ended gap)
    (nonempty : gap ≠ []) : ∃ c, gap.head? = some c ∧ Text.beginsGap c = true := by
  cases trivia with
  | nil => exact absurd rfl nonempty
  | space space => exact ⟨_, rfl, by simp [Text.beginsGap, space]⟩
  | line => exact ⟨'/', rfl, by decide⟩
  | block => exact ⟨'/', rfl, by decide⟩
  | last => exact ⟨'/', rfl, by decide⟩

/-- A semicolon may be written where a unit on a new line is read. -/
theorem alike_of_newLine {depth : Nat} {reader after : Reader} {token : Token}
    (read : unit depth reader = .ok (token, after)) (newLine : token.onNewLine = true) (rest : Text) :
    reader.rest ≠ [] ∧ Text.Alike reader.rest (';' :: rest) := by
  obtain ⟨body, lies⟩ := unit_at read
  have gap := Trivia.skip_chars_ne_nil (lies.onNewLine.symm.trans newLine)
  obtain ⟨c, first, begins⟩ := (Trivia.skip_isTrivia reader.rest).head_beginsGap gap
  have head : reader.rest.head? = some c := by
    rw [← Trivia.skip_append reader.rest, List.head?_append, first]
    rfl
  refine ⟨fun empty => ?_, Text.alike_of_beginsGap head begins rest⟩
  rw [empty] at head
  cases head

/-! ## Units behind a semicolon -/

/-- The reader behind a semicolon that is written where `border` stands. -/
def Reader.severed (border : Reader) : Reader :=
  ⟨border.rest, border.position + 1, true, .punctuator .semicolon⟩

/-- A semicolon that is written without a gap is read whatever stands behind it. -/
theorem unit_written (depth : Nat) (border : Reader) :
    ∃ token, unit (depth + 1) { border with rest := ';' :: border.rest } = .ok (token, border.severed) ∧
      token.kind = .punctuator .semicolon ∧ token.span.stop = border.position + 1 := by
  let reader : Reader := { border with rest := ';' :: border.rest }
  let found : Token.Lexed := ⟨[], false, ⟨.punctuator .semicolon, [], [';'], [], border.rest⟩⟩
  have lexed : Token.lex reader.mode reader.rest = .ok found := by
    have solid : Trivia.Solid (';' :: border.rest) :=
      Trivia.solid_cons (by decide) fun slash => absurd slash (by decide)
    rw [Token.lex, show Trivia.skip _ = _ from solid]
    cases reader.mode <;> rfl
  exact ⟨_, unit_alone depth lexed rfl, rfl, rfl⟩

theorem endsStatement_trace {kind : Kind} (ends : kind.endsStatement = true) :
    (trace kind).accessesMember = false ∧ (trace kind).takesHeader = false := by
  cases kind with
  | punctuator p => cases p <;> first | exact ⟨rfl, rfl⟩ | cases ends
  | keyword word => cases word <;> first | exact ⟨rfl, rfl⟩ | cases ends
  | eof => cases ends
  | _ => exact ⟨rfl, rfl⟩

theorem continuesExpression_of_beginsOperand {kind : Kind} (begins : beginsOperand kind = true) :
    kind.continuesExpression = true := by
  unfold beginsOperand at begins
  split at begins
  · rfl
  · rfl
  · rfl
  · cases begins

/-- Whether an operand is due depends on the unit before in headers and blocks alone. -/
theorem operandAfter_other {before other kind : Kind}
    (header : before.takesHeader = other.takesHeader) (noBrace : kind ≠ .punctuator .braceOpen) :
    operandAfter before kind = operandAfter other kind := by
  unfold operandAfter
  split
  · exact header
  · exact absurd rfl noBrace
  all_goals rfl

variable {depth otherDepth : Nat} {α β : Type}

/-- A line break ends what began at `reader`: it ends at `border`, behind `last` and before `next`. -/
structure BreaksAt (depth : Nat) (reader border : Reader) (last next : Token) (past after : Reader) :
    Prop where
  leads : reader.Leads border
  stands : last.Before border
  read : unit depth border = .ok (next, past)
  noEnd : next.kind ≠ .eof
  ends : endsBefore last.kind next = true
  after : after = { past with operand := bracedOperand last.kind next past.operand }

namespace BreaksAt

variable {reader border past after : Reader} {last next : Token}

theorem behind {start : Reader} (breaks : BreaksAt depth reader border last next past after)
    (leads : start.Leads reader) : BreaksAt depth start border last next past after :=
  { breaks with leads := leads.trans breaks.leads }

theorem alike (breaks : BreaksAt depth reader border last next past after) (rest : Text) :
    border.rest ≠ [] ∧ Text.Alike border.rest (';' :: rest) :=
  alike_of_newLine breaks.read (onNewLine_of_endsBefore breaks.ends) rest

/-- What is due behind the last unit is due behind a semicolon, or the next unit is none of it. -/
theorem operand (breaks : BreaksAt depth reader border last next past after) :
    border.operand = true ∨ beginsOperand next.kind = false := by
  have ends := breaks.ends
  simp only [endsBefore, Bool.and_eq_true, Bool.or_eq_true, Bool.not_eq_true'] at ends
  rcases ends.2 with restricted | noContinuation
  · exact .inl (breaks.stands.operand restricted)
  · refine .inr (Bool.eq_false_iff.mpr fun begins => ?_)
    rw [continuesExpression_of_beginsOperand begins] at noContinuation
    cases noContinuation

/-- Behind a written semicolon the next unit is read as it is on the new line. -/
theorem unit_severed (deeper : depth ≤ otherDepth)
    (breaks : BreaksAt depth reader border last next past after) :
    ∃ operand otherAfter, unit otherDepth border.severed = .ok (next.shift 1, otherAfter) ∧
      (Seam.later 1).Twins { after with operand := operand } otherAfter ∧
        (next.kind ≠ .punctuator .braceOpen → operand = after.operand) := by
  have ends := breaks.ends
  simp only [endsBefore, Bool.and_eq_true] at ends
  obtain ⟨noMember, noHeader⟩ := endsStatement_trace ends.1.2
  rw [← breaks.stands.previous] at noMember noHeader
  -- Behind the semicolon an operand is due. The next unit is read the same, as it began on a new line.
  let other : Reader := { border with operand := true, previous := .punctuator .semicolon }
  have due : other.operand = border.operand ∨
      border.operand = false ∧ beginsOperand next.kind = false := by
    cases isDue : border.operand with
    | true => exact .inl rfl
    | false =>
        refine .inr ⟨rfl, breaks.operand.resolve_left fun due => ?_⟩
        rw [isDue] at due
        cases due
  have abreast : border.Abreast other := ⟨rfl, rfl⟩
  have readOther := unit_elsewhere breaks.read abreast noMember.symm due
  have units : (Seam.later 1).Follows (unit depth) (unit otherDepth) (·.shift 1) := .unit deeper
  obtain ⟨otherAfter, readLater, twins⟩ :=
    (units other next _ readOther).2 border.severed (Seam.later_twins other 1) List.nil_suffix
  refine ⟨operandAfter other.previous next.kind, otherAfter, readLater, ?_, fun noBrace => ?_⟩
  · rw [breaks.after]
    exact twins
  · obtain ⟨body, lies⟩ := unit_at breaks.read
    have noNote : next.isPunctuator .braceOpen = false :=
      Bool.eq_false_iff.mpr fun brace => noBrace ((next.isPunctuator_iff .braceOpen).mp brace)
    rw [breaks.after]
    simp only [bracedOperand, noNote, Bool.false_eq_true, if_false]
    rw [lies.operand]
    exact operandAfter_other noHeader.symm noBrace

end BreaksAt

/-! ## Scans that a line break ends -/

/-- A seam at a border where the second text has a semicolon more. -/
structure Seam.Severs (seam : Seam) (border : Reader) : Prop where
  left : seam.left = border.rest
  right : seam.right = ';' :: border.rest
  shift : seam.shift = 0

/-- With a semicolon written at the border a scan ends behind it, before the same unit. `make` gives what
is scanned from its end. -/
def EndsWritten (otherDepth : Nat) (make : Nat → α) (reader border : Reader) (next : Token)
    (other : Scan (α × Token)) : Prop :=
  ∀ (seam : Seam) twin otherAfter, seam.Severs border → seam.Twins reader twin →
    unit otherDepth border.severed = .ok (next.shift 1, otherAfter) →
      other twin = .ok ((make (border.position + 1), next.shift 1), otherAfter)

/-- The question `breaks` has an answer for what `action` scans. If a line break ends it, `other` ends
behind a semicolon that is written there. -/
def Marks (depth otherDepth : Nat) (make : Nat → α) (reader : Reader) (action : Scan (α × Token))
    (breaks : Scan Bool) (other : Scan (α × Token)) : Prop :=
  ∀ value next after, action reader = .ok ((value, next), after) →
    ∃ broken noted, breaks reader = .ok (broken, noted) ∧
      (broken = true → ∃ border last past, BreaksAt depth reader border last next past after ∧
        value = make border.position ∧ EndsWritten otherDepth make reader border next other)

variable {make : Nat → α}

/-! ## Rules -/

namespace Marks

variable {reader : Reader}

theorem of_failing {action : Scan (α × Token)} (fails : ∀ result, action reader ≠ .ok result)
    (breaks : Scan Bool) (other : Scan (α × Token)) :
    Marks depth otherDepth make reader action breaks other :=
  fun value next after run => absurd run (fails ((value, next), after))

/-- No line break ends what ends otherwise. -/
theorem quiet (action other : Scan (α × Token)) :
    Marks depth otherDepth make reader action (pure false) other :=
  fun _ _ _ _ => ⟨false, reader, rfl, fun broken => by cases broken⟩

theorem ite {condition : Prop} [Decidable condition] {yes no otherYes otherNo : Scan (α × Token)}
    {breaksYes breaksNo : Scan Bool}
    (holds : condition → Marks depth otherDepth make reader yes breaksYes otherYes)
    (fails : ¬ condition → Marks depth otherDepth make reader no breaksNo otherNo) :
    Marks depth otherDepth make reader (if condition then yes else no)
      (if condition then breaksYes else breaksNo) (if condition then otherYes else otherNo) := by
  by_cases decided : condition
  · simp only [if_pos decided]
    exact holds decided
  · simp only [if_neg decided]
    exact fails decided

theorem seq {action : Scan β} {next otherNext : β → Scan (α × Token)} {breaks : β → Scan Bool}
    (otherAction : Nat → Scan β) (move : Nat → β → β) (still : move 0 = id)
    (first : ∀ seam : Seam, seam.Follows action (otherAction seam.shift) (move seam.shift))
    (second : ∀ value middle, action reader = .ok (value, middle) →
      Marks depth otherDepth make middle (next value) (breaks value) (otherNext value)) :
    Marks depth otherDepth make reader (action >>= next) (action >>= breaks)
      (otherAction 0 >>= otherNext) := by
  intro result token after run
  obtain ⟨value, middle, firstRun, secondRun⟩ := bind_eq_ok run
  obtain ⟨broken, noted, asked, breaks⟩ := second value middle firstRun result token after secondRun
  refine ⟨broken, noted, (bind_of_ok firstRun _).trans asked, fun isBroken => ?_⟩
  obtain ⟨border, last, past, is, made, written⟩ := breaks isBroken
  refine ⟨border, last, past, is.behind ((first Seam.atEnd).leads firstRun), made, ?_⟩
  intro seam twin otherAfter severs twins read
  have beyond : seam.left <:+ middle.rest := by
    rw [severs.left]
    exact is.leads.suffix
  obtain ⟨twinMiddle, otherFirst, twinsMiddle⟩ :=
    (first seam reader value middle firstRun).2 twin twins beyond
  rw [severs.shift, still] at otherFirst
  exact (bind_of_ok otherFirst _).trans (written seam twinMiddle otherAfter severs twinsMiddle read)

theorem unit (deeper : depth ≤ otherDepth) {next otherNext : Token → Scan (α × Token)}
    {breaks : Token → Scan Bool}
    (rest : ∀ token middle, Scan.unit depth reader = .ok (token, middle) →
      Marks depth otherDepth make middle (next token) (breaks token) (otherNext token)) :
    Marks depth otherDepth make reader (Scan.unit depth >>= next) (Scan.unit depth >>= breaks)
      (Scan.unit otherDepth >>= otherNext) :=
  .seq (fun _ => Scan.unit otherDepth) (fun distance token => token.shift distance) rfl
    (fun _ => .unit deeper) rest

theorem require {kind : Kind} {token : Token} {next otherNext : Scan (α × Token)} {breaks : Scan Bool}
    (rest : Marks depth otherDepth make reader next breaks otherNext) :
    Marks depth otherDepth make reader (Scan.require kind token >>= fun _ => next)
      (Scan.require kind token >>= fun _ => breaks) (Scan.require kind token >>= fun _ => otherNext) := by
  refine .seq (fun distance => Scan.require kind (token.shift distance)) (fun _ => id) rfl
    (fun seam => .require kind token seam.shift) fun _ middle run => ?_
  obtain ⟨-, rfl⟩ := require_eq_ok run
  exact rest

/-- What is scanned may be put into another form. -/
theorem map {action other : Scan (α × Token)} {breaks : Scan Bool}
    (marks : Marks depth otherDepth make reader action breaks other) (move : α → β) :
    Marks depth otherDepth (fun stop => move (make stop)) reader
      (action >>= fun parts => pure (move parts.1, parts.2)) breaks
      (other >>= fun parts => pure (move parts.1, parts.2)) := by
  intro result token after run
  obtain ⟨⟨value, next⟩, middle, first, run⟩ := bind_eq_ok run
  cases run
  obtain ⟨broken, noted, asked, breaks⟩ := marks value next after first
  refine ⟨broken, noted, asked, fun isBroken => ?_⟩
  obtain ⟨border, last, past, is, rfl, written⟩ := breaks isBroken
  refine ⟨border, last, past, is, rfl, fun seam twin otherAfter severs twins read => ?_⟩
  exact bind_of_ok (written seam twin otherAfter severs twins read) _

end Marks

/-! ## Rules behind a unit -/

/-- What is asked behind `token`, which was read at `reader`: a line break before the token ends the scan
and in its place a semicolon is read, or the scan goes on. -/
inductive MarksBehind (depth otherDepth : Nat) (make : Nat → α) (reader : Reader) (token : Token)
    (middle : Reader) (action : Scan (α × Token)) (breaks : Scan Bool)
    (other : Token → Scan (α × Token)) : Prop where
  | beyond : Marks depth otherDepth make middle action breaks (other token) →
      MarksBehind depth otherDepth make reader token middle action breaks other
  | here {last : Token} {noted : Reader} : last.Before reader → endsBefore last.kind token = true →
      token.kind ≠ .eof →
      noted = { middle with operand := bracedOperand last.kind token middle.operand } →
      breaks middle = .ok (true, noted) → action middle = .ok ((make reader.position, token), noted) →
      (∀ semicolon : Token, semicolon.kind = .punctuator .semicolon →
        semicolon.span.stop = reader.position + 1 → other semicolon =
          Scan.unit otherDepth >>= fun next => pure (make (reader.position + 1), next)) →
      MarksBehind depth otherDepth make reader token middle action breaks other

theorem MarksBehind.congr {reader middle : Reader} {token : Token} {action : Scan (α × Token)}
    {breaks : Scan Bool} {other same : Token → Scan (α × Token)}
    (marks : MarksBehind depth otherDepth make reader token middle action breaks other)
    (equal : ∀ read, read = token ∨ read.kind = .punctuator .semicolon → same read = other read) :
    MarksBehind depth otherDepth make reader token middle action breaks same := by
  cases marks with
  | beyond later => exact .beyond (equal token (.inl rfl) ▸ later)
  | here stands ends noEnd noted asked done written =>
      refine .here stands ends noEnd noted asked done fun semicolon isSemicolon stop => ?_
      exact (equal semicolon (.inr isSemicolon)).trans (written semicolon isSemicolon stop)

theorem Marks.of_behind (deeper : depth ≤ otherDepth) {reader : Reader}
    {next otherNext : Token → Scan (α × Token)} {breaks : Token → Scan Bool}
    (rest : ∀ token middle, Scan.unit depth reader = .ok (token, middle) →
      MarksBehind depth otherDepth make reader token middle (next token) (breaks token) otherNext) :
    Marks depth otherDepth make reader (Scan.unit depth >>= next) (Scan.unit depth >>= breaks)
      (Scan.unit otherDepth >>= otherNext) := by
  intro result found after run
  obtain ⟨token, middle, read, ends⟩ := bind_eq_ok run
  -- The statement ends behind this unit, or a line break ends it before the unit.
  cases rest token middle read with
  | beyond later =>
      have whole : Marks depth otherDepth make reader (Scan.unit depth >>= next)
          (Scan.unit depth >>= breaks) (Scan.unit otherDepth >>= otherNext) := by
        apply Marks.unit deeper
        intro other behind again
        rw [read] at again
        cases again
        exact later
      exact whole result found after run
  | here stands breaksBefore noEnd noted asked done written =>
      rw [done] at ends
      cases ends
      refine ⟨true, _, (bind_of_ok read _).trans asked, fun _ => ?_⟩
      refine ⟨reader, _, middle, ⟨.refl reader, stands, read, noEnd, breaksBefore, noted⟩, rfl, ?_⟩
      intro seam twin otherAfter severs twins readSevered
      obtain ⟨less, rfl⟩ := exists_succ_of_unit deeper read
      obtain ⟨semicolon, readSemicolon, isSemicolon, stop⟩ := unit_written less reader
      have isTwin : twin = { reader with rest := ';' :: reader.rest } := by
        rw [twins.eq_across severs.left, Seam.across, severs.right, severs.shift]
        rfl
      rw [isTwin, bind_of_ok readSemicolon, written semicolon isSemicolon stop]
      exact bind_of_ok readSevered _

end Relink
