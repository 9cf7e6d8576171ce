import Relink.Proofs.Scan.Border
import Relink.Scan.Simple

/-!
# Borders of simple statements

Simple statements and declarations end before a border. So do the optional semicolons of statements
that end otherwise.
-/

set_option autoImplicit false

namespace Relink

open Scan

/-! ## Going on with the pending unit -/

namespace Scan

variable {α : Type} (unit : Scan Token)

theorem resume_pending (stop : Nat) (token : Token) :
    resume unit (pure ⟨stop, some token⟩) = pure (stop, token) := by
  simp only [resume, pendingOr, pure_bind]

theorem resume_next (stop : Nat) :
    resume unit (pure ⟨stop, none⟩) = unit >>= fun next => pure (stop, next) := by
  simp only [resume, pendingOr, pure_bind]

theorem resume_bind (action : Scan α) (next : α → Scan Ending) :
    resume unit (action >>= next) = action >>= fun value => resume unit (next value) := by
  simp only [resume, bind_assoc]

theorem resume_ite (condition : Prop) [Decidable condition] (yes no : Scan Ending) :
    resume unit (if condition then yes else no) =
      if condition then resume unit yes else resume unit no := by
  split <;> rfl

theorem resume_fail (fault : SyntaxFault) : resume unit (fail fault) = fail fault := rfl

end Scan

variable {depth otherDepth : Nat}

/-! ## Simple statements -/

theorem endsBefore_resembles {last : Kind} {token other : Token} (resembles : token.Resembles other)
    (ends : endsBefore last token = true) : endsBefore last other = true := by
  simp only [endsBefore, Bool.and_eq_true] at ends ⊢
  rw [resembles.kind]
  exact ⟨⟨resembles.onNewLine ends.1.1, ends.1.2⟩, ends.2⟩

theorem endsBefore_shift (last : Kind) (token : Token) (distance : Nat) :
    endsBefore last (token.shift distance) = endsBefore last token := rfl

theorem onNewLine_of_endsBefore {last : Kind} {token : Token}
    (ends : endsBefore last token = true) : token.onNewLine = true := by
  simp only [endsBefore, Bool.and_eq_true] at ends
  exact ends.1.1

/-- What is noted about a brace. -/
def bracedOperand (last : Kind) (token : Token) (operand : Bool) : Bool :=
  if token.isPunctuator .braceOpen then last == .punctuator .equalsChevronRight else operand

theorem noteBrace_run (last : Kind) (token : Token) (reader : Reader) :
    noteBrace last token reader =
      .ok ((), { reader with operand := bracedOperand last token reader.operand }) := by
  unfold noteBrace bracedOperand
  split <;> rfl

/-- What one more unit means to a simple statement that is scanned to its end: it is the semicolon, it stands
behind the statement, or it belongs to it. -/
inductive SimpleRound (unit : Scan Token) (fuel stop : Nat) (kind : Kind) (reader : Reader) (ending : Ending)
    (last : Reader) : Prop where
  | semicolon {token : Token} : unit reader = .ok (token, last) → token.kind = .punctuator .semicolon →
      ending = ⟨token.span.stop, none⟩ → SimpleRound unit fuel stop kind reader ending last
  | behind {token : Token} {after : Reader} : unit reader = .ok (token, after) →
      token.kind = .eof ∨ endsBefore kind token = true → ending = ⟨stop, some token⟩ →
      SimpleRound unit fuel stop kind reader ending last
  | goesOn {token : Token} {after : Reader} : unit reader = .ok (token, after) →
      token.kind ≠ .punctuator .semicolon → token.kind ≠ .eof → token.kind.closes? = none →
      simple unit fuel token.span.stop token.kind none
        { after with operand := bracedOperand kind token after.operand } = .ok (ending, last) →
      SimpleRound unit fuel stop kind reader ending last

theorem simple_round {unit : Scan Token} {fuel stop : Nat} {kind : Kind} {reader last : Reader} {ending : Ending}
    (run : simple unit (fuel + 1) stop kind none reader = .ok (ending, last)) :
    SimpleRound unit fuel stop kind reader ending last := by
  simp only [simple, pendingOr] at run
  obtain ⟨token, after, read, run⟩ := bind_eq_ok run
  by_cases semicolon : token.isPunctuator .semicolon = true
  · rw [if_pos semicolon] at run
    cases run
    exact .semicolon read ((token.isPunctuator_iff .semicolon).mp semicolon) rfl
  rw [if_neg semicolon] at run
  by_cases ended : token.kind = .eof
  · rw [if_pos ended] at run
    cases run
    exact .behind read (.inl ended) rfl
  rw [if_neg ended] at run
  by_cases closes : token.kind.closes?.isSome = true
  · rw [if_pos closes] at run
    cases run
  rw [if_neg closes] at run
  obtain ⟨⟨⟩, noted, notes, run⟩ := bind_eq_ok run
  rw [noteBrace_run] at notes
  cases notes
  by_cases before : endsBefore kind token = true
  · rw [if_pos before] at run
    cases run
    exact .behind read (.inr before) rfl
  · rw [if_neg before] at run
    exact .goesOn read (fun isKind => semicolon ((token.isPunctuator_iff .semicolon).mpr isKind)) ended
      (Option.not_isSome_iff_eq_none.mp closes) run

theorem Seam.Follows.noteBrace {seam : Seam} (last : Kind) (token : Token) :
    seam.Follows (noteBrace last token) (noteBrace last (token.shift seam.shift)) id :=
  .ite (fun _ => .expectOperand _) fun _ => .pure rfl

/-- The scan of a simple statement ends before a border, on both sides within bounds on its steps. -/
def SimpleCloses (depth otherDepth fuel otherFuel : Nat) : Prop :=
  ∀ (reader : Reader) (stop : Nat) (last : Kind), stop = reader.position →
    Closes depth otherDepth False reader (resume (unit depth) (simple (unit depth) fuel stop last none))
      fun distance => resume (unit otherDepth)
        (simple (unit otherDepth) otherFuel (stop + distance) last none)

theorem simple_step (deeper : depth ≤ otherDepth) {fuel otherFuel : Nat}
    (later : SimpleCloses depth otherDepth fuel otherFuel) {reader middle : Reader} {token : Token}
    {stop : Nat} (read : unit depth reader = .ok (token, middle)) (stopsHere : stop = reader.position)
    (last : Kind) :
    ClosesFrom depth otherDepth False reader token middle
      (resume (unit depth) (simple (unit depth) (fuel + 1) stop last (some token)))
      fun distance other => resume (unit otherDepth)
        (simple (unit otherDepth) (otherFuel + 1) (stop + distance) last (some other)) := by
  simp only [simple, pendingOr, pure_bind, resume_ite, resume_bind, resume_next, resume_pending,
    resume_fail]
  -- One case for each branch of the loop. The scan ends behind the unit, before it, or not yet.
  by_cases semicolon : token.isPunctuator .semicolon = true
  · apply ClosesFrom.beyond deeper read
    intro body lies
    have isSemicolon := (token.isPunctuator_iff .semicolon).mp semicolon
    simp only [Token.isPunctuator_shift, semicolon, if_true]
    exact .next lies.stop (lies.closed (.inl isSemicolon))
  by_cases ended : token.kind = .eof
  · refine .here middle.operand read stopsHere (.inr (.inl ended)) ?_ ?_
    · simp only [semicolon, ended, if_true]
      rfl
    · intro distance other otherMiddle resembles same
      simp only [resembles.isPunctuator, resembles.kind, semicolon, ended, if_true]
      rw [← same]
      rfl
  by_cases closing : token.kind.closes?.isSome = true
  · refine .of_failing (fun result run => ?_) _
    simp only [semicolon, ended, closing, if_true, if_false] at run
    cases run
  by_cases ends : endsBefore last token = true
  · refine .here (bracedOperand last token middle.operand) read stopsHere
      (.inl (onNewLine_of_endsBefore ends)) ?_ ?_
    · simp only [semicolon, ended, closing, ends, if_true, if_false]
      exact bind_of_ok (noteBrace_run last token middle) _
    · intro distance other otherMiddle resembles same
      have noted := noteBrace_run last other otherMiddle
      have sameBrace : bracedOperand last other otherMiddle.operand =
          bracedOperand last token middle.operand := by
        simp only [bracedOperand, resembles.isPunctuator, same]
      rw [sameBrace] at noted
      simp only [resembles.isPunctuator, resembles.kind, semicolon, ended, closing,
        endsBefore_resembles resembles ends, if_true, if_false]
      exact bind_of_ok noted _
  · apply ClosesFrom.beyond deeper read
    intro body lies
    simp only [Token.isPunctuator_shift, Token.kind_shift, endsBefore_shift, semicolon, ended,
      closing, ends, Bool.false_eq_true, if_false]
    apply Closes.seq (fun _ => id) (fun seam => .noteBrace last token)
    intro value _ passed run _
    rw [noteBrace_run] at run
    cases run
    let noted := { middle with operand := bracedOperand last token middle.operand }
    exact (later noted token.span.stop token.kind lies.stop).mono False.elim

theorem simple_closes (deeper : depth ≤ otherDepth) {fuel otherFuel : Nat}
    (enough : fuel ≤ otherFuel) : SimpleCloses depth otherDepth fuel otherFuel := by
  induction fuel generalizing otherFuel with
  | zero => exact fun reader stop last here => .of_failing (fun result run => by cases run) _
  | succ fuel ih =>
      obtain ⟨otherFuel, rfl⟩ := Nat.exists_eq_add_one_of_ne_zero (by omega : otherFuel ≠ 0)
      intro reader stop last here
      have later := ih (by omega : fuel ≤ otherFuel)
      have peeked (count : Nat) (inner : Scan Token) (from_ : Nat) :
          resume inner (simple inner (count + 1) from_ last none) =
            inner >>= fun token => resume inner (simple inner (count + 1) from_ last (some token)) := by
        simp only [simple, pendingOr, pure_bind, resume_bind]
      rw [peeked]
      simp only [peeked]
      exact .of_from fun token middle read => simple_step deeper later read here last

theorem simple_closesFrom (deeper : depth ≤ otherDepth) {fuel otherFuel : Nat}
    (enough : fuel ≤ otherFuel) {reader middle : Reader} {token : Token} {stop : Nat}
    (read : unit depth reader = .ok (token, middle)) (stopsHere : stop = reader.position)
    (last : Kind) :
    ClosesFrom depth otherDepth False reader token middle
      (resume (unit depth) (simple (unit depth) fuel stop last (some token)))
      fun distance other => resume (unit otherDepth)
        (simple (unit otherDepth) otherFuel (stop + distance) last (some other)) := by
  cases fuel with
  | zero => exact .of_failing (fun result run => by cases run) _
  | succ fuel =>
      obtain ⟨otherFuel, rfl⟩ := Nat.exists_eq_add_one_of_ne_zero (by omega : otherFuel ≠ 0)
      have later : SimpleCloses depth otherDepth fuel otherFuel :=
        simple_closes deeper (by omega : fuel ≤ otherFuel)
      exact simple_step deeper later read stopsHere last

theorem simpleAfter_closes (deeper : depth ≤ otherDepth) {fuel otherFuel : Nat}
    (enough : fuel ≤ otherFuel) {reader : Reader} {token : Token}
    (stop : token.span.stop = reader.position) :
    Closes depth otherDepth False reader (resume (unit depth) (simpleAfter (unit depth) fuel token))
      fun distance => resume (unit otherDepth)
        (simpleAfter (unit otherDepth) otherFuel (token.shift distance)) :=
  simple_closes deeper enough reader token.span.stop token.kind stop

/-! ## Declarations -/

theorem declaration_closes (deeper : depth ≤ otherDepth) {fuel otherFuel : Nat}
    (enough : fuel ≤ otherFuel) (reader : Reader) :
    Closes depth otherDepth False reader (resume (unit depth) (declaration (unit depth) fuel))
      fun _ => resume (unit otherDepth) (declaration (unit otherDepth) otherFuel) := by
  induction fuel generalizing otherFuel reader with
  | zero => exact .of_failing (fun result run => by cases run) _
  | succ fuel ih =>
      obtain ⟨otherFuel, rfl⟩ := Nat.exists_eq_add_one_of_ne_zero (by omega : otherFuel ≠ 0)
      simp only [declaration, resume_bind, resume_ite, resume_next, resume_fail]
      apply Closes.of_from
      intro token middle read
      -- A declaration ends with its braces. A semicolon and a closing bracket are none of it.
      by_cases brace : token.isPunctuator .braceOpen = true
      · apply ClosesFrom.beyond deeper read
        intro body lies
        have isBrace := (token.isPunctuator_iff .braceOpen).mp brace
        have closed := lies.closed (.inr (.inr (by rw [isBrace]; rfl)))
        simp only [Token.isPunctuator_shift, brace, if_true]
        apply Closes.seq (fun _ => id) (fun seam => .expectOperand true)
        intro value _ passed run passes
        cases run
        have nothing : passed = [] := List.self_eq_append_left.mp passes.rest
        exact .next lies.stop (.inr ⟨nothing, closed⟩)
      by_cases wrong : token.kind = .eof ∨ token.kind.closes?.isSome = true ∨
          token.isPunctuator .semicolon = true
      · refine .of_failing (fun result run => ?_) _
        simp only [brace, wrong, if_true, Bool.false_eq_true, if_false] at run
        cases run
      · apply ClosesFrom.beyond deeper read
        intro body lies
        simp only [Token.isPunctuator_shift, Token.kind_shift, brace, wrong, Bool.false_eq_true,
          if_false]
        exact (ih (by omega) middle).mono False.elim

/-! ## Optional semicolons -/

theorem terminator_closesFrom (deeper : depth ≤ otherDepth) {marked : Prop}
    {reader middle : Reader} {next : Token} {stop : Nat} (read : unit depth reader = .ok (next, middle))
    (stopsHere : stop = reader.position) :
    ClosesFrom depth otherDepth marked reader next middle
      (resume (unit depth) (terminator stop next))
      fun distance other => resume (unit otherDepth) (terminator (stop + distance) other) := by
  simp only [terminator, resume_ite, resume_next, resume_pending, resume_fail]
  by_cases semicolon : next.isPunctuator .semicolon = true
  · apply ClosesFrom.beyond deeper read
    intro body lies
    have isSemicolon := (next.isPunctuator_iff .semicolon).mp semicolon
    simp only [Token.isPunctuator_shift, semicolon, if_true]
    exact .next lies.stop (lies.closed (.inl isSemicolon))
  by_cases ends : next.kind = .eof ∨ next.onNewLine = true
  · refine .here middle.operand read stopsHere (ends.symm.imp_right .inl) ?_ ?_
    · simp only [semicolon, ends, if_true, Bool.false_eq_true, if_false]
      rfl
    · intro distance other otherMiddle resembles same
      have otherEnds : other.kind = .eof ∨ other.onNewLine = true :=
        ends.imp resembles.kind.trans resembles.onNewLine
      simp only [resembles.isPunctuator, semicolon, otherEnds, if_true, Bool.false_eq_true, if_false]
      rw [← same]
      rfl
  · refine .of_failing (fun result run => ?_) _
    simp only [semicolon, ends, if_false, Bool.false_eq_true] at run
    cases run

end Relink
