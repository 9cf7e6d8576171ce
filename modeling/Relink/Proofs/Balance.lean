import Relink.Proofs.Scan.Marks
import Relink.Proofs.Scan.Reached
import Relink.Proofs.Scan.Unclosed

/-!
# Balance

In a module that is split brackets and tags are nested, unless a closing bracket stands where the value of an
`export default` is due. A bracket of the wrong kind and the end of the module are reported where they are
met, with the bracket that the innermost group needs there.
-/

set_option autoImplicit false

namespace Relink

open Scan

/-! ## The marks of a module -/

/-- Units that are read one behind the other, from a reader to another, and the marks that they pass over. -/
inductive Marked : Reader → List Token → List Mark → Reader → Prop where
  | nil {reader noted : Reader} : reader.Notes noted → Marked reader [] [] noted
  | cons {depth : Nat} {reader noted after last : Reader} {token : Token} {tokens : List Token}
      {marks : List Mark} : reader.Notes noted → unit depth noted = .ok (token, after) →
        Marked after tokens marks last →
          Marked reader (token :: tokens) (unitMarks depth noted ++ marks) last

theorem Units.marked {reader last : Reader} {tokens : List Token} (units : Units reader tokens last) :
    ∃ marks, Marked reader tokens marks last := by
  induction units with
  | nil notes => exact ⟨[], .nil notes⟩
  | cons notes read _ ih =>
      obtain ⟨marks, marked⟩ := ih
      exact ⟨_, .cons notes read marked⟩

theorem Marked.nested {reader last : Reader} {tokens : List Token} {marks : List Mark}
    (marked : Marked reader tokens marks last) (noClose : ∀ unit ∈ tokens, unit.kind.closes? = none) :
    Nested marks := by
  induction marked with
  | nil => exact .nil
  | @cons depth _ _ _ _ token tokens marks notes read _ ih =>
      have own := unitMarks_of_read read
      simp only [Kind.HasMarks, noClose token (List.mem_cons_self ..)] at own
      exact own.append (ih fun unit member => noClose unit (List.mem_cons_of_mem _ member))

/-- A closing bracket stands where the value of an `export default` is due. -/
def ClosesValue (units : List Token) : Prop :=
  ∃ bracket : Bracket,
    [.keyword .exportWord, .keyword .defaultWord, .punctuator bracket.close] <:+: units.map (·.kind)

theorem OpenBehind.noClose {units : List Token} (opened : OpenBehind [] units)
    (valued : ¬ ClosesValue units) : ∀ unit ∈ units, unit.kind.closes? = none := by
  intro unit member
  obtain ⟨front, back, rfl⟩ := List.append_of_mem member
  cases closes : unit.kind.closes? with
  | none => rfl
  | some bracket =>
      obtain ⟨others, awaits⟩ := opened front unit back rfl (by rw [closes]; rfl)
      refine absurd ⟨bracket, others, back.map (·.kind), ?_⟩ valued
      have isClose := Kind.eq_of_closes? closes
      simp only [List.map_append, List.map_cons, List.nil_append] at awaits ⊢
      rw [← awaits, isClose]
      simp only [List.append_assoc, List.cons_append, List.nil_append]

/-- How the brackets and tags of a module are nested: the units that are read one behind the other, from the
start of the module to its end, are those of the first statement, those of the second one and so on, and the
marks that they pass over are nested, unless a closing bracket is the value of an `export default`. -/
structure Balanced (code : Text) (found : List Statement) (groups : List (List Token)) : Prop where
  spans : List.Forall₂ Spans found groups
  nested : ∃ marks last, Marked (Reader.start code) groups.flatten marks last ∧
    Trivia.IsTrivia true last.rest ∧ (¬ ClosesValue groups.flatten → Nested marks)

theorem balanced_of_split {text : Text} {found : List Statement}
    (split : Statement.split text = .ok found) :
    ∃ groups, Balanced (Preamble.mask text) found groups := by
  obtain ⟨first, past, last, read, run⟩ := split_runs split
  obtain ⟨groups, final, chain, ended, grouped, -⟩ :=
    groups_of_run (fun statement units _ => OpenBehind [] units ∧ Spans statement units)
      (fun _ => statement_unclosed) (.refl (Reader.behindPreamble text)) read (.refl past) run
  obtain ⟨finalCode, units, endedCode⟩ := chain.ofCode ended
  obtain ⟨marks, marked⟩ := units.marked
  obtain ⟨opened, spans⟩ := (List.forall₂_and_left _ _).mp
    (List.Forall₂.flip (R := fun units statement => OpenBehind [] units ∧ Spans statement units)
      grouped.forall₂)
  exact ⟨groups, spans.flip, marks, finalCode, marked, Trivia.isTrivia_of_skip endedCode,
    fun valued => marked.nested ((OpenBehind.flatten opened).noClose valued)⟩

/-! ## Faults within groups -/

/-- A closing bracket and the end of the module are read with whatever bound on the depth. -/
theorem unit_at_once {depth : Nat} {reader after : Reader} {token : Token}
    (read : unit depth reader = .ok (token, after))
    (ends : token.kind = .eof ∨ token.kind.closes?.isSome = true) (otherDepth : Nat) :
    unit (otherDepth + 1) reader = .ok (token, after) := by
  obtain ⟨inner, first, middle, whole, behind, last, tokenRun, operandRun, groupRun, -⟩ := unit_run read
  have kind : token.kind = plainKind reader.previous whole.kind := foldGroup_kind groupRun
  have same : whole.kind = token.kind := by
    rcases plainKind_cases reader.previous whole.kind with plain | ⟨-, isName⟩
    · rw [kind, plain]
    · rw [kind, isName] at ends
      rcases ends with ended | closes
      · cases ended
      · cases closes
  have alone : token.kind.isAlone = true ∧ token.kind ≠ .literal .template ∧ token.kind ≠ .jsx := by
    rcases ends with ended | closes
    · rw [ended]
      decide
    · obtain ⟨bracket, isClosing⟩ := Option.isSome_iff_exists.mp closes
      rw [Kind.eq_of_closes? isClosing]
      cases bracket <;> decide
  obtain ⟨rfl, -⟩ := foldOperand_same operandRun (same ▸ alone.2.1) (same ▸ alone.2.2)
  obtain ⟨found, lexed, isFound, -⟩ := token_eq_ok tokenRun
  have isKind : found.lexeme.kind = token.kind := (congrArg Token.kind isFound).symm.trans same
  have again := unit_alone otherDepth lexed (isKind ▸ alone.1)
  obtain ⟨isToken, isAfter⟩ := unit_unique read again
  rw [again, isToken, isAfter]

/-- A group of `bracket` gives up at the unit that is read at a place, whatever the bound on the depth is. -/
def GivesUp (bracket : Bracket) (place : Reader) (fault : SyntaxFault) : Prop :=
  ∃ token after, (∀ depth, unit (depth + 1) place = .ok (token, after)) ∧
    ∀ goOn, closeOrGoOn bracket token goOn after = .error (.faulty fault)

theorem gives_up_at_end {depth : Nat} {place after : Reader} {token : Token}
    (read : unit depth place = .ok (token, after)) (ended : token.kind = .eof) (bracket : Bracket) :
    GivesUp bracket place ⟨.unexpectedEnd, token.span, some (.punctuator bracket.close)⟩ := by
  refine ⟨token, after, unit_at_once read (.inl ended), fun goOn => ?_⟩
  rw [closeOrGoOn, if_neg (by simp [ended]), if_pos ended]
  rfl

theorem gives_up_at_other {depth : Nat} {place after : Reader} {token : Token} {bracket other : Bracket}
    (read : unit depth place = .ok (token, after)) (isOther : other ≠ bracket)
    (closes : token.kind = .punctuator other.close) :
    GivesUp bracket place (.atToken (.tokenRequired (.punctuator bracket.close)) token) := by
  have closing : token.kind.closes?.isSome = true := by rw [closes]; cases other <;> rfl
  refine ⟨token, after, unit_at_once read (.inr closing), fun goOn => ?_⟩
  have wrong : token.kind ≠ .punctuator bracket.close := by
    intro same
    have closed := congrArg Kind.closes? (closes.symm.trans same)
    simp only [Kind.closes?, Bracket.closes?_close, Option.some.injEq] at closed
    exact isOther closed
  rw [closeOrGoOn, if_neg wrong, if_neg (by simp [closes]), if_pos closing]
  rfl

section GivesUp

variable {bracket : Bracket} {place : Reader} {fault : SyntaxFault}
  (givesUp : GivesUp bracket place fault)

include givesUp

theorem group_gives_up {inner : Nat} {action : Scan Token}
    (there : action place = .error (.faulty fault))
    (elsewhere : ∀ reader, reader ≠ place → action reader = unit (inner + 1) reader) :
    group action bracket = group (unit (inner + 1)) bracket := by
  obtain ⟨token, after, reads, fails⟩ := givesUp
  funext fuel
  induction fuel with
  | zero => rfl
  | succ fuel ih =>
      funext reader
      by_cases here : reader = place
      · subst here
        have given : group action bracket (fuel + 1) reader = .error (.faulty fault) := by
          simp only [group, bind, StateT.bind, there, Except.bind]
        rw [given]
        exact ((bind_of_ok (reads inner) _).trans (fails _)).symm
      · simp only [group, ih]
        exact bind_run_congr (elsewhere reader here) _

theorem unitUnless_eq (fuel : Nat) :
    unitUnless ⟨some bracket, place⟩ (fail fault) fuel none = unit fuel ∧
      ∀ other, group (unitUnless ⟨some bracket, place⟩ (fail fault) fuel (some other)) other =
        group (unit fuel) other := by
  induction fuel with
  | zero => exact ⟨rfl, fun _ => rfl⟩
  | succ fuel ih =>
      let spot : Spot := ⟨some bracket, place⟩
      have elsewhere {inside : Option Bracket} {reader : Reader}
          (apart : inside ≠ some bracket ∨ reader ≠ place) :
          unitUnless spot (fail fault) (fuel + 1) inside reader = unit (fuel + 1) reader :=
        (@unitUnless_elsewhere spot inside reader apart (fail fault) fuel).trans
          (congrFun (unitWithin_congr ih.2 fuel) reader)
      refine ⟨funext fun reader => elsewhere (.inl nofun), fun other => ?_⟩
      by_cases same : other = bracket
      · subst same
        exact group_gives_up givesUp (unitUnless_there ..) fun reader apart => elsewhere (.inr apart)
      · have apart : some other ≠ some bracket := fun inside => same (Option.some.inj inside)
        exact congrArg (group · other) (funext fun reader => elsewhere (.inl apart))

theorem split_gives_up {text : Text} (reads : ReadsAt text ⟨some bracket, place⟩) :
    Statement.split text = .error fault := by
  have run := reads fault
  simp only [(unitUnless_eq givesUp _).1] at run
  unfold Statement.split moduleStatements
  simp only [run]

end GivesUp

/-! ## Modules -/

/-- Where the second unit in `(]` and in `a[b` is read. -/
def behindParenthesis : Reader := ⟨"]".toList, 1, true, .punctuator .parenthesisOpen⟩

def behindIndex : Reader := ⟨[], 3, false, .identifier⟩

/-- A closing bracket as the value of an `export default` is no fault. -/
example : Statement.split "export default );".toList = .ok [.other ⟨0, 17⟩] := by decide +kernel

end Relink
