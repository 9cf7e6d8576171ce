import Relink.Proofs.Scan.Border
import Relink.Proofs.Scan.Exchange.Statement
import Relink.Proofs.Scan.Preamble

/-!
# Opacity

All that the scan of a module keeps of a group is where it ends. Whatever stands between the brackets, as
long as the group ends at the closing one, the unit is the same and so is what is noted behind it, and the
statements of the module are the same, moved along with what stands behind the opening bracket.
-/

set_option autoImplicit false

namespace Relink

open Scan

/-! ## Bounds -/

/-- A larger bound on the steps makes no difference to a module, and no module runs out of steps. -/
theorem split_deeper {text : Text} {bound : Nat} (enough : (Preamble.mask text).length ≤ bound) :
    (Statement.split text).toOption =
        (moduleStatements bound (Reader.start (Preamble.mask text))).toOption.map Prod.fst ∧
      moduleStatements bound (Reader.start (Preamble.mask text)) ≠ .error .outOfFuel := by
  have repeats : Repeats 0 (Reader.start (Preamble.mask text))
      (moduleStatements (Preamble.mask text).length) (moduleStatements bound) (List.map (·.shift 0))
      fun _ _ => True :=
    moduleStatements_repeats enough (Nat.le_refl _)
  have here : (Reader.start (Preamble.mask text)).later 0 = Reader.start (Preamble.mask text) := rfl
  unfold Repeats at repeats
  unfold Statement.split
  simp only [here, Statement.shift_zero, List.map_id'] at repeats ⊢
  split at repeats
  · rename_i found last run
    rw [run, repeats.2]
    exact ⟨rfl, nofun⟩
  · rename_i fault run
    rw [run, repeats]
    exact ⟨rfl, nofun⟩
  · exact repeats.elim

/-! ## Groups -/

namespace Exchange

variable (exchange : Exchange)

/-- What is read of a group with one content and with the other: the same unit, the same notes and the same
text behind it, at offsets that differ by the sizes of the contents. -/
structure Matches (read other : Token × Reader) : Prop where
  kind : other.1.kind = read.1.kind
  start : other.1.span.start = read.1.span.start
  onNewLine : other.1.onNewLine = read.1.onNewLine
  stop : other.1.span.stop + exchange.old.size = read.1.span.stop + exchange.new.size
  rest : other.2.rest = read.2.rest
  operand : other.2.operand = read.2.operand
  previous : other.2.previous = read.2.previous
  position : other.2.position + exchange.old.size = read.2.position + exchange.new.size

variable {exchange}

/-- With more steps than characters that are left both groups are read. -/
theorem read_matches {depth otherDepth : Nat} (enough : exchange.place.left < depth)
    (otherEnough : exchange.otherPlace.left < otherDepth) :
    ∃ read other, unit depth exchange.place = .ok read ∧
      unit otherDepth exchange.otherPlace = .ok other ∧ exchange.Matches read other := by
  have stop : exchange.stop exchange.new + exchange.old.size =
      exchange.stop exchange.old + exchange.new.size := by
    simp only [Enclosure.stop]
    omega
  exact ⟨_, _, exchange.oldCloses.read enough, exchange.newCloses.read otherEnough,
    rfl, rfl, rfl, stop, rfl, rfl, rfl, stop⟩

/-! ## Modules -/

theorem Agree.results {α : Type} {move : α → α} {post : α → Prop}
    {result other : Except Halt (α × Reader)} (agree : exchange.Agree move post result other)
    (ends : result ≠ .error .outOfFuel) :
    other.toOption.map Prod.fst = (result.toOption.map Prod.fst).map move := by
  match result, agree with
  | .ok (value, after), ⟨_, twin, again, _⟩ =>
      rw [again]
      rfl
  | .error (.faulty fault), ⟨otherFault, again⟩ =>
      rw [again]
      rfl
  | .error .outOfFuel, _ => exact absurd rfl ends

theorem Before.length_le {reader twin : Reader} (before : exchange.Before reader twin) :
    twin.rest.length ≤ reader.rest.length + exchange.new.length := by
  obtain ⟨passed, passes, rfl⟩ := before
  rw [passes.rest]
  simp only [Enclosure.around, Enclosure.behindMark, List.length_append]
  omega

/-- The other module is masked like the one whose scan gets to the group. -/
theorem before_of_leads {front : Text}
    (leads : (Reader.start (Preamble.mask (exchange.within exchange.old front))).Leads exchange.place) :
    exchange.Before (Reader.start (Preamble.mask (exchange.within exchange.old front)))
      (Reader.start (Preamble.mask (exchange.within exchange.new front))) := by
  obtain ⟨passed, passes⟩ := leads
  obtain ⟨c, more, isMark, noSpace, noMark⟩ := Token.opening_first exchange.opens
  have first (content : Text) : (exchange.mark.spelling ++ exchange.behindMark content).head? = some c := by
    rw [isMark]
    rfl
  have masked := passes.rest
  simp only [Reader.start, Enclosure.within, Enclosure.around, ← List.append_assoc passed] at masked
  have again := Preamble.mask_append_congr (first exchange.old) (first exchange.new) noSpace noMark masked
  refine ⟨passed, passes, ?_⟩
  rw [Enclosure.within, again, List.append_assoc]
  rfl

theorem split_relocates {front : Text} {inside : Option Bracket}
    (reads : ReadsAt (exchange.within exchange.old front) ⟨inside, exchange.place⟩) :
    (Statement.split (exchange.within exchange.new front)).toOption =
      (Statement.split (exchange.within exchange.old front)).toOption.map
        (List.map (.relocate exchange.move)) := by
  let code := Preamble.mask (exchange.within exchange.old front)
  let otherCode := Preamble.mask (exchange.within exchange.new front)
  let bound := code.length + exchange.new.length
  have mirrors : exchange.Mirrors (code.length + 2) True
      (fun fault => statements (unitUnless ⟨inside, exchange.place⟩ (fail fault) (code.length + 2) none)
        (code.length + 2) (code.length + 2) none)
      (moduleStatements code.length) (moduleStatements bound) (List.map (.relocate exchange.move))
      fun _ => True :=
    .statements (.unit (by omega) inside none) (by omega) (by omega) none
  have before : exchange.Before (Reader.start code) (Reader.start otherCode) := by
    rcases mirrors.parts (Reader.start code) with same | ⟨-, leads⟩
    · exact (not_diverts fun fault => (same fault).symm.trans (reads fault)).elim
    · exact before_of_leads leads
  have agree := mirrors.meets trivial before (by simp only [Reader.left, Reader.start]; omega) reads
  have larger : otherCode.length ≤ bound := before.length_le
  obtain ⟨isSplit, ends⟩ := @split_deeper (exchange.within exchange.old front) _ (Nat.le_refl _)
  rw [isSplit, (split_deeper larger).1]
  exact agree.results ends

end Exchange

/-- Groups are opaque. Every group that is read as a unit is an enclosure with a content that ends at the
closing bracket. With another such content the unit has the same kind, the same start and the same line break
before it, and behind it stands the same reader, at an offset that differs by the sizes of the contents. In a
module whose scan reads the group as a unit, the statements with the one content are those with the other one,
moved. -/
theorem group_noninterference :
    (∀ (depth : Nat) (reader after : Reader) (token : Token) (mark : Punctuator),
      unit depth reader = .ok (token, after) → token.kind = .punctuator mark → mark.opens?.isSome →
        ∃ (enclosure : Enclosure) (content : Text), enclosure.mark = mark ∧
          reader = enclosure.around content ∧ enclosure.Closes content) ∧
    ∀ exchange : Exchange,
      (∀ depth otherDepth : Nat, exchange.place.left < depth → exchange.otherPlace.left < otherDepth →
        ∃ read other, unit depth exchange.place = .ok read ∧
          unit otherDepth exchange.otherPlace = .ok other ∧ exchange.Matches read other) ∧
      ∀ (front : Text) (inside : Option Bracket),
        ReadsAt (exchange.within exchange.old front) ⟨inside, exchange.place⟩ →
          (Statement.split (exchange.within exchange.new front)).toOption =
            (Statement.split (exchange.within exchange.old front)).toOption.map
              (List.map (.relocate exchange.move)) := by
  refine ⟨?_, fun exchange => ⟨?_, ?_⟩⟩
  · intro depth reader after token mark read isKind opens
    obtain ⟨bracket, opens⟩ := Option.isSome_iff_exists.mp opens
    obtain ⟨enclosure, content, isMark, rfl, ends⟩ := Enclosure.exists_of_read read isKind opens
    exact ⟨enclosure, content, isMark, rfl, depth, token, after, read, ends⟩
  · exact fun depth otherDepth => Exchange.read_matches
  · exact fun front inside => Exchange.split_relocates

/-- The parentheses in `[(a)];import 'z'`. -/
def arrayItem : Enclosure where
  gap := []
  mark := .parenthesisOpen
  bracket := .parenthesis
  rest := "];import 'z'".toList
  position := 1
  operand := true
  previous := .punctuator .bracketOpen
  trivia := .nil
  opens := rfl

/-- Another item, with a closing bracket in a regular expression. -/
def exchangedItem : Exchange where
  toEnclosure := arrayItem
  old := "a".toList
  new := "\x7bb\x7d,/)/".toList
  oldCloses := .of_rest 5 (by decide +kernel)
  newCloses := .of_rest 5 (by decide +kernel)

theorem group_noninterference_item :
    (∃ read other, unit 40 exchangedItem.place = .ok read ∧ unit 40 exchangedItem.otherPlace = .ok other ∧
      exchangedItem.Matches read other) ∧
    ReadsAt "[(a)];import 'z'".toList ⟨some .square, exchangedItem.place⟩ ∧
    (Statement.split "[(a)];import 'z'".toList).toOption =
      some [.other ⟨0, 6⟩, ⟨some ⟨.sideEffect, ⟨14, 15⟩⟩, ⟨6, 16⟩⟩] ∧
    (Statement.split "[(\x7bb\x7d,/)/)];import 'z'".toList).toOption =
      some [.other ⟨0, 12⟩, ⟨some ⟨.sideEffect, ⟨20, 21⟩⟩, ⟨12, 22⟩⟩] := by
  have reads : ReadsAt "[(a)];import 'z'".toList ⟨some .square, exchangedItem.place⟩ := by
    intro fault
    with_unfolding_all rfl
  have split : (Statement.split "[(a)];import 'z'".toList).toOption =
      some [.other ⟨0, 6⟩, ⟨some ⟨.sideEffect, ⟨14, 15⟩⟩, ⟨6, 16⟩⟩] := by
    decide +kernel
  have same := (group_noninterference.2 exchangedItem).2 "[".toList (some .square) reads
  have isOld : exchangedItem.within exchangedItem.old "[".toList = "[(a)];import 'z'".toList := rfl
  rw [isOld, split] at same
  have matching := (group_noninterference.2 exchangedItem).1 40 40 (by decide) (by decide)
  exact ⟨matching, reads, split, same.trans rfl⟩

end Relink
