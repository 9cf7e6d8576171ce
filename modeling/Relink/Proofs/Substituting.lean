import Relink.Proofs.Scan.Enclosure
import Relink.Proofs.Scan.Onward
import Relink.Proofs.Scan.Watch

/-!
# Substitutions and parentheses

What stands in a substitution of a template or an element is read as what stands in parentheses: the same texts
are taken through the closing bracket, and the same units are read in them. Neither what stands behind the bracket
nor what the scan notes before it makes a difference.
-/

set_option autoImplicit false

namespace Relink

open Scan

namespace Scan

/-- From a reader on, an action ends with `rest` left. -/
def Leaves {α : Type} (action : Scan α) (reader : Reader) (rest : Text) : Prop :=
  ∃ value after, action reader = .ok (value, after) ∧ after.rest = rest

/-- From a reader on, an action reads `taken` and no more. -/
def Takes {α : Type} (action : Scan α) (reader : Reader) (taken : Text) : Prop :=
  ∃ value after, action reader = .ok (value, after) ∧ reader.Passes taken after

theorem Advances.takes_iff {α : Type} {action : Scan α} (advances : Advances action) {reader : Reader} {taken rest : Text}
    (split : reader.rest = taken ++ rest) : Takes action reader taken ↔ Leaves action reader rest := by
  constructor
  · rintro ⟨value, after, run, passes⟩
    exact ⟨value, after, run, List.append_cancel_left (passes.rest.symm.trans split)⟩
  · rintro ⟨value, after, run, rfl⟩
    obtain ⟨passed, passes⟩ := advances run
    obtain rfl := List.append_cancel_right (split.symm.trans passes.rest)
    exact ⟨value, after, run, passes⟩

theorem leaves_of_ok {α : Type} {action : Scan α} {reader after : Reader} {value : α}
    (run : action reader = .ok (value, after)) {rest : Text} : Leaves action reader rest ↔ after.rest = rest := by
  constructor
  · rintro ⟨_, _, again, left⟩
    cases run.symm.trans again
    exact left
  · exact fun left => ⟨value, after, run, left⟩

theorem not_leaves {α : Type} {action : Scan α} {reader : Reader} {halt : Halt} (failed : action reader = .error halt)
    (rest : Text) : ¬ Leaves action reader rest := by
  rintro ⟨_, _, run, _⟩
  cases failed.symm.trans run

theorem Leaves.of_rest {α : Type} {action : Scan α} {reader : Reader} {rest : Text}
    (ends : (action reader).toOption.map (·.2.rest) = some rest) : Leaves action reader rest := by
  cases run : action reader with
  | error halt =>
      rw [run] at ends
      cases ends
  | ok parts =>
      rw [run] at ends
      exact ⟨parts.1, parts.2, run, Option.some.inj ends⟩

theorem Repeats.leaves_iff {α β : Type} {distance : Nat} {reader : Reader} {action : Scan α} {other : Scan β}
    {move : α → β} {post : α → Reader → Prop} (repeats : Repeats distance reader action other move post) {rest : Text} :
    Leaves other (reader.later distance) rest ↔ Leaves action reader rest := by
  unfold Repeats at repeats
  split at repeats
  · rename_i value after run
    rw [leaves_of_ok repeats.2, leaves_of_ok run]
    rfl
  · rename_i fault run
    exact iff_of_false (not_leaves repeats rest) (not_leaves run rest)
  · exact repeats.elim

/-! ## The closing bracket -/

/-- A bracket behind trivia closes a group, unless it is watched for. -/
theorem closing_read {watched : Option Sighting} (bracket : Bracket) {gap rest : Text}
    (trivia : Trivia.IsTrivia false gap) {reader : Reader}
    (split : reader.rest = gap ++ (bracket.close.spelling ++ rest))
    (early : ∀ seen, watched = some seen → seen.token.span.stop + rest.size < reader.finish) (depth : Nat) :
    ∃ token after, unitUntil watched (depth + 1) reader = .ok (token, after) ∧
      token.kind = .punctuator bracket.close ∧ after.rest = rest := by
  obtain ⟨newline, lexed⟩ := Token.lex_closing bracket reader.mode trivia rest
  rw [← split] at lexed
  have alone : (Kind.punctuator bracket.close).isAlone = true := by cases bracket <;> rfl
  obtain ⟨token, after, read, isKind, left⟩ : ∃ token after,
      unit (depth + 1) reader = .ok (token, after) ∧ token.kind = .punctuator bracket.close ∧ after.rest = rest :=
    ⟨_, _, unit_alone depth lexed alone, rfl, rfl⟩
  have inGroup := unitOver_alone (unitUntil watched depth) depth lexed alone
  cases (unit_alone depth lexed alone).symm.trans read
  refine ⟨_, _, unitUntil_of_ok inGroup fun same => ?_, isKind, left⟩
  -- The bracket ends where `rest` begins, behind whatever is watched for.
  obtain ⟨body, lies⟩ := unit_at read
  have finish := (unit_leads read).finish_eq
  have before := early _ same
  rw [lies.stop, ← finish, Reader.finish, left] at before
  omega

/-! ## Groups of two brackets -/

section Cross

variable {bracket other : Bracket} {rest otherRest : Text}

/-- The seam between two closing brackets and what stands behind them. -/
def closingSeam (bracket other : Bracket) (rest otherRest : Text) : Seam where
  left := bracket.close.spelling ++ rest
  right := other.close.spelling ++ otherRest
  shift := 0
  ends := fun empty => absurd (List.append_eq_nil_iff.mp empty).1 (Token.spelling_ne_nil _)

theorem closing_alike (bracket other : Bracket) (rest otherRest : Text) :
    Text.Alike (bracket.close.spelling ++ rest) (other.close.spelling ++ otherRest) := by
  cases bracket <;> cases other <;> exact Text.alike_stop rfl rfl _ _

variable {watched otherWatched : Option Sighting} {depth : Nat} {reader twin : Reader}

/-- Where a bracket is read that `rest` follows, only trivia stands before it, and so it does before the other one. -/
theorem close_crosses (twins : (closingSeam bracket other rest otherRest).Twins reader twin)
    (early : ∀ seen, otherWatched = some seen → seen.token.span.stop + otherRest.size < twin.finish) {token : Token}
    {middle : Reader} (read : unitUntil watched depth reader = .ok (token, middle))
    (isClose : token.kind = .punctuator bracket.close) (left : middle.rest = rest) :
    ∃ close past, unitUntil otherWatched depth twin = .ok (close, past) ∧
      close.kind = .punctuator other.close ∧ past.rest = otherRest := by
  have plain := unit_of_unitUntil read
  obtain ⟨depth, rfl, -⟩ := unitUntil_eq_ok read
  obtain ⟨last, tokenRun, isAfter⟩ := unit_token plain isClose (by cases bracket <;> rfl)
  obtain ⟨body, lies⟩ := token_at tokenRun
  obtain rfl := lies.punctuator _ isClose
  obtain ⟨before, split, twinSplit, -⟩ := twins.rest
  have whole := lies.passes.rest
  rw [show last.rest = rest by rw [← left, isAfter], List.append_assoc] at whole
  obtain rfl := List.append_cancel_right (split.symm.trans whole)
  have trivia := Trivia.skip_isTrivia reader.rest
  rw [List.append_cancel_left ((Trivia.skip_append reader.rest).trans whole),
    show (bracket.close.spelling ++ rest).isEmpty = false by cases bracket <;> rfl] at trivia
  exact closing_read other trivia twinSplit early depth

/-- The text that a group is read from ends with the closing bracket and what the group leaves. -/
theorem suffix_of_group {steps : Nat} {stop : Span} {after : Reader}
    (run : group (unitUntil watched depth) bracket steps reader = .ok (stop, after)) :
    bracket.close.spelling ++ after.rest <:+ reader.rest := by
  have groups : (Seam.later 0).Follows (group (unitUntil watched depth) bracket steps)
      (group (unitUntil none depth) bracket steps) (·.shift 0) :=
    .group (.unitUntil (Seam.keeps_none _ _) (Nat.le_refl depth)) bracket (Nat.le_refl steps)
  have grouped := groups.again run
  rw [unitUntil_none] at grouped
  obtain ⟨content, passes⟩ := group_content grouped
  exact ⟨content, by rw [passes.rest, List.append_assoc]⟩

/-- Where a group ends at one bracket, one of another bracket ends at that. -/
theorem group_crosses (keeps : (closingSeam bracket other rest otherRest).Keeps watched otherWatched) {steps : Nat}
    (twins : (closingSeam bracket other rest otherRest).Twins reader twin)
    (early : ∀ seen, otherWatched = some seen → seen.token.span.stop + otherRest.size < twin.finish)
    (leaves : Leaves (group (unitUntil watched depth) bracket steps) reader rest) :
    Leaves (group (unitUntil otherWatched depth) other steps) twin otherRest := by
  induction steps generalizing reader twin with
  | zero =>
      obtain ⟨_, _, run, _⟩ := leaves
      cases run
  | succ steps ih =>
      obtain ⟨stop, after, run, left⟩ := leaves
      obtain ⟨token, middle, read, run⟩ := bind_eq_ok run
      rw [closeOrGoOn] at run
      split at run
      · rename_i isClose
        cases run
        obtain ⟨close, past, twinRead, isKind, twinLeft⟩ := close_crosses twins early read isClose left
        refine ⟨close.span, past, (bind_of_ok twinRead _).trans ?_, twinLeft⟩
        rw [closeOrGoOn, if_pos isKind]
        rfl
      split at run
      · cases run
      split at run
      · cases run
      · rename_i noClose noEnd noBracket
        have units : (closingSeam bracket other rest otherRest).Follows (unitUntil watched depth)
            (unitUntil otherWatched depth) (·.shift 0) := .unitUntil keeps (Nat.le_refl depth)
        obtain ⟨twinMiddle, twinRead, twinsMiddle⟩ :=
          (units reader token middle read).2 twin twins (left ▸ suffix_of_group run)
        have finish := (unit_leads (unit_of_unitUntil twinRead)).finish_eq
        obtain ⟨twinStop, twinAfter, twinRun, twinLeft⟩ :=
          ih twinsMiddle (fun seen is => finish ▸ early seen is) ⟨stop, after, run, left⟩
        have noOther : token.kind ≠ .punctuator other.close := by
          intro same
          rw [same] at noBracket
          cases other <;> exact noBracket rfl
        refine ⟨twinStop, twinAfter, (bind_of_ok twinRead _).trans ?_, twinLeft⟩
        rw [closeOrGoOn, Token.kind_shift, if_neg noOther, if_neg noEnd, if_neg noBracket]
        exact twinRun

end Cross

theorem leaves_bind_pure {α β : Type} {action : Scan α} {reader : Reader} {rest : Text} (result : α → β) :
    Leaves (action >>= fun value => pure (result value)) reader rest ↔ Leaves action reader rest := by
  cases run : action reader with
  | error halt =>
      have failed : (action >>= fun value => pure (result value)) reader = .error halt := by
        simp only [bind, StateT.bind, run, Except.bind]
      exact iff_of_false (not_leaves failed rest) (not_leaves run rest)
  | ok parts => rw [leaves_of_ok run, leaves_of_ok (bind_of_ok run _)]

/-- An action that takes a text meets a unit in it: it gets past the unit, but not if that is watched for. -/
def Meets {α : Type} (action : Scan Token → Scan α) (depth : Nat) (reader : Reader) (taken : Text) (seen : Sighting) :
    Prop :=
  Takes (action (unit depth)) reader taken ∧ ¬ Takes (action (unitUntil (some seen) depth)) reader taken

end Scan

/-! ## Contents of brackets -/

/-- What stands around a content: the text behind its closing bracket, the offset where it starts, and what is noted
before it. -/
structure Surroundings where
  rest : Text
  position : Nat
  operand : Bool
  previous : Kind

/-- The reader before a content and what closes it. -/
def Surroundings.before (around : Surroundings) (content closing : Text) : Reader :=
  ⟨content ++ (closing ++ around.rest), around.position, around.operand, around.previous⟩

/-- A unit in a content: the text before it, the text from the reader before it on, what is noted there, and the unit
itself, at offsets from the start of the content. -/
structure ContentUnit (content : Text) where
  front : Text
  back : Text
  split : content = front ++ back
  operand : Bool
  previous : Kind
  token : Token
  within : token.span.stop ≤ content.size

namespace ContentUnit

variable {content : Text}

/-- The unit as it is seen where the content starts at an offset and `behind` stands behind it. -/
def seen (unit : ContentUnit content) (position : Nat) (behind : Text) : Sighting :=
  ⟨⟨unit.back ++ behind, unit.front.size + position, unit.operand, unit.previous⟩, unit.token.shift position⟩

theorem seen_later (watched : Option (ContentUnit content)) (position : Nat) (behind : Text) :
    (watched.map (·.seen 0 behind)).map (.later position) = watched.map (·.seen position behind) := by
  cases watched <;> rfl

end ContentUnit

namespace Scan

section Content

variable {content : Text} (watched : Option (ContentUnit content)) (operand : Bool) (previous : Kind)

/-- Where a content starts and how large the bounds are makes no difference. -/
theorem group_settles (bracket : Bracket) (rest : Text) (position : Nat) {depth steps : Nat}
    (deep : content.length + (bracket.close.spelling ++ rest).length < depth)
    (many : content.length + (bracket.close.spelling ++ rest).length < steps) (bound : Nat)
    (deeper : depth ≤ bound) (more : steps ≤ bound) :
    Leaves (group (unitUntil (watched.map (·.seen position (bracket.close.spelling ++ rest))) depth) bracket steps)
        ⟨content ++ (bracket.close.spelling ++ rest), position, operand, previous⟩ rest ↔
      Leaves (group (unitUntil (watched.map (·.seen 0 (bracket.close.spelling ++ rest))) bound) bracket bound)
        ⟨content ++ (bracket.close.spelling ++ rest), 0, operand, previous⟩ rest := by
  let start : Reader := ⟨content ++ (bracket.close.spelling ++ rest), 0, operand, previous⟩
  let sighting := watched.map (·.seen 0 (bracket.close.spelling ++ rest))
  have left : start.left = content.length + (bracket.close.spelling ++ rest).length := List.length_append
  have later : Repeats position start (group (unitUntil sighting depth) bracket steps)
      (group (unitUntil (sighting.map (.later position)) depth) bracket steps) (Span.shift · position)
      fun _ after => after.left < start.left :=
    group_repeats (fun _ fits => unitUntil_repeats sighting (Nat.le_refl depth) fits) bracket (Nat.le_refl steps)
      (left ▸ many) (left ▸ deep)
  have larger : Repeats 0 start (group (unitUntil sighting depth) bracket steps)
      (group (unitUntil (sighting.map (.later 0)) bound) bracket bound) (Span.shift · 0)
      fun _ after => after.left < start.left :=
    group_repeats (fun _ fits => unitUntil_repeats sighting deeper fits) bracket more (left ▸ many) (left ▸ deep)
  have moved := @Repeats.leaves_iff _ _ _ _ _ _ _ _ later rest
  have same := @Repeats.leaves_iff _ _ _ _ _ _ _ _ larger rest
  rw [ContentUnit.seen_later] at moved same
  rw [Reader.later, Nat.zero_add] at moved
  exact moved.trans same.symm

theorem closing_twins (bracket other : Bracket) (rest otherRest front : Text) (position : Nat) :
    (closingSeam bracket other rest otherRest).Twins
      ⟨front ++ (bracket.close.spelling ++ rest), position, operand, previous⟩
      ⟨front ++ (other.close.spelling ++ otherRest), position, operand, previous⟩ :=
  ⟨⟨front, rfl, rfl, .inr (.inl (closing_alike ..))⟩, rfl, rfl, rfl⟩

theorem content_crosses (bracket other : Bracket) (rest otherRest : Text) {bound : Nat}
    (leaves : Leaves (group (unitUntil (watched.map (·.seen 0 (bracket.close.spelling ++ rest))) bound) bracket bound)
      ⟨content ++ (bracket.close.spelling ++ rest), 0, operand, previous⟩ rest) :
    Leaves (group (unitUntil (watched.map (·.seen 0 (other.close.spelling ++ otherRest))) bound) other bound)
      ⟨content ++ (other.close.spelling ++ otherRest), 0, operand, previous⟩ otherRest := by
  refine group_crosses ?_ (closing_twins operand previous bracket other rest otherRest content 0) ?_ leaves
  · cases watched with
    | none => exact Seam.keeps_none _ _
    | some unit => exact Seam.keeps_some (closing_twins unit.operand unit.previous bracket other rest otherRest _ _) _
  · intro seen is
    obtain ⟨unit, -, rfl⟩ := Option.map_eq_some_iff.mp is
    have within : (unit.seen 0 (other.close.spelling ++ otherRest)).token.span.stop ≤ content.size := unit.within
    have some : 0 < other.close.spelling.size := Text.size_pos (Token.spelling_ne_nil _)
    simp only [Reader.finish, Text.size_append]
    omega

/-- A content is taken through one bracket where it is taken through another one, with the same units in it. -/
theorem content_iff (bracket other : Bracket) (rest otherRest : Text) (position otherPosition : Nat)
    {depth steps otherDepth otherSteps : Nat}
    (deep : content.length + (bracket.close.spelling ++ rest).length < depth)
    (many : content.length + (bracket.close.spelling ++ rest).length < steps)
    (otherDeep : content.length + (other.close.spelling ++ otherRest).length < otherDepth)
    (otherMany : content.length + (other.close.spelling ++ otherRest).length < otherSteps) :
    Leaves (group (unitUntil (watched.map (·.seen position (bracket.close.spelling ++ rest))) depth) bracket steps)
        ⟨content ++ (bracket.close.spelling ++ rest), position, operand, previous⟩ rest ↔
      Leaves (group (unitUntil (watched.map (·.seen otherPosition (other.close.spelling ++ otherRest))) otherDepth) other
        otherSteps) ⟨content ++ (other.close.spelling ++ otherRest), otherPosition, operand, previous⟩ otherRest := by
  let bound := max (max depth steps) (max otherDepth otherSteps)
  rw [group_settles watched operand previous bracket rest position deep many bound (by omega) (by omega),
    group_settles watched operand previous other otherRest otherPosition otherDeep otherMany bound (by omega)
      (by omega)]
  exact ⟨content_crosses watched operand previous bracket other rest otherRest,
    content_crosses watched operand previous other bracket otherRest rest⟩

end Content

/-! ## Substitutions and parentheses -/

section Kinds

variable (watched : Option Sighting) (depth steps : Nat)

theorem follows_unitUntil : Seam.atEnd.Follows (unitUntil watched depth) (unitUntil none depth) (·.shift 0) :=
  .unitUntil (Seam.keeps_none _ _) (Nat.le_refl depth)

/-- Behind an opening parenthesis a group is read, whatever was noted before it. -/
theorem parentheses_takes {opening : Token} (isOpening : opening.kind = .punctuator .parenthesisOpen)
    (around : Surroundings) (content : Text) :
    Takes (foldGroup (unitUntil watched depth) steps opening)
        (around.before content Bracket.parenthesis.close.spelling) (content ++ Bracket.parenthesis.close.spelling) ↔
      Leaves (group (unitUntil watched depth) .parenthesis steps)
        ⟨content ++ (Bracket.parenthesis.close.spelling ++ around.rest), around.position, true,
          .punctuator .parenthesisOpen⟩ around.rest := by
  have advances : Advances (foldGroup (unitUntil watched depth) steps opening) :=
    .of_follows (.foldGroup (follows_unitUntil watched depth) (Nat.le_refl steps) opening)
  have folds : foldGroup (unitUntil watched depth) steps opening = follow true (.punctuator .parenthesisOpen) >>= fun _ =>
      group (unitUntil watched depth) .parenthesis steps >>= fun stop => pure (opening.upTo stop) := by
    rw [foldGroup, isOpening]
    rfl
  rw [advances.takes_iff (List.append_assoc ..).symm, folds]
  exact leaves_bind_pure fun stop => opening.upTo stop

/-- A substitution is read as a group, whatever was noted before it. -/
theorem substitution_takes (around : Surroundings) (content : Text) :
    Takes (substitution (unitUntil watched depth) steps)
        (around.before content Bracket.brace.close.spelling) (content ++ Bracket.brace.close.spelling) ↔
      Leaves (group (unitUntil watched depth) .brace steps)
        ⟨content ++ (Bracket.brace.close.spelling ++ around.rest), around.position, true,
          .punctuator .parenthesisOpen⟩ around.rest := by
  have advances : Advances (substitution (unitUntil watched depth) steps) :=
    .of_follows (.substitution (follows_unitUntil watched depth) (Nat.le_refl steps))
  rw [advances.takes_iff (List.append_assoc ..).symm]
  exact leaves_bind_pure fun _ => ()

end Kinds

/-- A content is taken through the parenthesis behind it, with more steps than characters that are left, where a
substitution takes it through the brace behind it. In both, the same units are read in it. -/
theorem substitution_like_parentheses (content : Text) {opening : Token}
    (isOpening : opening.kind = .punctuator .parenthesisOpen) (here there : Surroundings)
    {depth steps otherDepth otherSteps : Nat} (deep : (here.before content [')']).left < depth)
    (many : (here.before content [')']).left < steps) (otherDeep : (there.before content ['}']).left < otherDepth)
    (otherMany : (there.before content ['}']).left < otherSteps) :
    (Takes (foldGroup (unit depth) steps opening) (here.before content [')']) (content ++ [')']) ↔
      Takes (substitution (unit otherDepth) otherSteps) (there.before content ['}']) (content ++ ['}'])) ∧
    ∀ seen : ContentUnit content,
      Meets (foldGroup · steps opening) depth (here.before content [')']) (content ++ [')'])
          (seen.seen here.position ([')'] ++ here.rest)) ↔
        Meets (substitution · otherSteps) otherDepth (there.before content ['}']) (content ++ ['}'])
          (seen.seen there.position (['}'] ++ there.rest)) := by
  have left (around : Surroundings) (closing : Text) :
      (around.before content closing).left = content.length + (closing ++ around.rest).length := List.length_append
  rw [left] at deep many otherDeep otherMany
  have same (watched : Option (ContentUnit content)) :
      Takes (foldGroup (unitUntil (watched.map (·.seen here.position ([')'] ++ here.rest))) depth) steps opening)
          (here.before content [')']) (content ++ [')']) ↔
        Takes (substitution (unitUntil (watched.map (·.seen there.position (['}'] ++ there.rest))) otherDepth) otherSteps)
          (there.before content ['}']) (content ++ ['}']) :=
    (parentheses_takes _ depth steps isOpening here content).trans <|
      (content_iff watched true (.punctuator .parenthesisOpen) .parenthesis .brace here.rest there.rest here.position
        there.position deep many otherDeep otherMany).trans (substitution_takes _ otherDepth otherSteps there content).symm
  have plain := same none
  simp only [Option.map_none, unitUntil_none] at plain
  exact ⟨plain, fun seen => and_congr plain (not_congr (same (some seen)))⟩

/-- What stands around the argument in `f([a]);`. -/
def inCall : Surroundings := ⟨";".toList, 2, false, .identifier⟩

/-- What stands around the substitution of a template. -/
def inTemplate : Surroundings := ⟨"\x60".toList, 3, true, .punctuator .semicolon⟩

def arrayUnit : ContentUnit "[a]".toList where
  front := ['[']
  back := "a]".toList
  split := rfl
  operand := true
  previous := .punctuator .bracketOpen
  token := ⟨.identifier, ⟨1, 2⟩, ['a'], false⟩
  within := by decide

theorem substitution_like_parentheses_array :
    Takes (substitution (unit 9) 9) (inTemplate.before "[a]".toList ['}']) "[a]\x7d".toList ∧
      Meets (substitution · 9) 9 (inTemplate.before "[a]".toList ['}']) "[a]\x7d".toList
        (arrayUnit.seen 3 "\x7d\x60".toList) := by
  obtain ⟨plain, units⟩ := @substitution_like_parentheses "[a]".toList
    ⟨.punctuator .parenthesisOpen, ⟨1, 2⟩, ['('], false⟩ rfl inCall inTemplate 9 9 9 9 (by decide) (by decide)
    (by decide) (by decide)
  have closed : (foldGroup (unit 9) 9 ⟨.punctuator .parenthesisOpen, ⟨1, 2⟩, ['('], false⟩
      (inCall.before "[a]".toList [')'])).toOption.map (·.2.rest) = some inCall.rest := by
    decide +kernel
  have gaveUp : (foldGroup (unitUntil (some (arrayUnit.seen 2 ");".toList)) 9) 9
      ⟨.punctuator .parenthesisOpen, ⟨1, 2⟩, ['('], false⟩ (inCall.before "[a]".toList [')'])).toOption = none := by
    decide +kernel
  have taken := (Advances.takes_iff (.foldGroup 9 9 _) (List.append_assoc ..).symm).mpr (Leaves.of_rest closed)
  refine ⟨plain.mp taken, (units arrayUnit).mp ⟨taken, ?_⟩⟩
  rintro ⟨_, _, run, -⟩
  cases gaveUp.symm.trans (congrArg Except.toOption run)

end Scan

end Relink
