import Relink.Proofs.Token.Lexer
import Relink.Scan.Reader

/-!
# Two scans side by side

A seam is a place in a text from which the text goes on otherwise. A scan that does not get beyond
the seam finds the same in both texts, at offsets that differ by the shift of the seam. `Follows` says
so of one action; every action of a scan is built from those of this module by the rules here.
-/

set_option autoImplicit false

namespace Relink

/-! ## Progress -/

namespace Reader

/-- A reader gets to another by reading `passed`. -/
structure Passes (reader : Reader) (passed : Text) (after : Reader) : Prop where
  rest : reader.rest = passed ++ after.rest
  position : after.position = reader.position + passed.size

/-- A reader gets to another by reading. -/
def Leads (reader after : Reader) : Prop := ∃ passed, reader.Passes passed after

theorem Passes.refl (reader : Reader) : reader.Passes [] reader := ⟨rfl, rfl⟩

theorem Passes.trans {reader middle after : Reader} {first second : Text}
    (front : reader.Passes first middle) (back : middle.Passes second after) :
    reader.Passes (first ++ second) after where
  rest := by rw [front.rest, back.rest, List.append_assoc]
  position := by rw [back.position, front.position, Text.size_append, Nat.add_assoc]

theorem Leads.refl (reader : Reader) : reader.Leads reader := ⟨[], .refl reader⟩

theorem Leads.trans {reader middle after : Reader} (front : reader.Leads middle)
    (back : middle.Leads after) : reader.Leads after := by
  obtain ⟨first, front⟩ := front
  obtain ⟨second, back⟩ := back
  exact ⟨first ++ second, front.trans back⟩

theorem Leads.suffix {reader after : Reader} (leads : reader.Leads after) :
    after.rest <:+ reader.rest := by
  obtain ⟨passed, passes⟩ := leads
  exact ⟨passed, passes.rest.symm⟩

theorem Leads.position_le {reader after : Reader} (leads : reader.Leads after) :
    reader.position ≤ after.position := by
  obtain ⟨passed, passes⟩ := leads
  rw [passes.position]
  exact Nat.le_add_right ..

theorem Leads.finish_eq {reader after : Reader} (leads : reader.Leads after) :
    after.finish = reader.finish := by
  obtain ⟨passed, passes⟩ := leads
  simp [finish, passes.rest, passes.position, Nat.add_assoc]

theorem passes_advance {reader : Reader} {chars rest : Text} (split : chars ++ rest = reader.rest) :
    reader.Passes chars (reader.advance chars rest) := ⟨split.symm, rfl⟩

end Reader

theorem Reader.Passes.unique {reader after : Reader} {first second : Text}
    (one : reader.Passes first after) (other : reader.Passes second after) : first = second :=
  List.append_cancel_right (one.rest.symm.trans other.rest)

theorem Token.isPunctuator_iff (token : Token) (p : Punctuator) :
    token.isPunctuator p = true ↔ token.kind = .punctuator p := by
  simp [Token.isPunctuator]

/-! ## Shifted tokens -/

def Token.shift (token : Token) (distance : Nat) : Token :=
  { token with span := token.span.shift distance }

section Shift

variable (token : Token) (distance : Nat)

@[simp] theorem Token.kind_shift : (token.shift distance).kind = token.kind := rfl

@[simp] theorem Token.onNewLine_shift : (token.shift distance).onNewLine = token.onNewLine := rfl

@[simp] theorem Token.isPunctuator_shift (p : Punctuator) :
    (token.shift distance).isPunctuator p = token.isPunctuator p := rfl

@[simp] theorem Token.isKeyword_shift (word : Keyword) :
    (token.shift distance).isKeyword word = token.isKeyword word := rfl

@[simp] theorem Token.isWord_shift (word : String) :
    (token.shift distance).isWord word = token.isWord word := rfl

@[simp] theorem Token.start_shift :
    (token.shift distance).span.start = token.span.start + distance := rfl

@[simp] theorem Token.stop_shift :
    (token.shift distance).span.stop = token.span.stop + distance := rfl

end Shift

/-! ## Seams -/

/-- Two texts that stand behind the same text, and how much later the second one begins. -/
structure Seam where
  left : Text
  right : Text
  shift : Nat
  ends : left = [] → right = []

namespace Seam

/-- The text before a seam hides from its tokens which of the two texts follows. -/
def Hides (seam : Seam) (before : Text) : Prop :=
  before = [] ∨ Text.Alike seam.left seam.right ∨ Text.Sealed before

/-- Readers before the same text, up to the seam. -/
structure Twins (seam : Seam) (reader other : Reader) : Prop where
  rest : ∃ before, reader.rest = before ++ seam.left ∧ other.rest = before ++ seam.right ∧
    seam.Hides before
  position : other.position = reader.position + seam.shift
  operand : other.operand = reader.operand
  previous : other.previous = reader.previous

/-- Whatever an action finds before the seam, another one finds shifted behind the same text. -/
def Follows {α β : Type} (seam : Seam) (action : Scan α) (other : Scan β) (move : α → β) : Prop :=
  ∀ reader value after, action reader = .ok (value, after) →
    reader.Leads after ∧
      ∀ twin, seam.Twins reader twin → seam.left <:+ after.rest →
        ∃ twinAfter, other twin = .ok (move value, twinAfter) ∧ seam.Twins after twinAfter

variable {seam : Seam}

theorem Hides.of_append {front back : Text} (hides : seam.Hides (front ++ back)) :
    seam.Hides back := by
  rcases hides with empty | alike | closed
  · exact .inl (List.append_eq_nil_iff.mp empty).2
  · exact .inr (.inl alike)
  · cases back with
    | nil => exact .inl rfl
    | cons c back => exact .inr (.inr (closed.of_append (by simp)))

/-- A token before a seam does not see which of the two texts follows. -/
theorem Hides.fits {front back : Text} (hides : seam.Hides (front ++ back)) (nonempty : front ≠ []) :
    Text.Alike (back ++ seam.left) (back ++ seam.right) ∨ Text.Sealed front := by
  rcases hides with empty | alike | closed
  · exact absurd (List.append_eq_nil_iff.mp empty).1 nonempty
  · exact .inl (alike.append back)
  · cases back with
    | nil => exact .inr (by simpa using closed)
    | cons c back =>
        have closedBack := closed.of_append (List.cons_ne_nil c back)
        exact .inl (Text.alike_append closedBack.ne_nil closedBack.ne_point _ _)

theorem Twins.behind {reader twin : Reader} (twins : seam.Twins reader twin) {front rest : Text}
    (split : front ++ rest = reader.rest) (beyond : seam.left <:+ rest) :
    ∃ back, rest = back ++ seam.left ∧ twin.rest = front ++ (back ++ seam.right) ∧
      seam.Hides (front ++ back) := by
  obtain ⟨before, left, right, hides⟩ := twins.rest
  obtain ⟨back, rfl⟩ := beyond
  have same : front ++ back = before :=
    List.append_cancel_right (by rw [List.append_assoc, split, left])
  subst same
  exact ⟨back, rfl, by rw [right, List.append_assoc], hides⟩

theorem Twins.advance {reader twin : Reader} (twins : seam.Twins reader twin) {back : Text}
    (hides : seam.Hides back) (chars : Text) :
    seam.Twins (reader.advance chars (back ++ seam.left)) (twin.advance chars (back ++ seam.right)) where
  rest := ⟨back, rfl, rfl, hides⟩
  position := by
    have position := twins.position
    simp only [Reader.advance]
    omega
  operand := twins.operand
  previous := twins.previous

theorem Twins.withOperand {reader twin : Reader} (twins : seam.Twins reader twin) (operand : Bool) :
    seam.Twins { reader with operand := operand } { twin with operand := operand } :=
  ⟨twins.rest, twins.position, rfl, twins.previous⟩

theorem twins_of_passes {reader after : Reader} {passed : Text} (passes : reader.Passes passed after)
    (here : seam.left = after.rest) (hides : seam.Hides passed) :
    seam.Twins reader ⟨passed ++ seam.right, reader.position + seam.shift, reader.operand,
      reader.previous⟩ where
  rest := ⟨passed, by rw [passes.rest, here], rfl, hides⟩
  position := rfl
  operand := rfl
  previous := rfl

theorem Twins.eq_of_passes {reader twin after : Reader} {passed : Text} (twins : seam.Twins reader twin)
    (passes : reader.Passes passed after) (here : seam.left = after.rest) :
    twin = ⟨passed ++ seam.right, reader.position + seam.shift, reader.operand, reader.previous⟩ := by
  obtain ⟨before, left, right, -⟩ := twins.rest
  have same : before = passed := by
    rw [passes.rest, here] at left
    exact (List.append_cancel_right left).symm
  cases twin
  simp only [Reader.mk.injEq]
  exact ⟨by rw [← same]; exact right, twins.position, twins.operand, twins.previous⟩

/-- The seam at the end of a text that stands later as a whole. -/
def later (distance : Nat) : Seam := ⟨[], [], distance, fun empty => empty⟩

theorem later_twins (reader : Reader) (distance : Nat) :
    (later distance).Twins reader { reader with position := reader.position + distance } :=
  ⟨⟨reader.rest, (List.append_nil _).symm, (List.append_nil _).symm, .inr (.inl (.refl []))⟩,
    rfl, rfl, rfl⟩

end Seam

/-! ## Rules -/

namespace Scan

theorem bind_eq_ok {α β : Type} {action : Scan α} {next : α → Scan β} {reader after : Reader}
    {result : β} (run : (action >>= next) reader = .ok (result, after)) :
    ∃ value middle, action reader = .ok (value, middle) ∧ next value middle = .ok (result, after) := by
  cases first : action reader with
  | error halt =>
      have failed : (action >>= next) reader = .error halt := by
        simp only [bind, StateT.bind, first, Except.bind]
      rw [failed] at run
      cases run
  | ok parts =>
      refine ⟨parts.1, parts.2, rfl, ?_⟩
      have same : (action >>= next) reader = next parts.1 parts.2 := by
        simp only [bind, StateT.bind, first, Except.bind]
      rw [← same, run]

theorem bind_of_ok {α β : Type} {action : Scan α} {reader middle : Reader} {value : α}
    (run : action reader = .ok (value, middle)) (next : α → Scan β) :
    (action >>= next) reader = next value middle := by
  simp only [bind, StateT.bind, run, Except.bind]

theorem bind_run_congr {α β : Type} {action other : Scan α} {reader place : Reader}
    (same : action reader = other place) (next : α → Scan β) :
    (action >>= next) reader = (other >>= next) place := by
  simp only [bind, StateT.bind, same]

theorem pure_eq_ok {α : Type} {value result : α} {reader after : Reader}
    (run : (pure value : Scan α) reader = .ok (result, after)) : result = value ∧ after = reader := by
  cases run
  exact ⟨rfl, rfl⟩

end Scan

/-! ## One token -/

theorem Scan.token_eq_ok {mode : Token.Mode} {reader after : Reader} {token : Token}
    (run : Scan.token mode reader = .ok (token, after)) :
    ∃ found, Token.lex mode reader.rest = .ok found ∧ token = reader.tokenOf found ∧
      after = reader.past found := by
  cases lexed : Token.lex mode reader.rest with
  | error fault => simp [Scan.token, Reader.token, lexed] at run
  | ok found =>
      simp only [Scan.token, Reader.token, lexed, Except.ok.injEq, Prod.mk.injEq] at run
      exact ⟨found, rfl, run.1.symm, run.2.symm⟩

theorem Scan.token_of_lex {mode : Token.Mode} {reader : Reader} {found : Token.Lexed}
    (lexed : Token.lex mode reader.rest = .ok found) :
    Scan.token mode reader = .ok (reader.tokenOf found, reader.past found) := by
  simp only [Scan.token, Reader.token, lexed]

theorem Reader.passes_past {mode : Token.Mode} {reader : Reader} {found : Token.Lexed}
    (lexed : Token.lex mode reader.rest = .ok found) :
    reader.Passes (found.gap ++ found.lexeme.whole) (reader.past found) where
  rest := (Token.lex_append lexed).symm
  position := by simp [past, advance, Token.Lexeme.whole]

theorem Scan.elementText_eq_ok {opening : Nat} {reader after : Reader}
    (run : Scan.elementText opening reader = .ok ((), after)) :
    reader.rest.dropWhile Scan.isElementText ≠ [] ∧
      after = reader.advance (reader.rest.takeWhile Scan.isElementText)
        (reader.rest.dropWhile Scan.isElementText) := by
  simp only [Scan.elementText] at run
  split at run
  · cases run
  · rename_i more
    cases run
    exact ⟨by simpa using more, rfl⟩

theorem Scan.elementText_leads {opening : Nat} {reader after : Reader}
    (run : Scan.elementText opening reader = .ok ((), after)) : reader.Leads after := by
  obtain ⟨-, rfl⟩ := Scan.elementText_eq_ok run
  exact ⟨_, Reader.passes_advance List.takeWhile_append_dropWhile⟩

namespace Seam

variable {seam : Seam} {α β γ δ : Type}

theorem Follows.pure {value : α} {moved : β} {move : α → β} (same : moved = move value) :
    seam.Follows (Pure.pure value) (Pure.pure moved) move := by
  subst same
  intro reader result after run
  cases run
  exact ⟨.refl reader, fun twin twins _ => ⟨twin, rfl, twins⟩⟩

/-- What is followed at no distance is found again. -/
theorem Follows.again {action : Scan α} {other : Scan β} {move : α → β}
    (follows : (Seam.later 0).Follows action other move) {reader after : Reader} {value : α}
    (run : action reader = .ok (value, after)) : other reader = .ok (move value, after) := by
  obtain ⟨⟨rest, position, operand, previous⟩, again, twins⟩ :=
    (follows reader value after run).2 _ (Seam.later_twins reader 0) List.nil_suffix
  obtain ⟨before, left, right, -⟩ := twins.rest
  have sameRest : rest = after.rest := right.trans left.symm
  have samePosition : position = after.position := twins.position
  have sameOperand : operand = after.operand := twins.operand
  have samePrevious : previous = after.previous := twins.previous
  rw [sameRest, samePosition, sameOperand, samePrevious] at again
  exact again

theorem Follows.of_failing {action : Scan α} (fails : ∀ reader result, action reader ≠ .ok result)
    (other : Scan β) (move : α → β) : seam.Follows action other move :=
  fun reader value after run => absurd run (fails reader (value, after))

theorem Follows.fail (fault : SyntaxFault) (other : Scan β) (move : α → β) :
    seam.Follows (Scan.fail fault) other move :=
  .of_failing (fun _ _ run => by cases run) other move

theorem Follows.outOfFuel (other : Scan β) (move : α → β) :
    seam.Follows Scan.outOfFuel other move :=
  .of_failing (fun _ _ run => by cases run) other move

/-- Actions are followed one after the other; the second may depend on how the first one ended. -/
theorem Follows.bind {action : Scan α} {other : Scan β} {move : α → β}
    {next : α → Scan γ} {otherNext : β → Scan δ} {moveNext : γ → δ}
    (first : seam.Follows action other move)
    (second : ∀ reader value after, action reader = .ok (value, after) →
      seam.Follows (next value) (otherNext (move value)) moveNext) :
    seam.Follows (action >>= next) (other >>= otherNext) moveNext := by
  intro reader result after run
  obtain ⟨value, middle, firstRun, secondRun⟩ := Scan.bind_eq_ok run
  obtain ⟨toMiddle, firstTwin⟩ := first reader value middle firstRun
  obtain ⟨toAfter, secondTwin⟩ := second reader value middle firstRun middle result after secondRun
  refine ⟨toMiddle.trans toAfter, fun twin twins beyond => ?_⟩
  obtain ⟨twinMiddle, otherFirst, twinsMiddle⟩ :=
    firstTwin twin twins (beyond.trans toAfter.suffix)
  obtain ⟨twinAfter, otherSecond, twinsAfter⟩ := secondTwin twinMiddle twinsMiddle beyond
  exact ⟨twinAfter, (Scan.bind_of_ok otherFirst otherNext).trans otherSecond, twinsAfter⟩

theorem Follows.seq {action : Scan α} {other : Scan β} {move : α → β}
    {next : α → Scan γ} {otherNext : β → Scan δ} {moveNext : γ → δ}
    (first : seam.Follows action other move)
    (second : ∀ value, seam.Follows (next value) (otherNext (move value)) moveNext) :
    seam.Follows (action >>= next) (other >>= otherNext) moveNext :=
  first.bind fun _ value _ _ => second value

theorem Follows.ite {condition : Prop} [Decidable condition] {yes no : Scan α}
    {otherYes otherNo : Scan β} {move : α → β}
    (holds : condition → seam.Follows yes otherYes move)
    (fails : ¬ condition → seam.Follows no otherNo move) :
    seam.Follows (if condition then yes else no) (if condition then otherYes else otherNo) move := by
  by_cases decided : condition
  · rw [if_pos decided, if_pos decided]
    exact holds decided
  · rw [if_neg decided, if_neg decided]
    exact fails decided

/-! ## Actions of the reader -/

theorem Follows.position : seam.Follows Scan.position Scan.position (· + seam.shift) := by
  intro reader value after run
  cases run
  refine ⟨.refl reader, fun twin twins _ => ⟨twin, ?_, twins⟩⟩
  simp only [Scan.position, twins.position]

theorem Follows.operandDue : seam.Follows Scan.operandDue Scan.operandDue id := by
  intro reader value after run
  cases run
  refine ⟨.refl reader, fun twin twins _ => ⟨twin, ?_, twins⟩⟩
  simp only [Scan.operandDue, twins.operand, id]

theorem Follows.previous : seam.Follows Scan.previous Scan.previous id := by
  intro reader value after run
  cases run
  refine ⟨.refl reader, fun twin twins _ => ⟨twin, ?_, twins⟩⟩
  simp only [Scan.previous, twins.previous, id]

theorem Follows.expectOperand (due : Bool) :
    seam.Follows (Scan.expectOperand due) (Scan.expectOperand due) id := by
  intro reader value after run
  cases run
  exact ⟨⟨[], rfl, rfl⟩, fun twin twins _ => ⟨_, rfl, twins.rest, twins.position, rfl, twins.previous⟩⟩

theorem Follows.follow (operand : Bool) (previous : Kind) :
    seam.Follows (Scan.follow operand previous) (Scan.follow operand previous) id := by
  intro reader value after run
  cases run
  exact ⟨⟨[], rfl, rfl⟩, fun twin twins _ => ⟨_, rfl, twins.rest, twins.position, rfl, rfl⟩⟩

theorem Follows.require (kind : Kind) (token : Token) (distance : Nat) :
    seam.Follows (Scan.require kind token) (Scan.require kind (token.shift distance)) id :=
  .ite (fun _ => .pure rfl) fun _ => .fail _ _ _

/-! ## Reading -/

theorem Follows.token (mode : Token.Mode) :
    seam.Follows (Scan.token mode) (Scan.token mode) (·.shift seam.shift) := by
  intro reader token after run
  obtain ⟨found, lexed, rfl, rfl⟩ := Scan.token_eq_ok run
  have passes := Reader.passes_past lexed
  refine ⟨⟨_, passes⟩, fun twin twins beyond => ?_⟩
  obtain ⟨back, behind, twinRest, hides⟩ := twins.behind passes.rest.symm beyond
  have again : Token.lex mode twin.rest = .ok (found.before (back ++ seam.right)) := by
    by_cases ended : found.lexeme.whole = []
    · -- Nothing stands behind the end of the text, on either side of it.
      have nothing := Token.lex_rest_of_empty lexed ended
      have whole := Token.lex_append lexed
      rw [show (reader.past found).rest = found.lexeme.rest from rfl, nothing] at behind
      obtain ⟨rfl, empty⟩ := List.append_eq_nil_iff.mp behind.symm
      rw [nothing] at whole
      rw [twinRest, seam.ends empty, List.append_nil, whole, lexed, ← nothing, Token.Lexed.before_rest]
    · rw [twinRest]
      rw [List.append_assoc] at hides
      have fits := hides.of_append.fits ended
      rw [← behind] at fits
      exact Token.lex_congr lexed ended fits
  have position := twins.position
  refine ⟨twin.past (found.before (back ++ seam.right)), ?_, ?_⟩
  · rw [Scan.token_of_lex again]
    simp only [Reader.tokenOf, Token.Lexed.before, Token.shift, Span.shift, position,
      Except.ok.injEq, Prod.mk.injEq, Token.mk.injEq, Span.mk.injEq, true_and, and_true]
    omega
  · refine ⟨⟨back, behind, rfl, hides.of_append⟩, ?_, twins.operand, twins.previous⟩
    simp only [Reader.past, Reader.advance, Token.Lexed.before, position]
    omega

theorem Follows.templatePart (opening : Nat) :
    seam.Follows (Scan.templatePart opening) (Scan.templatePart (opening + seam.shift)) id := by
  intro reader ending after run
  cases part : Token.templatePart reader.rest with
  | error fault => simp [Scan.templatePart, part] at run
  | ok parts =>
      obtain ⟨chars, found, closing, rest⟩ := parts
      simp only [Scan.templatePart, part, Except.ok.injEq, Prod.mk.injEq] at run
      obtain ⟨rfl, rfl⟩ := run
      obtain ⟨split, -, -, congr⟩ := Token.templatePart_extent part
      refine ⟨⟨_, Reader.passes_advance split⟩, fun twin twins beyond => ?_⟩
      obtain ⟨back, rfl, twinRest, hides⟩ := twins.behind split beyond
      refine ⟨twin.advance (chars ++ closing) (back ++ seam.right), ?_,
        twins.advance hides.of_append (chars ++ closing)⟩
      simp only [Scan.templatePart, twinRest, congr]
      rfl

/-- The text between tags is followed if it ends before the seam, or at one behind which both texts begin
alike. -/
theorem twins_elementText {opening : Nat} {reader after twin : Reader}
    (run : Scan.elementText opening reader = .ok ((), after)) (twins : seam.Twins reader twin)
    (beyond : seam.left <:+ after.rest)
    (ended : seam.left = after.rest → seam.left.head? = seam.right.head?) (other : Nat) :
    ∃ twinAfter, Scan.elementText other twin = .ok ((), twinAfter) ∧
      seam.Twins after twinAfter := by
  obtain ⟨more, rfl⟩ := Scan.elementText_eq_ok run
  obtain ⟨back, behind, twinRest, hides⟩ := twins.behind List.takeWhile_append_dropWhile beyond
  have same : (back ++ seam.left).head? = (back ++ seam.right).head? := by
    cases back with
    | nil => exact ended behind.symm
    | cons c back => rfl
  have stops : Token.Stops Scan.isElementText (back ++ seam.right) := by
    refine (Token.stops_dropWhile Scan.isElementText reader.rest).congr ?_
    rw [behind]
    exact same
  have taken : twin.rest.takeWhile Scan.isElementText = reader.rest.takeWhile Scan.isElementText := by
    rw [twinRest, Token.takeWhile_append_of_stops stops, Token.takeWhile_takeWhile_self]
  have dropped : twin.rest.dropWhile Scan.isElementText = back ++ seam.right := by
    rw [twinRest, Token.dropWhile_append_of_stops stops, Token.dropWhile_takeWhile_self]
    rfl
  have goesOn : back ++ seam.right ≠ [] := by
    rw [behind] at more
    intro nothing
    rw [nothing] at same
    exact more (List.head?_eq_none_iff.mp same)
  refine ⟨twin.advance (reader.rest.takeWhile Scan.isElementText) (back ++ seam.right), ?_, ?_⟩
  · simp only [Scan.elementText, taken, dropped, List.isEmpty_iff, goesOn, if_false]
  · rw [behind]
    exact twins.advance hides.of_append _

end Seam

end Relink
