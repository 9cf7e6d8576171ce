import Relink.Proofs.Scan.Enclosure
import Relink.Proofs.Scan.Repeat.Statements

/-!
# Scans around a group

Two scans of a module with different contents of one group. They go side by side up to the group, where they
find the same. If they read the group as a unit they go side by side again behind it, where the one finds at
one offset what the other finds at another. Whether they read it as a unit is told by a third scan, which is
diverted there. `Mirrors` says so of one action; every action of a scan is built from those of this module by
the rules here.
-/

set_option autoImplicit false

namespace Relink

open Scan

/-! ## Relocated results

What is found stays the same at another place, where every offset of it lies elsewhere. -/

def Span.relocate (move : Nat → Nat) (span : Span) : Span := ⟨move span.start, move span.stop⟩

def Token.relocate (move : Nat → Nat) (token : Token) : Token :=
  { token with span := token.span.relocate move }

def ModuleRequest.relocate (move : Nat → Nat) (request : ModuleRequest) : ModuleRequest :=
  { request with specifier := request.specifier.relocate move }

def Statement.relocate (move : Nat → Nat) (statement : Statement) : Statement :=
  ⟨statement.request.map (.relocate move), statement.span.relocate move⟩

@[simp] theorem Token.kind_relocate (move : Nat → Nat) (token : Token) :
    (token.relocate move).kind = token.kind := rfl

/-! ## Exchanges -/

/-- Two contents of one enclosure. -/
structure Exchange extends Enclosure where
  old : Text
  new : Text
  oldCloses : toEnclosure.Closes old
  newCloses : toEnclosure.Closes new

namespace Exchange

variable (exchange : Exchange)

/-- The reader before the group. -/
abbrev place : Reader := exchange.around exchange.old

abbrev otherPlace : Reader := exchange.around exchange.new

/-- Where an offset lies in the other scan. -/
abbrev move : Nat → Nat := exchange.moved exchange.old exchange.new

/-- An offset behind the closing bracket, and the same one in the other scan. -/
def Behind (offset other : Nat) : Prop :=
  ∃ distance, offset = exchange.stop exchange.old + distance ∧
    other = exchange.stop exchange.new + distance

/-- The two scans stand in front of the group; below, behind it. -/
def Before (reader twin : Reader) : Prop :=
  ∃ passed, reader.Passes passed exchange.place ∧
    twin = { reader with rest := passed ++ exchange.otherPlace.rest }

structure After (reader twin : Reader) : Prop where
  rest : twin.rest = reader.rest
  position : exchange.Behind reader.position twin.position
  operand : twin.operand = reader.operand
  previous : twin.previous = reader.previous

/-- A string lies on one side of the group with its quotes. -/
def QuotesFit (token : Token) : Prop :=
  token.kind = .literal .string →
    exchange.move (token.span.start + 1) = exchange.move token.span.start + 1 ∧
      exchange.move (token.span.stop - 1) = exchange.move token.span.stop - 1

/-- A token lies on one side of the group with its quotes, and with the backtick before it if it begins a
template. -/
structure Fits (token : Token) : Prop where
  quotes : exchange.QuotesFit token
  tick : token.kind.isTemplate = true →
    exchange.move (token.span.start - 1) = exchange.move token.span.start - 1

variable {exchange}

theorem Behind.move {offset other : Nat} (behind : exchange.Behind offset other) :
    exchange.move offset = other := by
  obtain ⟨distance, rfl, rfl⟩ := behind
  have some := Text.size_pos (Token.spelling_ne_nil exchange.mark)
  have opened : ¬ exchange.stop exchange.old + distance ≤ exchange.start := by
    simp only [Enclosure.stop]
    omega
  rw [Exchange.move, Enclosure.moved, if_neg opened]
  simp only [Enclosure.stop]
  omega

theorem Behind.add {offset other : Nat} (behind : exchange.Behind offset other) (count : Nat) :
    exchange.Behind (offset + count) (other + count) := by
  obtain ⟨distance, rfl, rfl⟩ := behind
  exact ⟨distance + count, Nat.add_assoc .., Nat.add_assoc ..⟩

/-- The group, before which both texts begin alike. -/
def seam (exchange : Exchange) : Seam where
  left := exchange.place.rest
  right := exchange.otherPlace.rest
  shift := 0
  ends nothing := absurd nothing (exchange.around_ne_nil exchange.old)

theorem Before.twins {reader twin : Reader} (before : exchange.Before reader twin) :
    exchange.seam.Twins reader twin := by
  obtain ⟨passed, passes, rfl⟩ := before
  have alike := exchange.alike exchange.old exchange.new
  exact ⟨⟨passed, passes.rest, rfl, .inr (.inl alike)⟩, rfl, rfl, rfl⟩

theorem before_of_twins {reader twin : Reader} (twins : exchange.seam.Twins reader twin)
    (leads : reader.Leads exchange.place) : exchange.Before reader twin := by
  obtain ⟨passed, passes⟩ := leads
  obtain ⟨front, left, right, -⟩ := twins.rest
  obtain rfl : passed = front := List.append_cancel_right (passes.rest.symm.trans left)
  refine ⟨passed, passes, ?_⟩
  obtain ⟨rest, position, operand, previous⟩ := twin
  cases right
  cases twins.position
  cases twins.operand
  cases twins.previous
  rfl

theorem Before.leads {reader twin : Reader} (before : exchange.Before reader twin) :
    reader.Leads exchange.place :=
  before.imp fun _ => And.left

theorem move_of_leads {reader : Reader} (leads : reader.Leads exchange.place) {offset : Nat}
    (within : offset ≤ reader.position) : exchange.move offset = offset := by
  have near : offset ≤ exchange.start :=
    Nat.le_trans within (Nat.le_trans leads.position_le (Nat.le_add_right ..))
  exact if_pos near

theorem After.advance {reader twin : Reader} (behind : exchange.After reader twin) (chars rest : Text) :
    exchange.After (reader.advance chars rest) (twin.advance chars rest) :=
  ⟨rfl, behind.position.add chars.size, behind.operand, behind.previous⟩

/-- A token that ends before the group is not the end of the text. -/
theorem left_lt_of_token {mode : Token.Mode} {reader after : Reader} {token : Token}
    (run : Scan.token mode reader = .ok (token, after)) (leads : after.Leads exchange.place) :
    after.left < reader.left := by
  obtain ⟨body, lies⟩ := token_at run
  have goesOn : token.kind ≠ .eof := by
    intro ended
    have nothing := leads.suffix
    rw [lies.ended ended, List.suffix_nil] at nothing
    exact exchange.around_ne_nil exchange.old nothing
  have spends := token_spends run
  rw [Token.cost_goesOn goesOn] at spends
  omega

/-- What is read from an offset on moves as a whole. -/
def Together (exchange : Exchange) (start stop other : Nat) : Prop :=
  ∀ count, start + count ≤ stop → exchange.move (start + count) = other + count

theorem Behind.together {start other : Nat} (behind : exchange.Behind start other) (stop : Nat) :
    exchange.Together start stop other :=
  fun count _ => (behind.add count).move

theorem together_of_leads {reader : Reader} (leads : reader.Leads exchange.place) (start : Nat) :
    exchange.Together start reader.position start :=
  fun _ within => move_of_leads leads within

theorem Together.tokenOf {reader twin : Reader} {found : Token.Lexed}
    (together : exchange.Together reader.position (reader.past found).position twin.position) :
    (reader.tokenOf found).relocate exchange.move = twin.tokenOf found := by
  have past : (reader.past found).position = reader.position +
      (found.gap ++ found.lexeme.opening ++ found.lexeme.chars ++ found.lexeme.closing).size := rfl
  simp only [Text.size_append] at past
  have start := together (found.gap.size + found.lexeme.opening.size) (by omega)
  have stop := together (found.gap.size + found.lexeme.opening.size + found.lexeme.chars.size) (by omega)
  simp only [← Nat.add_assoc] at start stop
  simp only [Token.relocate, Span.relocate, Reader.tokenOf, start, stop]

/-- A token moves as a whole, with all of its delimiters. -/
theorem Together.fits {mode : Token.Mode} {reader after : Reader} {token : Token} {other : Nat}
    (together : exchange.Together reader.position after.position other)
    (run : Scan.token mode reader = .ok (token, after)) : exchange.Fits token := by
  obtain ⟨body, lies⟩ := token_at run
  have position := lies.passes.position
  rw [Text.size_append] at position
  have size (goesOn : token.kind ≠ .eof) : 0 < body.size :=
    Text.size_pos fun nothing => goesOn (lies.empty.mpr nothing)
  have first := together reader.gap.size (by omega)
  constructor
  · intro string
    have some := size (by rw [string]; nofun)
    have noTemplate : token.kind.isTemplate = false := by rw [string]; rfl
    have second := together (reader.gap.size + 1) (by omega)
    have last := together (reader.gap.size + body.size) (by omega)
    have secondLast := together (reader.gap.size + (body.size - 1)) (by omega)
    rw [← Nat.add_assoc] at second
    rw [lies.start noTemplate, lies.stop noTemplate, position]
    rw [show reader.position + (reader.gap.size + body.size) - 1 =
      reader.position + (reader.gap.size + (body.size - 1)) by omega]
    omega
  · intro template
    have some := size (by rintro ended; rw [ended] at template; cases template)
    have second := together (reader.gap.size + 1) (by omega)
    rw [← Nat.add_assoc] at second
    rw [lies.template template, second, Nat.add_sub_cancel, first]
    omega

/-! ## Actions side by side -/

section Mirrors

variable (exchange) {α : Type}

/-- Behind the group an action ends as another one does: with the same result, relocated, or with a fault. -/
def Agree (move : α → α) (post : α → Prop) (result other : Except Halt (α × Reader)) : Prop :=
  match result with
  | .ok (value, after) =>
    post value ∧ ∃ twin, other = .ok (move value, twin) ∧ exchange.After after twin
  | .error (.faulty _) => ∃ fault, other = .error (.faulty fault)
  | .error .outOfFuel => True

/-- A diverted action gives up with whatever fault it is given. -/
def Diverts (diverted : SyntaxFault → Scan α) (reader : Reader) : Prop :=
  ∀ fault, diverted fault reader = .error (.faulty fault)

/-- An action, the one beside it in the other scan, and the one that is diverted at the group. The diverted one
is the first one unless it gets to the group. If `given` holds the two others find the same up to the group,
through the group with less than `bound` characters left, and behind it. What they find satisfies `post`. -/
structure Mirrors (bound : Nat) (given : Prop) (diverted : SyntaxFault → Scan α) (action other : Scan α)
    (move : α → α) (post : α → Prop) : Prop where
  parts : ∀ reader, (∀ fault, diverted fault reader = action reader) ∨
    Diverts diverted reader ∧ reader.Leads exchange.place
  leads : ∀ {reader value after}, action reader = .ok (value, after) → reader.Leads after
  before : given → ∀ {reader twin value after}, exchange.Before reader twin →
    action reader = .ok (value, after) → after.Leads exchange.place →
      post value ∧
        ∃ twinAfter, other twin = .ok (move value, twinAfter) ∧ exchange.Before after twinAfter
  meets : given → ∀ {reader twin}, exchange.Before reader twin → reader.left < bound →
    Diverts diverted reader → exchange.Agree move post (action reader) (other twin)
  after : given → ∀ {reader twin}, exchange.After reader twin →
    exchange.Agree move post (action reader) (other twin)

end Mirrors

theorem Agree.forget {α : Type} {move : α → α} {post : α → Prop}
    {result other : Except Halt (α × Reader)} (agree : exchange.Agree move post result other) :
    exchange.Agree move (fun _ => True) result other := by
  match result, agree with
  | .ok _, ⟨_, again⟩ => exact ⟨trivial, again⟩
  | .error (.faulty _), again => exact again
  | .error .outOfFuel, _ => exact trivial

theorem Agree.bind {α β : Type} {action other : Scan α} {move : α → α} {post : α → Prop}
    {next otherNext : α → Scan β} {moveNext : β → β} {postNext : β → Prop} {reader twin : Reader}
    (first : exchange.Agree move post (action reader) (other twin))
    (second : ∀ value after twinAfter, post value → exchange.After after twinAfter →
      exchange.Agree moveNext postNext (next value after) (otherNext (move value) twinAfter)) :
    exchange.Agree moveNext postNext ((action >>= next) reader) ((other >>= otherNext) twin) := by
  simp only [Bind.bind, StateT.bind]
  match ran : action reader with
  | .ok (value, after) =>
      rw [ran] at first
      obtain ⟨holds, twinAfter, again, behind⟩ := first
      rw [again]
      exact second value after twinAfter holds behind
  | .error (.faulty fault) =>
      rw [ran] at first
      obtain ⟨otherFault, again⟩ := first
      rw [again]
      exact ⟨otherFault, rfl⟩
  | .error .outOfFuel => exact trivial

/-- No result is a fault of every kind. -/
theorem not_diverts {α : Type} {action : Scan α} {reader : Reader}
    (diverts : Diverts (fun _ => action) reader) : False := by
  have one := diverts ⟨.unexpectedEnd, ⟨0, 0⟩, none⟩
  have two := diverts ⟨.unexpectedEnd, ⟨0, 1⟩, none⟩
  rw [one] at two
  cases two

namespace Mirrors

variable {α β : Type} {bound : Nat} {given : Prop} {diverted : SyntaxFault → Scan α}
  {action other : Scan α} {move : α → α} {post : α → Prop}

theorem weaken {stronger : Prop} (mirrors : exchange.Mirrors bound given diverted action other move post)
    (implies : stronger → given) : exchange.Mirrors bound stronger diverted action other move post where
  parts := mirrors.parts
  leads := mirrors.leads
  before holds := mirrors.before (implies holds)
  meets holds := mirrors.meets (implies holds)
  after holds := mirrors.after (implies holds)

theorem under (mirrors : exchange.Mirrors bound True diverted action other move post) :
    exchange.Mirrors bound given diverted action other move post :=
  mirrors.weaken fun _ => trivial

theorem forget (mirrors : exchange.Mirrors bound given diverted action other move post) :
    exchange.Mirrors bound given diverted action other move fun _ => True where
  parts := mirrors.parts
  leads := mirrors.leads
  before holds _ _ _ _ before run leads := ⟨trivial, (mirrors.before holds before run leads).2⟩
  meets holds _ _ before fits diverts := (mirrors.meets holds before fits diverts).forget
  after holds _ _ behind := (mirrors.after holds behind).forget

/-- An action that reads no unit is not diverted. -/
theorem plain
    (leads : ∀ {reader value after}, action reader = .ok (value, after) → reader.Leads after)
    (before : given → ∀ {reader twin value after}, exchange.Before reader twin →
      action reader = .ok (value, after) → after.Leads exchange.place →
        post value ∧
          ∃ twinAfter, other twin = .ok (move value, twinAfter) ∧ exchange.Before after twinAfter)
    (after : given → ∀ {reader twin}, exchange.After reader twin →
      exchange.Agree move post (action reader) (other twin)) :
    exchange.Mirrors bound given (fun _ => action) action other move post where
  parts _ := .inl fun _ => rfl
  leads := leads
  before := before
  meets _ _ _ _ _ diverts := (not_diverts diverts).elim
  after := after

/-! ## Rules -/

theorem pure {value moved : α} (same : given → moved = move value ∧ post value) :
    exchange.Mirrors bound given (fun _ => Pure.pure value) (Pure.pure value) (Pure.pure moved) move
      post := by
  apply plain
  · intro reader result after run
    cases run
    exact .refl reader
  · intro holds reader twin result after before run _
    obtain ⟨rfl, fits⟩ := same holds
    cases run
    exact ⟨fits, twin, rfl, before⟩
  · intro holds reader twin behind
    obtain ⟨rfl, fits⟩ := same holds
    exact ⟨fits, twin, rfl, behind⟩

theorem fail (fault otherFault : SyntaxFault) :
    exchange.Mirrors bound given (fun _ => Scan.fail fault) (Scan.fail fault) (Scan.fail otherFault) move
      post := by
  apply plain
  · intro reader value after run
    cases run
  · intro _ reader twin value after _ run
    cases run
  · exact fun _ _ _ _ => ⟨otherFault, rfl⟩

theorem outOfFuel (other : Scan α) :
    exchange.Mirrors bound given (fun _ => Scan.outOfFuel) Scan.outOfFuel other move post := by
  apply plain
  · intro reader value after run
    cases run
  · intro _ reader twin value after _ run
    cases run
  · exact fun _ _ _ _ => trivial

/-- The second of two actions may begin with less characters left, if the first one takes one. -/
theorem bindWithin (less : Nat) {divertedNext : SyntaxFault → α → Scan β}
    {next otherNext : α → Scan β} {moveNext : β → β} {postNext : β → Prop}
    (first : exchange.Mirrors bound given diverted action other move post)
    (spends : ∀ {reader value after}, action reader = .ok (value, after) → after.Leads exchange.place →
      reader.left < bound → after.left < less)
    (second : ∀ value, exchange.Mirrors less (given ∧ post value) (fun fault => divertedNext fault value)
      (next value) (otherNext (move value)) moveNext postNext) :
    exchange.Mirrors bound given (fun fault => diverted fault >>= divertedNext fault) (action >>= next)
      (other >>= otherNext) moveNext postNext where
  parts reader := by
    -- The first action may get to the group; else the second one may, from where the first one ends.
    rcases first.parts reader with same | ⟨diverts, leads⟩
    · match ran : action reader with
      | .error halt => 
          refine .inl fun fault => ?_
          simp only [Bind.bind, StateT.bind, same, ran, Except.bind]
      | .ok (value, after) =>
          have sameNext (fault : SyntaxFault) :
              (diverted fault >>= divertedNext fault) reader = divertedNext fault value after :=
            bind_of_ok ((same fault).trans ran) _
          rcases (second value).parts after with again | ⟨diverts, leads⟩
          · exact .inl fun fault => (sameNext fault).trans ((again fault).trans (bind_of_ok ran _).symm)
          · have divertsBoth (fault : SyntaxFault) := (sameNext fault).trans (diverts fault)
            exact .inr ⟨divertsBoth, (first.leads ran).trans leads⟩
    · refine .inr ⟨fun fault => ?_, leads⟩
      simp only [Bind.bind, StateT.bind, diverts fault, Except.bind]
  leads run := by
    obtain ⟨value, middle, ran, run⟩ := bind_eq_ok run
    exact (first.leads ran).trans ((second value).leads run)
  before holds reader twin result after before run leads := by
    obtain ⟨value, middle, ran, run⟩ := bind_eq_ok run
    obtain ⟨fits, twinMiddle, again, beforeMiddle⟩ :=
      first.before holds before ran (((second value).leads run).trans leads)
    obtain ⟨fitsNext, twinAfter, againNext, beforeAfter⟩ :=
      (second value).before ⟨holds, fits⟩ beforeMiddle run leads
    exact ⟨fitsNext, twinAfter, (bind_of_ok again _).trans againNext, beforeAfter⟩
  meets holds reader twin before within diverts := by
    -- The group is met by the second action, before which both scans stand in front of it, or by the first.
    rcases first.parts reader with same | ⟨divertsFirst, -⟩
    · match ran : action reader with
      | .error halt =>
          have stops : Diverts (fun _ _ => .error halt : SyntaxFault → Scan β) reader := by
            intro fault
            rw [← diverts fault]
            simp only [Bind.bind, StateT.bind, same, ran, Except.bind]
          exact (not_diverts stops).elim
      | .ok (value, middle) =>
          have divertsNext : Diverts (fun fault => divertedNext fault value) middle := fun fault =>
            (bind_of_ok ((same fault).trans ran) _).symm.trans (diverts fault)
          rcases (second value).parts middle with again | ⟨-, leads⟩
          · exact (not_diverts fun fault => (again fault).symm.trans (divertsNext fault)).elim
          · obtain ⟨fits, twinMiddle, again, beforeMiddle⟩ := first.before holds before ran leads
            rw [bind_of_ok ran, bind_of_ok again]
            exact (second value).meets ⟨holds, fits⟩ beforeMiddle (spends ran leads within) divertsNext
    · refine (first.meets holds before within divertsFirst).bind ?_
      exact fun value middle twinMiddle fits behind => (second value).after ⟨holds, fits⟩ behind
  after holds reader twin behind := by
    refine (first.after holds behind).bind ?_
    exact fun value middle twinMiddle fits behind => (second value).after ⟨holds, fits⟩ behind

theorem bind {divertedNext : SyntaxFault → α → Scan β} {next otherNext : α → Scan β}
    {moveNext : β → β} {postNext : β → Prop}
    (first : exchange.Mirrors bound given diverted action other move post)
    (second : ∀ value, exchange.Mirrors bound (given ∧ post value) (fun fault => divertedNext fault value)
      (next value) (otherNext (move value)) moveNext postNext) :
    exchange.Mirrors bound given (fun fault => diverted fault >>= divertedNext fault) (action >>= next)
      (other >>= otherNext) moveNext postNext :=
  first.bindWithin bound
    (fun run _ within => Nat.lt_of_le_of_lt (first.leads run).suffix.length_le within) second

theorem seq {divertedNext : SyntaxFault → α → Scan β} {next otherNext : α → Scan β}
    {moveNext : β → β} {postNext : β → Prop}
    (first : exchange.Mirrors bound given diverted action other move post)
    (second : ∀ value, exchange.Mirrors bound given (fun fault => divertedNext fault value)
      (next value) (otherNext (move value)) moveNext postNext) :
    exchange.Mirrors bound given (fun fault => diverted fault >>= divertedNext fault) (action >>= next)
      (other >>= otherNext) moveNext postNext :=
  first.bind fun value => (second value).weaken And.left

theorem ite {condition : Prop} [Decidable condition] {yesDiverted noDiverted : SyntaxFault → Scan α}
    {yes no otherYes otherNo : Scan α}
    (holds : condition → exchange.Mirrors bound given yesDiverted yes otherYes move post)
    (fails : ¬ condition → exchange.Mirrors bound given noDiverted no otherNo move post) :
    exchange.Mirrors bound given (fun fault => if condition then yesDiverted fault else noDiverted fault)
      (if condition then yes else no) (if condition then otherYes else otherNo) move post := by
  by_cases decided : condition
  · simp only [if_pos decided]
    exact holds decided
  · simp only [if_neg decided]
    exact fails decided

/-! ## Actions of the reader -/

/-- What is followed before a seam is mirrored before the group. -/
theorem of_follows {shifted : α → α} (follows : exchange.seam.Follows action other shifted)
    (same : given → ∀ {reader value after}, action reader = .ok (value, after) →
      after.Leads exchange.place → shifted value = move value ∧ post value)
    (after : given → ∀ {reader twin}, exchange.After reader twin →
      exchange.Agree move post (action reader) (other twin)) :
    exchange.Mirrors bound given (fun _ => action) action other move post := by
  refine plain (fun run => (follows _ _ _ run).1) ?_ after
  intro holds reader twin value after before run leads
  obtain ⟨twinAfter, again, twins⟩ := (follows reader value after run).2 twin before.twins leads.suffix
  obtain ⟨isMoved, fits⟩ := same holds run leads
  rw [isMoved] at again
  exact ⟨fits, twinAfter, again, before_of_twins twins leads⟩

theorem position :
    exchange.Mirrors bound given (fun _ => Scan.position) Scan.position Scan.position exchange.move
      fun _ => True := by
  refine of_follows .position ?_ ?_
  · intro _ reader value after run leads
    cases run
    exact ⟨(move_of_leads leads (Nat.le_refl _)).symm, trivial⟩
  · intro _ reader twin behind
    refine ⟨trivial, twin, ?_, behind⟩
    rw [behind.position.move]
    rfl

theorem operandDue :
    exchange.Mirrors bound given (fun _ => Scan.operandDue) Scan.operandDue Scan.operandDue id
      fun _ => True := by
  refine of_follows .operandDue (fun _ _ _ _ _ _ => ⟨rfl, trivial⟩) ?_
  intro _ reader twin behind
  refine ⟨trivial, twin, ?_, behind⟩
  simp only [Scan.operandDue, behind.operand, id]

theorem previous :
    exchange.Mirrors bound given (fun _ => Scan.previous) Scan.previous Scan.previous id
      fun _ => True := by
  refine of_follows .previous (fun _ _ _ _ _ _ => ⟨rfl, trivial⟩) ?_
  intro _ reader twin behind
  refine ⟨trivial, twin, ?_, behind⟩
  simp only [Scan.previous, behind.previous, id]

theorem expectOperand (due : Bool) :
    exchange.Mirrors bound given (fun _ => Scan.expectOperand due) (Scan.expectOperand due)
      (Scan.expectOperand due) id fun _ => True := by
  refine of_follows (.expectOperand due) (fun _ _ _ _ _ _ => ⟨rfl, trivial⟩) ?_
  exact fun _ _ _ behind => ⟨trivial, _, rfl, behind.rest, behind.position, rfl, behind.previous⟩

theorem follow (operand : Bool) (previous : Kind) :
    exchange.Mirrors bound given (fun _ => Scan.follow operand previous) (Scan.follow operand previous)
      (Scan.follow operand previous) id fun _ => True := by
  refine of_follows (.follow operand previous) (fun _ _ _ _ _ _ => ⟨rfl, trivial⟩) ?_
  exact fun _ _ _ behind => ⟨trivial, _, rfl, behind.rest, behind.position, rfl, rfl⟩

theorem require (kind : Kind) (token : Token) :
    exchange.Mirrors bound given (fun _ => Scan.require kind token) (Scan.require kind token)
      (Scan.require kind (token.relocate exchange.move)) id fun _ => True :=
  .ite (fun _ => .pure fun _ => ⟨rfl, trivial⟩) fun _ => .fail _ _

/-! ## Reading -/

theorem token (mode : Token.Mode) :
    exchange.Mirrors bound given (fun _ => Scan.token mode) (Scan.token mode) (Scan.token mode)
      (.relocate exchange.move) exchange.Fits := by
  refine of_follows (.token mode) ?_ ?_
  · intro _ reader token after run leads
    have together : exchange.Together reader.position after.position reader.position :=
      together_of_leads leads reader.position
    have fits := together.fits run
    obtain ⟨found, lexed, rfl, rfl⟩ := token_eq_ok run
    exact ⟨together.tokenOf.symm, fits⟩
  · intro _ reader twin behind
    cases lexed : Token.lex mode reader.rest with
    | error fault =>
        have again : Token.lex mode twin.rest = .error fault := by rw [behind.rest, lexed]
        simp only [Scan.token, Reader.token, lexed, again]
        exact ⟨_, rfl⟩
    | ok found =>
        have run := token_of_lex lexed
        have again : Scan.token mode twin = _ := token_of_lex (behind.rest ▸ lexed)
        have together := behind.position.together (reader.past found).position
        rw [run, again, ← together.tokenOf]
        exact ⟨together.fits run, twin.past found, rfl, behind.advance _ _⟩

/-- Where a template starts matters only if it never ends. -/
theorem templatePart_opening {opening : Nat} {reader : Reader} {result : Literal × Reader}
    (run : Scan.templatePart opening reader = .ok result) (other : Nat) :
    Scan.templatePart other reader = .ok result := by
  simp only [Scan.templatePart] at run ⊢
  split at run
  · exact run
  · cases run

theorem templatePart (opening otherOpening : Nat) :
    exchange.Mirrors bound given (fun _ => Scan.templatePart opening) (Scan.templatePart opening)
      (Scan.templatePart otherOpening) id fun _ => True := by
  have follows : exchange.seam.Follows (Scan.templatePart opening) (Scan.templatePart (opening + 0)) id :=
    .templatePart opening
  refine plain (fun run => (follows _ _ _ run).1) ?_ ?_
  · intro _ reader twin ending after before run leads
    obtain ⟨twinAfter, again, twins⟩ :=
      (follows reader ending after run).2 twin before.twins leads.suffix
    exact ⟨trivial, twinAfter, templatePart_opening again otherOpening, before_of_twins twins leads⟩
  · intro _ reader twin behind
    simp only [Scan.templatePart, behind.rest]
    cases Token.templatePart reader.rest with
    | error fault => exact ⟨_, rfl⟩
    | ok parts => exact ⟨trivial, _, rfl, behind.advance _ _⟩

theorem elementText (opening otherOpening : Nat) :
    exchange.Mirrors bound given (fun _ => Scan.elementText opening) (Scan.elementText opening)
      (Scan.elementText otherOpening) id fun _ => True := by
  refine plain elementText_leads ?_ ?_
  · intro _ reader twin ending after before run leads
    have same : exchange.seam.left.head? = exchange.seam.right.head? :=
      exchange.head?_around exchange.old exchange.new
    obtain ⟨twinAfter, again, twins⟩ :=
      Seam.twins_elementText run before.twins leads.suffix (fun _ => same) otherOpening
    exact ⟨trivial, twinAfter, again, before_of_twins twins leads⟩
  · intro _ reader twin behind
    simp only [Scan.elementText, behind.rest]
    split
    · exact ⟨_, rfl⟩
    · exact ⟨trivial, _, rfl, behind.advance _ _⟩

end Mirrors

end Exchange

end Relink
