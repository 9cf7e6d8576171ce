import Relink.Proofs.Scan.Extent
import Relink.Scan.Simple
import Relink.Statement

/-!
# Borders

The scan of a statement may read one unit too many. The border of a statement is the place from which
that unit is read: there the statement ends, and a scan that goes on with the pending unit goes on as
if it had just read it from the border. `Closes` says so of a scan, and that beside a seam at the
border the statement ends there as well, whatever unit stands behind the seam, as long as it resembles
the first one.
-/

set_option autoImplicit false

namespace Relink

open Scan

/-! ## Units that stand for each other -/

/-- The first token may be replaced by the second one behind a statement: at most it stands on a new
line where the first one does not. -/
structure Token.Resembles (token other : Token) : Prop where
  kind : other.kind = token.kind
  lexeme : other.lexeme = token.lexeme
  onNewLine : token.onNewLine = true → other.onNewLine = true

theorem Token.Resembles.shift (token : Token) (distance : Nat) :
    token.Resembles (token.shift distance) := ⟨rfl, rfl, id⟩

theorem Token.Resembles.isPunctuator {token other : Token} (resembles : token.Resembles other)
    (p : Punctuator) : other.isPunctuator p = token.isPunctuator p := by
  simp only [Token.isPunctuator, resembles.kind]

theorem Token.Resembles.isKeyword {token other : Token} (resembles : token.Resembles other)
    (word : Keyword) : other.isKeyword word = token.isKeyword word := by
  simp only [Token.isKeyword, resembles.kind]

theorem Token.Resembles.isWord {token other : Token} (resembles : token.Resembles other)
    (word : String) : other.isWord word = token.isWord word := by
  simp only [Token.isWord, resembles.kind, resembles.lexeme]

namespace Scan

/-- A scanned part of a module and the unit behind it, read before or only now. -/
def resume (unit : Scan Token) (ending : Scan Ending) : Scan (Nat × Token) := do
  let ended ← ending
  let next ← pendingOr unit ended.pending
  pure (ended.stop, next)

end Scan

/-- What is scanned lies in the module: it has an end, and it may stand later. -/
class Located (α : Type) where
  stop : α → Nat
  shift : α → Nat → α

instance : Located Nat := ⟨id, (· + ·)⟩

instance : Located Statement := ⟨(·.span.stop), Statement.shift⟩

@[simp] theorem Statement.shift_zero (statement : Statement) : statement.shift 0 = statement := by
  obtain ⟨request, span⟩ := statement
  cases request <;> rfl

/-! ## Borders -/

/-- Where a seam at a border goes on. -/
def Seam.across (seam : Seam) (border : Reader) : Reader :=
  ⟨seam.right, border.position + seam.shift, border.operand, border.previous⟩

/-- How a scan that began at `reader` ends before `next`. `marked` says that a closing mark stands
before `reader`. -/
structure Border (depth : Nat) (marked : Prop) (reader : Reader) (stop : Nat) (next : Token)
    (after : Reader) (passed : Text) (border past : Reader) : Prop where
  passes : reader.Passes passed border
  stop : stop = border.position
  read : unit depth border = .ok (next, past)
  after : after = { past with operand := after.operand }
  mark : next.onNewLine = true ∨ next.kind = .eof ∨ Text.Sealed passed ∨ passed = [] ∧ marked

variable {depth otherDepth : Nat} {marked : Prop} {α β : Type} [Located α]

/-- A scan ends before a border, and so does `other` beside a seam at that border. -/
def Closes (depth otherDepth : Nat) (marked : Prop) (reader : Reader) (action : Scan (α × Token))
    (other : Nat → Scan (α × Token)) : Prop :=
  ∀ value next after, action reader = .ok ((value, next), after) →
    ∃ passed border past,
      Border depth marked reader (Located.stop value) next after passed border past ∧
        ∀ (seam : Seam) twin, seam.left = border.rest → seam.Twins reader twin →
          ∀ otherNext otherPast, unit otherDepth (seam.across border) = .ok (otherNext, otherPast) →
            next.Resembles otherNext →
              other seam.shift twin = .ok ((Located.shift value seam.shift, otherNext),
                { otherPast with operand := after.operand })

/-- The same of a scan that goes on at `middle` behind a unit that was read at `reader`. -/
def ClosesFrom (depth otherDepth : Nat) (marked : Prop) (reader : Reader) (token : Token)
    (middle : Reader) (action : Scan (α × Token)) (other : Nat → Token → Scan (α × Token)) : Prop :=
  ∀ value next after, action middle = .ok ((value, next), after) →
    ∃ passed border past,
      Border depth marked reader (Located.stop value) next after passed border past ∧
        ∀ (seam : Seam) twin, seam.left = border.rest → seam.Twins reader twin →
          ∀ otherNext otherPast, unit otherDepth (seam.across border) = .ok (otherNext, otherPast) →
            next.Resembles otherNext →
              ∃ otherToken otherMiddle, unit otherDepth twin = .ok (otherToken, otherMiddle) ∧
                token.Resembles otherToken ∧
                  other seam.shift otherToken otherMiddle =
                    .ok ((Located.shift value seam.shift, otherNext),
                      { otherPast with operand := after.operand })

theorem Seam.Twins.eq_across {seam : Seam} {reader twin : Reader}
    (twins : seam.Twins reader twin) (here : seam.left = reader.rest) : twin = seam.across reader := by
  obtain ⟨before, left, right, -⟩ := twins.rest
  have empty : before = [] := by
    rw [← here] at left
    exact List.self_eq_append_left.mp left
  subst empty
  cases twin
  simp only [Seam.across, Reader.mk.injEq]
  exact ⟨right, twins.position, twins.operand, twins.previous⟩

theorem Border.leads {reader after border past : Reader} {stop : Nat} {next : Token} {passed : Text}
    (is : Border depth marked reader stop next after passed border past) : reader.Leads after := by
  have toPast : reader.Leads past := .trans ⟨passed, is.passes⟩ (unit_leads is.read)
  rw [is.after]
  obtain ⟨all, passes⟩ := toPast
  exact ⟨all, passes.rest, passes.position⟩

theorem operand_of_resembles {seam : Seam} {border past otherPast : Reader} {next otherNext : Token}
    (read : unit depth border = .ok (next, past))
    (otherRead : unit otherDepth (seam.across border) = .ok (otherNext, otherPast))
    (resembles : next.Resembles otherNext) : otherPast.operand = past.operand := by
  obtain ⟨body, lies⟩ := unit_at read
  obtain ⟨otherBody, otherLies⟩ := unit_at otherRead
  rw [lies.operand, otherLies.operand, resembles.kind]
  rfl

theorem Closes.mono {weaker : Prop} {reader : Reader} {action : Scan (α × Token)}
    {other : Nat → Scan (α × Token)} (closes : Closes depth otherDepth marked reader action other)
    (implies : marked → weaker) : Closes depth otherDepth weaker reader action other := by
  intro value next after run
  obtain ⟨passed, border, past, is, beside⟩ := closes value next after run
  refine ⟨passed, border, past, ⟨is.passes, is.stop, is.read, is.after, ?_⟩, beside⟩
  exact is.mark.imp_right (·.imp_right (·.imp_right (·.imp_right implies)))

/-- Beside a seam that lies behind the unit after the border, that unit is the same, shifted. -/
theorem Closes.follows (deeper : depth ≤ otherDepth) {reader after : Reader}
    {action : Scan (α × Token)} {other : Nat → Scan (α × Token)} {value : α} {next : Token}
    (closes : Closes depth otherDepth marked reader action other)
    (run : action reader = .ok ((value, next), after)) {seam : Seam} {twin : Reader}
    (twins : seam.Twins reader twin) (beyond : seam.left <:+ after.rest) :
    ∃ twinAfter, other seam.shift twin =
        .ok ((Located.shift value seam.shift, next.shift seam.shift), twinAfter) ∧
      seam.Twins after twinAfter := by
  obtain ⟨passed, border, past, is, beside⟩ := closes value next after run
  have samePast : after.rest = past.rest := by rw [is.after]
  rw [samePast] at beyond
  have fromBorder := beyond.trans (unit_leads is.read).suffix
  obtain ⟨back, behind, twinRest, hides⟩ := twins.behind is.passes.rest.symm fromBorder
  -- The seam is moved back to the border, behind which both texts begin alike.
  have ends : back ++ seam.left = [] → back ++ seam.right = [] := by
    intro empty
    obtain ⟨rfl, left⟩ := List.append_eq_nil_iff.mp empty
    rw [seam.ends left]
    rfl
  let near : Seam := ⟨back ++ seam.left, back ++ seam.right, seam.shift, ends⟩
  have nearTwins : near.Twins reader twin := by
    refine ⟨⟨passed, by rw [is.passes.rest, behind], twinRest, ?_⟩, twins.position, twins.operand,
      twins.previous⟩
    by_cases nothing : passed = []
    · exact .inl nothing
    · exact .inr (hides.fits nothing)
  have borderTwins : seam.Twins border (near.across border) :=
    ⟨⟨back, behind, rfl, hides.of_append⟩, rfl, rfl, rfl⟩
  have units : seam.Follows (unit depth) (unit otherDepth) (·.shift seam.shift) := .unit deeper
  obtain ⟨otherPast, otherRead, pastTwins⟩ :=
    (units border next past is.read).2 (near.across border) borderTwins beyond
  refine ⟨_, beside near twin behind.symm nearTwins _ otherPast otherRead (.shift next _), ?_⟩
  rw [is.after]
  exact ⟨pastTwins.rest, pastTwins.position, rfl, pastTwins.previous⟩

/-! ## Rules -/

theorem Closes.next {reader : Reader} {value : α} (stop : Located.stop value = reader.position)
    (holds : marked) :
    Closes depth otherDepth marked reader (unit depth >>= fun next => pure (value, next))
      (fun distance => unit otherDepth >>= fun next => pure (Located.shift value distance, next)) := by
  intro result next after run
  obtain ⟨token, past, read, run⟩ := bind_eq_ok run
  cases run
  refine ⟨[], reader, after, ⟨.refl reader, stop, read, rfl, .inr (.inr (.inr ⟨rfl, holds⟩))⟩, ?_⟩
  intro seam twin here twins otherNext otherPast otherRead resembles
  have same := operand_of_resembles read otherRead resembles
  rw [twins.eq_across here, ← same]
  exact bind_of_ok otherRead _

theorem Closes.seq {γ : Type} {reader : Reader} {action : Scan β} {otherAction : Nat → Scan γ}
    {next : β → Scan (α × Token)} {otherNext : Nat → γ → Scan (α × Token)} (move : Nat → β → γ)
    (first : ∀ seam : Seam, seam.Follows action (otherAction seam.shift) (move seam.shift))
    (second : ∀ value middle passed, action reader = .ok (value, middle) →
      reader.Passes passed middle →
        Closes depth otherDepth (Text.Sealed passed ∨ passed = [] ∧ marked) middle (next value)
          (fun distance => otherNext distance (move distance value))) :
    Closes depth otherDepth marked reader (action >>= next)
      (fun distance => otherAction distance >>= otherNext distance) := by
  intro result token after run
  obtain ⟨value, middle, firstRun, secondRun⟩ := bind_eq_ok run
  obtain ⟨passed, passes⟩ := (first Seam.atEnd).leads firstRun
  obtain ⟨more, border, past, is, beside⟩ :=
    second value middle passed firstRun passes result token after secondRun
  refine ⟨passed ++ more, border, past,
    ⟨passes.trans is.passes, is.stop, is.read, is.after, ?_⟩, ?_⟩
  · rcases is.mark with newLine | ended | closed | ⟨rfl, closed | ⟨rfl, holds⟩⟩
    · exact .inl newLine
    · exact .inr (.inl ended)
    · exact .inr (.inr (.inl (closed.append passed)))
    · exact .inr (.inr (.inl (by simpa using closed)))
    · exact .inr (.inr (.inr ⟨rfl, holds⟩))
  · intro seam twin here twins token' past' read resembles
    have beyond : seam.left <:+ middle.rest := by
      rw [here, is.passes.rest]
      exact List.suffix_append ..
    obtain ⟨twinMiddle, otherFirst, twinsMiddle⟩ :=
      (first seam reader value middle firstRun).2 twin twins beyond
    exact (bind_of_ok otherFirst _).trans
      (beside seam twinMiddle here twinsMiddle token' past' read resembles)

/-- A scan goes on behind a border, or it ends there. -/
theorem Closes.andThen [Located β] (deeper : depth ≤ otherDepth) {reader : Reader}
    {action : Scan (β × Token)} {other : Nat → Scan (β × Token)}
    {next : β × Token → Scan (α × Token)} {otherNext : Nat → β × Token → Scan (α × Token)}
    (first : Closes depth otherDepth marked reader action other)
    (second : ∀ value token middle, action reader = .ok ((value, token), middle) →
      Closes depth otherDepth False middle (next (value, token))
          (fun distance =>
            otherNext distance (Located.shift value distance, token.shift distance)) ∨
        ∃ result : α, next (value, token) = pure (result, token) ∧
          Located.stop result = Located.stop value ∧
            ∀ distance otherToken, token.Resembles otherToken →
              otherNext distance (Located.shift value distance, otherToken) =
                pure (Located.shift result distance, otherToken)) :
    Closes depth otherDepth marked reader (action >>= next)
      (fun distance => other distance >>= otherNext distance) := by
  intro result token after run
  obtain ⟨⟨value, pending⟩, middle, firstRun, secondRun⟩ := bind_eq_ok run
  -- Where the second action reads on, its border is that of both; else it is the border of the first one.
  rcases second value pending middle firstRun with goesOn | ⟨here, ends, stop, resembling⟩
  · obtain ⟨passed, passes⟩ : reader.Leads middle := by
      obtain ⟨before, border, past, is, -⟩ := first value pending middle firstRun
      exact is.leads
    obtain ⟨more, border, past, is, beside⟩ := goesOn result token after secondRun
    refine ⟨passed ++ more, border, past,
      ⟨passes.trans is.passes, is.stop, is.read, is.after, ?_⟩, ?_⟩
    · rcases is.mark with newLine | ended | closed | ⟨-, none⟩
      · exact .inl newLine
      · exact .inr (.inl ended)
      · exact .inr (.inr (.inl (closed.append passed)))
      · exact none.elim
    · intro seam twin here twins token' past' read resembles
      have beyond : seam.left <:+ middle.rest := by
        rw [here, is.passes.rest]
        exact List.suffix_append ..
      obtain ⟨twinMiddle, otherFirst, twinsMiddle⟩ := first.follows deeper firstRun twins beyond
      exact (bind_of_ok otherFirst _).trans
        (beside seam twinMiddle here twinsMiddle token' past' read resembles)
  · rw [ends] at secondRun
    cases secondRun
    obtain ⟨passed, border, past, is, beside⟩ := first value token after firstRun
    refine ⟨passed, border, past, ⟨is.passes, stop.trans is.stop, is.read, is.after, is.mark⟩, ?_⟩
    intro seam twin here twins token' past' read resembles
    refine (bind_of_ok (beside seam twin here twins token' past' read resembles) _).trans ?_
    simp only [resembling seam.shift token' resembles]
    rfl

/-! ## Rules behind a unit -/

theorem ClosesFrom.here {reader middle : Reader} {token : Token} {value : α} (operand : Bool)
    {action : Scan (α × Token)} {other : Nat → Token → Scan (α × Token)}
    (read : unit depth reader = .ok (token, middle)) (stop : Located.stop value = reader.position)
    (mark : token.onNewLine = true ∨ token.kind = .eof ∨ marked)
    (ends : action middle = .ok ((value, token), { middle with operand := operand }))
    (others : ∀ distance otherToken otherMiddle, token.Resembles otherToken →
      otherMiddle.operand = middle.operand →
        other distance otherToken otherMiddle = .ok ((Located.shift value distance, otherToken),
          { otherMiddle with operand := operand })) :
    ClosesFrom depth otherDepth marked reader token middle action other := by
  intro result next after run
  rw [ends] at run
  cases run
  refine ⟨[], reader, middle, ⟨.refl reader, stop, read, rfl, ?_⟩, ?_⟩
  · rcases mark with newLine | ended | holds
    · exact .inl newLine
    · exact .inr (.inl ended)
    · exact .inr (.inr (.inr ⟨rfl, holds⟩))
  · intro seam twin here twins otherNext otherPast otherRead resembles
    have same := operand_of_resembles read otherRead resembles
    rw [twins.eq_across here]
    exact ⟨otherNext, otherPast, otherRead, resembles,
      others seam.shift otherNext otherPast resembles same⟩

theorem ClosesFrom.beyond (deeper : depth ≤ otherDepth) {reader middle : Reader} {token : Token}
    {action : Scan (α × Token)} {other : Nat → Token → Scan (α × Token)}
    (read : unit depth reader = .ok (token, middle))
    (closes : ∀ body, UnitAt reader token body middle →
      Closes depth otherDepth (Text.Sealed body) middle action
        (fun distance => other distance (token.shift distance))) :
    ClosesFrom depth otherDepth marked reader token middle action other := by
  intro result next after run
  obtain ⟨body, lies⟩ := unit_at read
  obtain ⟨passed, border, past, is, beside⟩ := closes body lies result next after run
  refine ⟨_, border, past, ⟨lies.passes.trans is.passes, is.stop, is.read, is.after, ?_⟩, ?_⟩
  · rcases is.mark with newLine | ended | closed | ⟨rfl, closed⟩
    · exact .inl newLine
    · exact .inr (.inl ended)
    · exact .inr (.inr (.inl (closed.append _)))
    · exact .inr (.inr (.inl (by simpa using closed.append _)))
  · intro seam twin here twins otherNext otherPast otherRead resembles
    have beyond : seam.left <:+ middle.rest := by
      rw [here, is.passes.rest]
      exact List.suffix_append ..
    have units : seam.Follows (unit depth) (unit otherDepth) (·.shift seam.shift) := .unit deeper
    obtain ⟨otherMiddle, otherToken, twinsMiddle⟩ :=
      (units reader token middle read).2 twin twins beyond
    exact ⟨_, otherMiddle, otherToken, .shift token _,
      beside seam otherMiddle here twinsMiddle otherNext otherPast otherRead resembles⟩

theorem Closes.of_from {reader : Reader} {next : Token → Scan (α × Token)}
    {otherNext : Nat → Token → Scan (α × Token)}
    (closes : ∀ token middle, unit depth reader = .ok (token, middle) →
      ClosesFrom depth otherDepth marked reader token middle (next token) otherNext) :
    Closes depth otherDepth marked reader (unit depth >>= next)
      (fun distance => unit otherDepth >>= otherNext distance) := by
  intro result token after run
  obtain ⟨first, middle, read, run⟩ := bind_eq_ok run
  obtain ⟨passed, border, past, is, beside⟩ := closes first middle read result token after run
  refine ⟨passed, border, past, is, ?_⟩
  intro seam twin here twins token' past' otherRead resembles
  obtain ⟨otherFirst, otherMiddle, firstRead, -, run⟩ :=
    beside seam twin here twins token' past' otherRead resembles
  exact (bind_of_ok firstRead _).trans run

theorem ClosesFrom.congr {reader middle : Reader} {token : Token} {action : Scan (α × Token)}
    {other same : Nat → Token → Scan (α × Token)}
    (closes : ClosesFrom depth otherDepth marked reader token middle action other)
    (equal : ∀ distance otherToken, token.Resembles otherToken →
      same distance otherToken = other distance otherToken) :
    ClosesFrom depth otherDepth marked reader token middle action same := by
  intro result next after run
  obtain ⟨passed, border, past, is, beside⟩ := closes result next after run
  refine ⟨passed, border, past, is, ?_⟩
  intro seam twin here twins otherNext otherPast otherRead resembles
  obtain ⟨otherToken, otherMiddle, firstRead, firstResembles, run⟩ :=
    beside seam twin here twins otherNext otherPast otherRead resembles
  refine ⟨otherToken, otherMiddle, firstRead, firstResembles, ?_⟩
  rw [equal seam.shift otherToken firstResembles, run]

theorem Closes.of_failing {reader : Reader} {action : Scan (α × Token)}
    (fails : ∀ result, action reader ≠ .ok result) (other : Nat → Scan (α × Token)) :
    Closes depth otherDepth marked reader action other :=
  fun value next after run => absurd run (fails ((value, next), after))

theorem ClosesFrom.of_failing {reader middle : Reader} {token : Token}
    {action : Scan (α × Token)} (fails : ∀ result, action middle ≠ .ok result)
    (other : Nat → Token → Scan (α × Token)) :
    ClosesFrom depth otherDepth marked reader token middle action other :=
  fun value next after run => absurd run (fails ((value, next), after))

theorem Closes.ite {reader : Reader} {condition : Prop} [Decidable condition]
    {yes no : Scan (α × Token)} {otherYes otherNo : Nat → Scan (α × Token)}
    (holds : condition → Closes depth otherDepth marked reader yes otherYes)
    (fails : ¬ condition → Closes depth otherDepth marked reader no otherNo) :
    Closes depth otherDepth marked reader (if condition then yes else no)
      fun distance => if condition then otherYes distance else otherNo distance := by
  by_cases decided : condition
  · simp only [if_pos decided]
    exact holds decided
  · simp only [if_neg decided]
    exact fails decided

end Relink
