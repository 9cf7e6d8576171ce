import Relink.Proofs.Scan.Join
import Relink.Proofs.Scan.Request

/-!
# Endings

A scan passes over the units between its reader and its border, all of them and none of them twice. If the
last of these is a semicolon the scan has ended there: where another text joins behind the semicolon it
goes on with whatever unit that text begins with, and fails as the unit does. Two words reach beyond a
semicolon: an `else`, which belongs to the `if` before it, and an `export default`, for which the semicolon
is the value.
-/

set_option autoImplicit false

namespace Relink

open Scan

/-- Units that end with an `export default` that has a semicolon for its value. -/
def Unvalued (units : List Token) : Prop :=
  [.keyword .exportWord, .keyword .defaultWord, .punctuator .semicolon] <:+ units.map (·.kind)

theorem Unvalued.behind {units : List Token} (valued : Unvalued units) (before : List Token) :
    Unvalued (before ++ units) := by
  rw [Unvalued, List.map_append]
  exact valued.trans (List.suffix_append ..)

theorem Scan.bind_of_error {α β : Type} {action : Scan α} {reader : Reader} {halt : Halt}
    (run : action reader = .error halt) (next : α → Scan β) : (action >>= next) reader = .error halt := by
  simp only [bind, StateT.bind, run, Except.bind]

theorem Scan.bind_pure_run {α β : Type} (action : Scan α) (move : α → β) (reader : Reader) :
    (action >>= fun value => pure (move value)) reader =
      (action reader).map fun parts => (move parts.1, parts.2) := by
  cases run : action reader with
  | error halt => exact bind_of_error run _
  | ok parts =>
      rw [bind_of_ok run]
      rfl

variable {depth otherDepth : Nat} {before : List Token} {α β : Type} [Located α]

/-- A reader stands within a statement behind the units `before`: behind no semicolon but the value of an
`export default`, and not at the end of the module. -/
structure Midway (before : List Token) (reader : Reader) : Prop where
  semicolon : reader.previous = .punctuator .semicolon → Unvalued before
  noEnd : reader.previous ≠ .eof

theorem Token.Before.midway {token : Token} {reader : Reader} (stands : token.Before reader)
    (other : token.kind ≠ .punctuator .semicolon) (noEnd : token.kind ≠ .eof) :
    Midway before reader where
  semicolon := fun isSemicolon => absurd isSemicolon (stands.previous_ne_semicolon other)
  noEnd := stands.previous_ne_eof noEnd

/-- Where a scan ends, past `units`, before `next`. -/
structure StopsAt (depth : Nat) (reader : Reader) (stop : Nat) (next : Token) (after : Reader)
    (units : List Token) (border past : Reader) : Prop where
  units : Units reader units border
  stop : stop = border.position
  read : unit depth border = .ok (next, past)
  notes : past.Notes after

/-- How a scan that began at `reader` ends before `next`, past `units`. -/
structure EndedAt (depth : Nat) (reader : Reader) (stop : Nat) (next : Token) (after : Reader)
    (units : List Token) (border past : Reader) : Prop where
  units : Units reader units border
  stop : stop = border.position
  noEnd : border.previous ≠ .eof
  read : unit depth border = .ok (next, past)
  notes : past.Notes after

theorem EndedAt.stopsAt {reader after border past : Reader} {stop : Nat} {next : Token}
    {units : List Token} (is : EndedAt depth reader stop next after units border past) :
    StopsAt depth reader stop next after units border past :=
  ⟨is.units, is.stop, is.read, is.notes⟩

/-- Where another text joins a scan goes on as a reader of that text does. If that text begins with a unit,
it is `valued` what stands before it. -/
def GoesOn (otherDepth : Nat) (valued : Prop) (reader border : Reader) (value : α)
    (other : Nat → Scan (α × Token)) : Prop :=
  ∀ (join : Join border) twin, join.Meets reader twin →
    (∀ next past, unit otherDepth join.place = .ok (next, past) →
      next.isKeyword .elseWord = false ∧ valued) →
      other join.shift twin = (unit otherDepth join.place).map fun parts =>
        ((Located.shift value join.shift, parts.1), parts.2)

/-- A scan behind the units `before` ends before a border, and there it goes on behind a semicolon. -/
def Ends (depth otherDepth : Nat) (before : List Token) (reader : Reader)
    (action : Scan (α × Token)) (other : Nat → Scan (α × Token)) : Prop :=
  ∀ value next after, action reader = .ok ((value, next), after) →
    ∃ units border past, EndedAt depth reader (Located.stop value) next after units border past ∧
      (border.previous = .punctuator .semicolon →
        GoesOn otherDepth (¬ Unvalued (before ++ units)) reader border value other)

/-! ## Rules -/

theorem Ends.of_failing {reader : Reader} {action : Scan (α × Token)}
    (fails : ∀ result, action reader ≠ .ok result) (other : Nat → Scan (α × Token)) :
    Ends depth otherDepth before reader action other :=
  fun value next after run => absurd run (fails ((value, next), after))

theorem Ends.ite {reader : Reader} {condition : Prop} [Decidable condition]
    {yes no : Scan (α × Token)} {otherYes otherNo : Nat → Scan (α × Token)}
    (holds : condition → Ends depth otherDepth before reader yes otherYes)
    (fails : ¬ condition → Ends depth otherDepth before reader no otherNo) :
    Ends depth otherDepth before reader (if condition then yes else no)
      fun distance => if condition then otherYes distance else otherNo distance := by
  by_cases decided : condition
  · simp only [if_pos decided]
    exact holds decided
  · simp only [if_neg decided]
    exact fails decided

theorem Ends.next {reader : Reader} {value : α} (stop : Located.stop value = reader.position)
    (noEnd : reader.previous ≠ .eof) :
    Ends depth otherDepth before reader (unit depth >>= fun next => pure (value, next))
      (fun distance => unit otherDepth >>= fun next => pure (Located.shift value distance, next)) := by
  intro result next after run
  obtain ⟨token, past, read, run⟩ := bind_eq_ok run
  cases run
  refine ⟨[], reader, after, ⟨.refl reader, stop, noEnd, read, .refl after⟩, fun _ => ?_⟩
  intro join twin meets _
  rw [meets.eq_place]
  exact bind_pure_run (unit otherDepth) (fun next => (Located.shift value join.shift, next)) _

/-- Behind an action that ends with no semicolon. -/
theorem Ends.seq {γ : Type} {reader : Reader} {action : Scan β} {otherAction : Nat → Scan γ}
    {next : β → Scan (α × Token)} {otherNext : Nat → γ → Scan (α × Token)} (move : Nat → β → γ)
    (first : ∀ seam : Seam, seam.Follows action (otherAction seam.shift) (move seam.shift))
    (second : ∀ value middle, action reader = .ok (value, middle) →
      middle.previous ≠ .punctuator .semicolon ∧ ∃ units, Units reader units middle ∧
        Ends depth otherDepth (before ++ units) middle (next value)
          (fun distance => otherNext distance (move distance value))) :
    Ends depth otherDepth before reader (action >>= next)
      (fun distance => otherAction distance >>= otherNext distance) := by
  intro result token after run
  obtain ⟨value, middle, firstRun, secondRun⟩ := bind_eq_ok run
  obtain ⟨unended, units, front, ends⟩ := second value middle firstRun
  obtain ⟨more, border, past, is, goesOn⟩ := ends result token after secondRun
  refine ⟨units ++ more, border, past,
    ⟨front.append is.units, is.stop, is.noEnd, is.read, is.notes⟩, ?_⟩
  intro semicolon join twin meets begins
  rw [← List.append_assoc] at begins
  have goesPast : more ≠ [] := by
    rintro rfl
    cases is.units with
    | nil notes => exact unended (notes.previous.symm.trans semicolon)
  obtain ⟨twins, beyond⟩ := meets.twins front.leads is.units goesPast semicolon
  obtain ⟨twinMiddle, otherFirst, twinsMiddle⟩ :=
    (first join.seam reader value middle firstRun).2 twin twins beyond
  exact (bind_of_ok otherFirst _).trans
    (goesOn semicolon join twinMiddle (.before twinsMiddle) begins)

theorem Ends.unit (deeper : depth ≤ otherDepth) {reader : Reader} {next : Token → Scan (α × Token)}
    {otherNext : Nat → Token → Scan (α × Token)}
    (rest : ∀ token middle, unit depth reader = .ok (token, middle) →
      Ends depth otherDepth (before ++ [token]) middle (next token)
        (fun distance => otherNext distance (token.shift distance))) :
    Ends depth otherDepth before reader (Scan.unit depth >>= next)
      (fun distance => Scan.unit otherDepth >>= otherNext distance) := by
  intro result found after run
  obtain ⟨token, middle, read, run⟩ := bind_eq_ok run
  obtain ⟨more, border, past, is, goesOn⟩ := rest token middle read result found after run
  refine ⟨token :: more, border, past,
    ⟨.cons (.refl reader) read is.units, is.stop, is.noEnd, is.read, is.notes⟩, ?_⟩
  intro semicolon join twin meets begins
  rw [List.append_cons] at begins
  obtain ⟨twinMiddle, otherRead, meetsMiddle⟩ := meets.unit deeper read is.units semicolon
  exact (bind_of_ok otherRead _).trans (goesOn semicolon join twinMiddle meetsMiddle begins)

theorem Ends.require {reader : Reader} {kind : Kind} {token : Token} {next : Scan (α × Token)}
    {otherNext : Nat → Scan (α × Token)}
    (rest : token.kind = kind → Ends depth otherDepth before reader next otherNext) :
    Ends depth otherDepth before reader (Scan.require kind token >>= fun _ => next)
      (fun distance => Scan.require kind (token.shift distance) >>= fun _ => otherNext distance) := by
  by_cases isKind : token.kind = kind
  · simp only [Scan.require, Token.kind_shift, isKind, if_true, pure_bind]
    exact rest isKind
  · refine .of_failing (fun result run => ?_) _
    obtain ⟨⟨⟩, middle, required, -⟩ := bind_eq_ok run
    rw [Scan.require, if_neg isKind] at required
    cases required

/-! ## Rules behind a unit -/

/-- How a scan ends that goes on behind `token`, which was read at `reader`: before a border beyond the
token or, within a statement, before the token itself. -/
inductive EndsBehind (depth otherDepth : Nat) (before : List Token) (reader : Reader) (token : Token)
    (middle : Reader) (action : Scan (α × Token)) (other : Nat → Scan (α × Token)) : Prop where
  | beyond : Ends depth otherDepth (before ++ [token]) middle action other →
      EndsBehind depth otherDepth before reader token middle action other
  | here {value : α} {noted : Reader} : Located.stop value = reader.position →
      Midway before reader → middle.Notes noted → action middle = .ok ((value, token), noted) →
        EndsBehind depth otherDepth before reader token middle action other
  | failing : (∀ result, action middle ≠ .ok result) →
      EndsBehind depth otherDepth before reader token middle action other

theorem Ends.of_behind (deeper : depth ≤ otherDepth) {reader : Reader}
    {next : Token → Scan (α × Token)} {otherNext : Nat → Token → Scan (α × Token)}
    (rest : ∀ token middle, Scan.unit depth reader = .ok (token, middle) →
      EndsBehind depth otherDepth before reader token middle (next token)
        (fun distance => otherNext distance (token.shift distance))) :
    Ends depth otherDepth before reader (Scan.unit depth >>= next)
      (fun distance => Scan.unit otherDepth >>= otherNext distance) := by
  intro result found after run
  obtain ⟨token, middle, read, ends⟩ := bind_eq_ok run
  cases rest token middle read with
  | beyond later =>
      have whole : Ends depth otherDepth before reader (Scan.unit depth >>= next)
          (fun distance => Scan.unit otherDepth >>= otherNext distance) := by
        apply Ends.unit deeper
        intro other behind again
        rw [read] at again
        cases again
        exact later
      exact whole result found after run
  | here stop midway notes done =>
      rw [done] at ends
      cases ends
      refine ⟨[], reader, middle, ⟨.refl reader, stop, midway.noEnd, read, notes⟩,
        fun semicolon join twin meets begins => ?_⟩
      rw [List.append_nil] at begins
      -- A unit behind the semicolon would belong to the value that the semicolon is.
      rw [meets.eq_place]
      cases other : Scan.unit otherDepth join.place with
      | error halt => exact bind_of_error other _
      | ok parts => exact absurd (midway.semicolon semicolon) (begins parts.1 parts.2 other).2
  | failing fails => exact absurd ends (fails _)

/-! ## Results -/

theorem Ends.map [Located β] {reader : Reader} {action : Scan (α × Token)}
    {other : Nat → Scan (α × Token)} (ends : Ends depth otherDepth before reader action other)
    (move : α → β) (otherMove : Nat → α → β)
    (stop : ∀ value, Located.stop (move value) = Located.stop value)
    (moved : ∀ distance value,
      otherMove distance (Located.shift value distance) = Located.shift (move value) distance) :
    Ends depth otherDepth before reader (action >>= fun parts => pure (move parts.1, parts.2))
      (fun distance => other distance >>= fun parts => pure (otherMove distance parts.1, parts.2)) := by
  intro result token after run
  obtain ⟨⟨value, next⟩, middle, first, run⟩ := bind_eq_ok run
  cases run
  obtain ⟨units, border, past, is, goesOn⟩ := ends value next after first
  refine ⟨units, border, past,
    ⟨is.units, (stop value).trans is.stop, is.noEnd, is.read, is.notes⟩, ?_⟩
  intro semicolon join twin meets begins
  have run := goesOn semicolon join twin meets begins
  refine (bind_pure_run (other join.shift) _ twin).trans ?_
  rw [run]
  cases Scan.unit otherDepth join.place with
  | error halt => rfl
  | ok parts => simp only [Except.map, moved]

theorem EndsBehind.map [Located β] {reader middle : Reader} {token : Token}
    {action : Scan (α × Token)} {other : Nat → Scan (α × Token)}
    (ends : EndsBehind depth otherDepth before reader token middle action other)
    (move : α → β) (otherMove : Nat → α → β)
    (stop : ∀ value, Located.stop (move value) = Located.stop value)
    (moved : ∀ distance value,
      otherMove distance (Located.shift value distance) = Located.shift (move value) distance) :
    EndsBehind depth otherDepth before reader token middle
      (action >>= fun parts => pure (move parts.1, parts.2))
      (fun distance => other distance >>= fun parts => pure (otherMove distance parts.1, parts.2)) := by
  cases ends with
  | beyond later => exact .beyond (later.map move otherMove stop moved)
  | here stops midway notes done =>
      exact .here ((stop _).trans stops) midway notes (bind_of_ok done _)
  | failing fails =>
      refine .failing fun result run => ?_
      obtain ⟨parts, behind, first, -⟩ := bind_eq_ok run
      exact fails _ first

/-! ## Borders on the way -/

/-- A scan goes on with the unit behind a border, or it ends there. -/
theorem Ends.andThen [Located β] (deeper : depth ≤ otherDepth) {marked : Prop} {reader : Reader}
    {action : Scan (β × Token)} {other : Nat → Scan (β × Token)}
    {next : β × Token → Scan (α × Token)} {otherNext : Nat → β × Token → Scan (α × Token)}
    (closes : Closes depth otherDepth marked reader action other)
    (first : Ends depth otherDepth before reader action other)
    (second : ∀ value token middle units, action reader = .ok ((value, token), middle) →
      Units reader units middle →
        Ends depth otherDepth (before ++ units) middle (next (value, token))
            (fun distance =>
              otherNext distance (Located.shift value distance, token.shift distance)) ∨
          ∃ result : α, next (value, token) = pure (result, token) ∧
            Located.stop result = Located.stop value ∧
              ∀ distance otherToken, otherToken.isKeyword .elseWord = false →
                otherNext distance (Located.shift value distance, otherToken) =
                  pure (Located.shift result distance, otherToken)) :
    Ends depth otherDepth before reader (action >>= next)
      (fun distance => other distance >>= otherNext distance) := by
  intro result token after run
  obtain ⟨⟨value, pending⟩, middle, firstRun, secondRun⟩ := bind_eq_ok run
  obtain ⟨units, border, past, is, goesOn⟩ := first value pending middle firstRun
  have front : Units reader (units ++ [pending]) middle :=
    is.units.append (.cons (.refl border) is.read (.nil is.notes))
  -- The pending unit is behind the border of the first action, and before that of the second one if it reads on.
  rcases second value pending middle _ firstRun front with more | ⟨here, ends, stop, resembling⟩
  · obtain ⟨later, lastBorder, beyond, isLast, goesOnLast⟩ := more result token after secondRun
    refine ⟨_, lastBorder, beyond,
      ⟨front.append isLast.units, isLast.stop, isLast.noEnd, isLast.read, isLast.notes⟩, ?_⟩
    intro semicolon join twin meets begins
    rw [← List.append_assoc] at begins
    obtain ⟨twinMiddle, otherFirst, meetsMiddle⟩ :=
      meets.closes deeper closes firstRun isLast.units semicolon
    exact (bind_of_ok otherFirst _).trans
      (goesOnLast semicolon join twinMiddle meetsMiddle begins)
  · rw [ends] at secondRun
    cases secondRun
    refine ⟨units, border, past, ⟨is.units, stop.trans is.stop, is.noEnd, is.read, is.notes⟩, ?_⟩
    intro semicolon join twin meets begins
    have run := goesOn semicolon join twin meets begins
    cases read : Scan.unit otherDepth join.place with
    | error halt =>
        rw [read] at run
        exact bind_of_error run _
    | ok parts =>
        rw [read] at run
        refine (bind_of_ok run _).trans ?_
        rw [resembling join.shift parts.1 (begins parts.1 parts.2 read).1]
        rfl

end Relink
