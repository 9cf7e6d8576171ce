import Relink.Proofs.Scan.Ending.Simple

/-!
# Endings of compound statements

A control statement ends as its body does, or behind the brackets that end it.
-/

set_option autoImplicit false

namespace Relink

open Scan

variable {depth otherDepth : Nat} {before : List Token}

/-! ## Headers and blocks -/

/-- A part of a statement that ends where the reader stands, behind a group. -/
structure EndsGroup (reader : Reader) (stop : Nat) (units : List Token) (after : Reader) : Prop where
  units : Units reader units after
  stop : stop = after.position
  noSemicolon : after.previous ≠ .punctuator .semicolon
  noEnd : after.previous ≠ .eof

theorem EndsGroup.midway {reader after : Reader} {stop : Nat} {units : List Token}
    (ends : EndsGroup reader stop units after) : Midway before after :=
  ⟨fun semicolon => absurd semicolon ends.noSemicolon, ends.noEnd⟩

theorem EndsGroup.behind {reader middle after : Reader} {stop : Nat} {units more : List Token}
    (ends : EndsGroup middle stop more after) (front : Units reader units middle) :
    EndsGroup reader stop (units ++ more) after :=
  ⟨front.append ends.units, ends.stop, ends.noSemicolon, ends.noEnd⟩

theorem unit_group {reader after : Reader} {token : Token} {p : Punctuator}
    (read : unit depth reader = .ok (token, after)) (kind : token.kind = .punctuator p)
    (other : p ≠ .semicolon) : EndsGroup reader token.span.stop [token] after where
  units := .single read
  stop := (Token.before read).stop
  noSemicolon := (Token.before read).previous_ne_semicolon (by simp [kind, other])
  noEnd := (Token.before read).previous_ne_eof (by simp [kind])

theorem bracketed_group (p : Punctuator) (other : p ≠ .semicolon) {reader after : Reader}
    {stop : Nat} (run : bracketed (unit depth) p reader = .ok (stop, after)) :
    ∃ units, EndsGroup reader stop units after := by
  obtain ⟨token, middle, read, rest⟩ := bind_eq_ok run
  obtain ⟨⟨⟩, same, required, done⟩ := bind_eq_ok rest
  obtain ⟨isKind, rfl⟩ := require_eq_ok required
  cases done
  exact ⟨_, unit_group read isKind other⟩

theorem catchPart_group {reader after : Reader} {stop : Nat}
    (run : catchPart (unit depth) reader = .ok (stop, after)) :
    ∃ units, EndsGroup reader stop units after := by
  obtain ⟨token, middle, read, run⟩ := bind_eq_ok run
  split at run
  · obtain ⟨units, ends⟩ := bracketed_group .braceOpen nofun run
    exact ⟨_, ends.behind (.single read)⟩
  · obtain ⟨⟨⟩, same, required, done⟩ := bind_eq_ok run
    obtain ⟨isKind, rfl⟩ := require_eq_ok required
    cases done
    exact ⟨_, unit_group read isKind nofun⟩

theorem Ends.header {α : Type} [Located α] (deeper : depth ≤ otherDepth) {reader : Reader}
    {next : Nat → Scan (α × Token)} {otherNext : Nat → Nat → Scan (α × Token)}
    (rest : ∀ stop middle units, EndsGroup reader stop units middle →
      Ends depth otherDepth (before ++ units) middle (next stop)
        fun distance => otherNext distance (stop + distance)) :
    Ends depth otherDepth before reader (Scan.header (Scan.unit depth) >>= next)
      fun distance => Scan.header (Scan.unit otherDepth) >>= otherNext distance := by
  refine .seq (fun distance stop => stop + distance) (fun seam => bracketed_follows deeper _)
    fun stop middle run => ?_
  obtain ⟨units, ends⟩ := bracketed_group .parenthesisOpen nofun run
  exact ⟨ends.noSemicolon, units, ends.units, rest stop middle units ends⟩

theorem Ends.group {reader : Reader} {action other : Scan Nat}
    (follows : ∀ seam : Seam, seam.Follows action other (· + seam.shift))
    (ends : ∀ {stop after}, action reader = .ok (stop, after) →
      ∃ units, EndsGroup reader stop units after) :
    Ends depth otherDepth before reader
      (action >>= fun stop => resume (Scan.unit depth) (pure ⟨stop, none⟩))
      fun _ => other >>= fun stop => resume (Scan.unit otherDepth) (pure ⟨stop, none⟩) := by
  simp only [resume_next]
  refine .seq (fun distance stop => stop + distance) follows fun stop middle run => ?_
  obtain ⟨units, group⟩ := ends run
  exact ⟨group.noSemicolon, units, group.units, .next group.stop group.noEnd⟩

/-! ## Statements with a body -/

theorem expectOperand_require (due : Bool) (kind : Kind) (token : Token) (rest : Scan Ending) :
    (expectOperand due >>= fun _ => require kind token >>= fun _ => rest) =
      require kind token >>= fun _ => expectOperand due >>= fun _ => rest := by
  unfold require
  split <;> rfl

section Nested

variable {nested otherNested : Scan Ending}
  (bodies : ∀ before reader, Ends depth otherDepth before reader (resume (unit depth) nested)
    fun _ => resume (unit otherDepth) otherNested)

include bodies

variable (deeper : depth ≤ otherDepth)
  (closes : ∀ reader, Closes depth otherDepth False reader (resume (unit depth) nested)
    fun _ => resume (unit otherDepth) otherNested)

include deeper

theorem headed_ends (before : List Token) (reader : Reader) :
    Ends depth otherDepth before reader (resume (unit depth) (headed (unit depth) nested))
      fun _ => resume (unit otherDepth) (headed (unit otherDepth) otherNested) := by
  simp only [headed, resume_bind]
  exact .header deeper fun stop middle units _ => bodies _ middle

theorem forLoop_ends (before : List Token) (reader : Reader) :
    Ends depth otherDepth before reader (resume (unit depth) (forLoop (unit depth) nested))
      fun _ => resume (unit otherDepth) (forLoop (unit otherDepth) otherNested) := by
  simp only [forLoop, expectOperand_require, resume_bind, resume_ite]
  refine .unit deeper fun first middle read => .ite (fun _ => ?_) fun _ => ?_
  · refine .unit deeper fun second behind readSecond => ?_
    apply Ends.require
    intro isHeader
    have stands := Token.before readSecond
    apply Ends.seq (fun _ => id) (fun seam => .expectOperand true)
    intro _ noted run
    cases run
    have notes := stands.notes_group (by rw [isHeader]; rfl) true
    have unended := (stands.noted notes).previous_ne_semicolon (by simp [isHeader])
    exact ⟨unended, [], .nil notes, bodies _ _⟩
  · exact .require fun _ => bodies _ middle

include closes

theorem conditional_ends (before : List Token) (reader : Reader) :
    Ends depth otherDepth before reader (resume (unit depth) (conditional (unit depth) nested))
      fun _ => resume (unit otherDepth) (conditional (unit otherDepth) otherNested) := by
  simp only [resume_conditional]
  refine .header deeper fun stop middle units _ => ?_
  refine .andThen deeper (closes middle) (bodies _ middle) fun stop next after passed run _ => ?_
  by_cases isElse : next.isKeyword .elseWord = true
  · left
    simp only [Token.isKeyword_shift, isElse, if_true]
    exact bodies _ after
  · right
    refine ⟨stop, by simp only [isElse, Bool.false_eq_true, if_false], rfl, ?_⟩
    intro distance other noElse
    simp only [noElse, Bool.false_eq_true, if_false]

theorem doLoop_ends (before : List Token) (reader : Reader) :
    Ends depth otherDepth before reader (resume (unit depth) (doLoop (unit depth) nested))
      fun _ => resume (unit otherDepth) (doLoop (unit otherDepth) otherNested) := by
  simp only [resume_doLoop]
  refine .andThen deeper (closes reader) (bodies _ reader) fun stop word after passed run front =>
    .inl ?_
  apply Ends.require
  intro _
  refine .header deeper fun stop middle units ends => .of_behind deeper fun next behind read => ?_
  by_cases semicolon : next.isPunctuator .semicolon = true
  · apply EndsBehind.beyond
    simp only [Token.isPunctuator_shift, semicolon, if_true]
    have isKind := (next.isPunctuator_iff .semicolon).mp semicolon
    have stands := Token.before read
    exact .next stands.stop (stands.previous_ne_eof (by simp [isKind]))
  · apply EndsBehind.here ends.stop ends.midway (.refl behind)
    simp only [semicolon, Bool.false_eq_true, if_false]
    rfl

end Nested

/-! ## Statements that end with a block -/

theorem switch_ends (deeper : depth ≤ otherDepth) (before : List Token) (reader : Reader) :
    Ends depth otherDepth before reader (resume (unit depth) (switch (unit depth)))
      fun _ => resume (unit otherDepth) (switch (unit otherDepth)) := by
  simp only [switch, resume_bind]
  refine .header deeper fun _ middle _ _ => ?_
  exact .group (fun seam => bracketed_follows deeper _) fun run =>
    bracketed_group .braceOpen (by decide) run

theorem finallyPart_ends (deeper : depth ≤ otherDepth) {reader middle : Reader} {next : Token}
    {stop : Nat} (here : stop = reader.position) (midway : Midway before reader) :
    EndsBehind depth otherDepth before reader next middle
      (resume (unit depth) (finallyPart (unit depth) (some stop) next))
      fun distance => resume (unit otherDepth)
        (finallyPart (unit otherDepth) (some (stop + distance)) (next.shift distance)) := by
  simp only [finallyPart, resume_ite, resume_bind, resume_pending]
  by_cases isFinally : next.isKeyword .finallyWord = true
  · apply EndsBehind.beyond
    simp only [Token.isKeyword_shift, isFinally, if_true]
    exact .group (fun seam => bracketed_follows deeper _) fun run =>
      bracketed_group .braceOpen (by decide) run
  · apply EndsBehind.here here midway (.refl middle)
    simp only [isFinally, Bool.false_eq_true, if_false]
    rfl

theorem guarded_ends (deeper : depth ≤ otherDepth) (before : List Token) (reader : Reader) :
    Ends depth otherDepth before reader (resume (unit depth) (guarded (unit depth)))
      fun _ => resume (unit otherDepth) (guarded (unit otherDepth)) := by
  simp only [guarded, resume_bind, resume_ite]
  refine .seq (fun distance stop => stop + distance) (fun seam => bracketed_follows deeper _)
    fun _ tried run => ?_
  obtain ⟨units, ends⟩ := bracketed_group .braceOpen (by decide) run
  refine ⟨ends.noSemicolon, units, ends.units,
    .unit deeper fun next middle read => .ite (fun _ => ?_) fun _ => ?_⟩
  · refine .seq (fun distance stop => stop + distance) (fun seam => catchPart_follows deeper)
      fun stop behind catchRun => ?_
    obtain ⟨passed, caught⟩ := catchPart_group catchRun
    refine ⟨caught.noSemicolon, passed, caught.units, .of_behind deeper fun after last _ => ?_⟩
    exact finallyPart_ends deeper caught.stop caught.midway
  · simp only [finallyPart, resume_ite, resume_bind, resume_fail]
    simp only [Token.isKeyword_shift]
    apply Ends.ite
    · intro _
      exact .group (fun seam => bracketed_follows deeper _) fun run =>
        bracketed_group .braceOpen (by decide) run
    · intro _
      exact .of_failing (fun result run => by cases run) _

end Relink
