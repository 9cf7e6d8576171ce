import Relink.Proofs.Scan.Space

/-!
# The same scan, later

What a scan finds or gives up on depends on the text that is left and on what was noted before it, never
on where that text stands. With more steps than characters that are left a scan does not run out of
them, so more steps change nothing either.
-/

set_option autoImplicit false

namespace Relink

open Scan

/-! ## Progress -/

namespace Reader

def left (reader : Reader) : Nat := reader.rest.length

def later (distance : Nat) (reader : Reader) : Reader :=
  { reader with position := reader.position + distance }

theorem finish_later (distance : Nat) (reader : Reader) :
    (reader.later distance).finish = reader.finish + distance :=
  Nat.add_right_comm ..

theorem Passes.left {reader after : Reader} {passed : Text} (passes : reader.Passes passed after) :
    passed.length + after.left = reader.left := by
  rw [Reader.left, Reader.left, passes.rest, List.length_append]

end Reader

/-- The end of the module is the only token that takes no character. -/
def Token.cost (token : Token) : Nat := if token.kind = .eof then 0 else 1

theorem Token.cost_eof {token : Token} (ended : token.kind = .eof) : token.cost = 0 := if_pos ended

theorem Token.cost_goesOn {token : Token} (goesOn : token.kind ≠ .eof) : token.cost = 1 := if_neg goesOn

namespace Scan

/-- From `reader` on, an action ends with `post` or fails, and another action does the same `distance`
bytes later. The first one does not run out of steps. -/
def Repeats {α β : Type} (distance : Nat) (reader : Reader) (action : Scan α) (other : Scan β)
    (move : α → β) (post : α → Reader → Prop) : Prop :=
  match action reader with
  | .ok (value, after) =>
    post value after ∧ other (reader.later distance) = .ok (move value, after.later distance)
  | .error (.faulty fault) =>
    other (reader.later distance) = .error (.faulty (fault.shift distance))
  | .error .outOfFuel => False

namespace Repeats

variable {α β γ δ : Type} {distance : Nat} {reader : Reader} {action : Scan α} {other : Scan β}
  {move : α → β} {post : α → Reader → Prop}

theorem of_ok {value : α} {after : Reader} (run : action reader = .ok (value, after))
    (again : other (reader.later distance) = .ok (move value, after.later distance))
    (holds : post value after) : Repeats distance reader action other move post := by
  unfold Repeats
  rw [run]
  exact ⟨holds, again⟩

theorem of_faulty {fault : SyntaxFault} (run : action reader = .error (.faulty fault))
    (again : other (reader.later distance) = .error (.faulty (fault.shift distance))) :
    Repeats distance reader action other move post := by
  unfold Repeats
  rw [run]
  exact again

theorem pure {value : α} {moved : β} (same : moved = move value) (holds : post value reader) :
    Repeats distance reader (Pure.pure value) (Pure.pure moved) move post := by
  subst same
  exact of_ok rfl rfl holds

theorem fail {fault moved : SyntaxFault} (same : moved = fault.shift distance) :
    Repeats distance reader (Scan.fail fault) (Scan.fail moved : Scan β) move post := by
  subst same
  exact of_faulty rfl rfl

theorem bind {middle : α → Reader → Prop} {next : α → Scan γ} {otherNext : β → Scan δ}
    {moveNext : γ → δ} {final : γ → Reader → Prop}
    (first : Repeats distance reader action other move middle)
    (second : ∀ value between, middle value between →
      Repeats distance between (next value) (otherNext (move value)) moveNext final) :
    Repeats distance reader (action >>= next) (other >>= otherNext) moveNext final := by
  unfold Repeats at first
  cases run : action reader with
  | error halt =>
      rw [run] at first
      cases halt with
      | outOfFuel => exact first.elim
      | faulty fault =>
          have failed : (action >>= next) reader = .error (.faulty fault) := by
            simp only [Bind.bind, StateT.bind, run, Except.bind]
          refine of_faulty failed ?_
          simp only [Bind.bind, StateT.bind, first, Except.bind]
  | ok parts =>
      obtain ⟨value, between⟩ := parts
      rw [run] at first
      obtain ⟨holds, again⟩ := first
      have rest := second value between holds
      unfold Repeats at rest ⊢
      rw [bind_of_ok run, bind_of_ok again]
      exact rest

theorem ite {condition : Prop} [Decidable condition] {yes no : Scan α} {otherYes otherNo : Scan β}
    (holds : condition → Repeats distance reader yes otherYes move post)
    (fails : ¬ condition → Repeats distance reader no otherNo move post) :
    Repeats distance reader (if condition then yes else no)
      (if condition then otherYes else otherNo) move post := by
  by_cases decided : condition
  · rw [if_pos decided, if_pos decided]
    exact holds decided
  · rw [if_neg decided, if_neg decided]
    exact fails decided

/-- What is known of every result of an action may be added. -/
theorem known {weaker : α → Reader → Prop} (repeats : Repeats distance reader action other move weaker)
    (strengthen : ∀ value after, action reader = .ok (value, after) → weaker value after →
      post value after) : Repeats distance reader action other move post := by
  unfold Repeats at repeats ⊢
  cases run : action reader with
  | ok parts =>
      rw [run] at repeats
      exact ⟨strengthen _ _ run repeats.1, repeats.2⟩
  | error halt =>
      rw [run] at repeats
      cases halt with
      | faulty fault => exact repeats
      | outOfFuel => exact repeats.elim

theorem mono {weaker : α → Reader → Prop} (repeats : Repeats distance reader action other move post)
    (weaken : ∀ value after, post value after → weaker value after) :
    Repeats distance reader action other move weaker :=
  repeats.known fun value after _ => weaken value after

end Repeats

/-- An action that reads a token, which takes a character unless it is the end. -/
abbrev Rereads (distance : Nat) (reader : Reader) (action other : Scan Token) : Prop :=
  Repeats distance reader action other (·.shift distance) fun token after =>
    token.cost + after.left ≤ reader.left

/-! ## Actions of the reader -/

section Actions

variable {distance : Nat} {reader : Reader}

theorem token_spends {mode : Token.Mode} {after : Reader} {token : Token}
    (run : Scan.token mode reader = .ok (token, after)) : token.cost + after.left ≤ reader.left := by
  obtain ⟨body, lies⟩ := token_at run
  have passed := lies.passes.left
  rw [List.length_append] at passed
  by_cases ended : token.kind = .eof
  · rw [Token.cost_eof ended]
    omega
  · have some := List.length_pos_iff.mpr fun empty => ended (lies.empty.mpr empty)
    rw [Token.cost_goesOn ended]
    omega

theorem token_repeats (mode : Token.Mode) : Rereads distance reader (token mode) (token mode) := by
  cases lexed : Token.lex mode reader.rest with
  | error fault =>
      have run : token mode reader = .error (.faulty (reader.unreadable fault)) := by
        simp only [token, Reader.token, lexed]
      apply Repeats.of_faulty run
      have again : Token.lex mode (reader.later distance).rest = .error fault := lexed
      simp only [token, Reader.token, again, Reader.unreadable, SyntaxFault.shift, Span.shift,
        Reader.finish_later]
      simp only [Reader.later, Nat.add_right_comm]
  | ok found =>
      have run := token_of_lex lexed
      have again : token mode (reader.later distance) = _ := token_of_lex lexed
      refine Repeats.of_ok run ?_ (token_spends run)
      rw [again]
      simp only [Reader.tokenOf, Reader.past, Reader.advance, Reader.later, Token.shift, Span.shift,
        Nat.add_right_comm]

theorem templatePart_repeats (opening : Nat) :
    Repeats distance reader (templatePart opening) (templatePart (opening + distance)) id
      fun _ after => after.left ≤ reader.left := by
  cases part : Token.templatePart reader.rest with
  | error fault =>
      have run : templatePart opening reader =
          .error (.faulty ⟨.unterminatedTemplate, ⟨opening, reader.finish⟩, none⟩) := by
        simp only [templatePart, part]
      apply Repeats.of_faulty run
      have again : Token.templatePart (reader.later distance).rest = .error fault := part
      simp only [templatePart, again, Reader.finish_later]
      rfl
  | ok parts =>
      obtain ⟨chars, ending, closing, rest⟩ := parts
      have again : Token.templatePart (reader.later distance).rest =
          .ok (chars, ending, closing, rest) := part
      have passed := (Reader.passes_advance (Token.templatePart_extent part).1).left
      have run : templatePart opening reader = .ok (ending, reader.advance (chars ++ closing) rest) := by
        simp only [templatePart, part]
      refine Repeats.of_ok run ?_ (by omega)
      simp only [templatePart, again]
      simp only [Reader.advance, Reader.later, Nat.add_right_comm, id]

theorem elementText_repeats (opening : Nat) :
    Repeats distance reader (elementText opening) (elementText (opening + distance)) id
      fun _ after => after.left ≤ reader.left := by
  have same : (reader.later distance).rest = reader.rest := rfl
  by_cases ended : (reader.rest.dropWhile isElementText).isEmpty = true
  · have run : elementText opening reader =
        .error (.faulty ⟨.unexpectedEnd, ⟨opening, reader.finish⟩, none⟩) := by
      simp only [elementText, ended, if_true]
    apply Repeats.of_faulty run
    simp only [elementText, same, ended, if_true, Reader.finish_later]
    rfl
  · have run : elementText opening reader =
        .ok ((), reader.advance (reader.rest.takeWhile isElementText)
          (reader.rest.dropWhile isElementText)) := by
      simp only [elementText, ended, if_false, Bool.false_eq_true]
    have passes : reader.Passes (reader.rest.takeWhile isElementText) (reader.advance
        (reader.rest.takeWhile isElementText) (reader.rest.dropWhile isElementText)) :=
      Reader.passes_advance List.takeWhile_append_dropWhile
    have passed := passes.left
    refine Repeats.of_ok run ?_ (by omega)
    simp only [elementText, same, ended, if_false, Bool.false_eq_true]
    simp only [Reader.advance, Reader.later, Nat.add_right_comm, id]

theorem position_repeats :
    Repeats distance reader position position (· + distance) fun _ after => after = reader :=
  .of_ok rfl rfl rfl

theorem expectOperand_repeats (due : Bool) :
    Repeats distance reader (expectOperand due) (expectOperand due) id
      fun _ after => after.left = reader.left :=
  .of_ok rfl rfl rfl

theorem follow_repeats (operand : Bool) (previous : Kind) :
    Repeats distance reader (follow operand previous) (follow operand previous) id
      fun _ after => after.left = reader.left :=
  .of_ok rfl rfl rfl

theorem require_repeats (kind : Kind) (token : Token) :
    Repeats distance reader (require kind token) (require kind (token.shift distance)) id
      fun _ after => token.kind = kind ∧ after = reader :=
  .ite (fun isKind => .pure rfl ⟨isKind, rfl⟩) fun _ => .fail rfl

end Actions

/-! ## Groups and templates -/

section Group

variable {distance bound : Nat} {inner otherInner : Scan Token}
  (rereads : ∀ reader : Reader, reader.left < bound → Rereads distance reader inner otherInner)

include rereads

theorem group_repeats (bracket : Bracket) {fuel otherFuel : Nat} (enough : fuel ≤ otherFuel)
    {reader : Reader} (fits : reader.left < fuel) (within : reader.left < bound) :
    Repeats distance reader (group inner bracket fuel) (group otherInner bracket otherFuel)
      (·.shift distance) fun _ after => after.left < reader.left := by
  induction fuel generalizing otherFuel reader with
  | zero => omega
  | succ fuel ih =>
      obtain ⟨otherFuel, rfl⟩ := Nat.exists_eq_add_one_of_ne_zero (by omega : otherFuel ≠ 0)
      apply Repeats.bind (rereads reader within)
      intro token between spends
      unfold closeOrGoOn
      refine .ite (fun closes => .pure rfl ?_) fun _ => ?_
      · have goesOn : token.kind ≠ .eof := by
          rw [closes]
          nofun
        have cost := Token.cost_goesOn goesOn
        omega
      apply Repeats.ite (fun _ => .fail rfl)
      intro goesOn
      have cost := Token.cost_goesOn goesOn
      apply Repeats.ite (fun _ => .fail rfl)
      intro _
      exact (ih (by omega) (by omega) (by omega)).mono fun _ after less => by omega

theorem substitution_repeats {fuel otherFuel : Nat} (enough : fuel ≤ otherFuel) {reader : Reader}
    (fits : reader.left < fuel) (within : reader.left < bound) :
    Repeats distance reader (substitution inner fuel) (substitution otherInner otherFuel) id
      fun _ after => after.left < reader.left := by
  apply Repeats.bind (follow_repeats ..)
  intro _ between same
  apply Repeats.bind (group_repeats rereads .brace enough (by omega) (by omega))
  intro _ after less
  exact .pure rfl (by omega)

end Group

section Fold

variable {distance bound : Nat} {substitution otherSubstitution : Scan Unit}
  (substitutions : ∀ reader : Reader, reader.left < bound →
    Repeats distance reader substitution otherSubstitution id fun _ after => after.left < reader.left)

include substitutions

theorem templateRest_repeats (opening : Nat) {fuel otherFuel : Nat} (enough : fuel ≤ otherFuel)
    (ending : Literal) {reader : Reader} (fits : reader.left < fuel) (within : reader.left < bound) :
    Repeats distance reader (templateRest substitution opening fuel ending)
      (templateRest otherSubstitution (opening + distance) otherFuel ending) id
      fun _ after => after.left ≤ reader.left := by
  induction fuel generalizing otherFuel ending reader with
  | zero => omega
  | succ fuel ih =>
      obtain ⟨otherFuel, rfl⟩ := Nat.exists_eq_add_one_of_ne_zero (by omega : otherFuel ≠ 0)
      refine .ite (fun _ => ?_) fun _ => .pure rfl (Nat.le_refl _)
      apply Repeats.bind (substitutions reader within)
      intro _ between less
      apply Repeats.bind (templatePart_repeats opening)
      intro next behind leads
      exact (ih (by omega) next (by omega) (by omega)).mono fun _ after less => by omega

theorem template_repeats {fuel otherFuel : Nat} (enough : fuel ≤ otherFuel) {first : Token}
    (behindTick : 1 ≤ first.span.start) (ending : Literal) {reader : Reader}
    (fits : reader.left < fuel) (within : reader.left < bound) :
    Repeats distance reader (template substitution fuel first ending)
      (template otherSubstitution otherFuel (first.shift distance) ending) (·.shift distance)
      fun _ after => after.left ≤ reader.left := by
  have opening : (first.shift distance).span.start - 1 = first.span.start - 1 + distance := by
    simp only [Token.start_shift]
    omega
  simp only [template, opening]
  apply Repeats.bind (templateRest_repeats substitutions _ enough ending fits within)
  intro _ between less
  apply Repeats.bind position_repeats
  rintro stop _ rfl
  exact .pure rfl less

/-! ## Elements -/

omit substitutions

theorem tagToken_repeats {reader : Reader} :
    Repeats distance reader tagToken tagToken (·.shift distance)
      fun _ after => after.left < reader.left := by
  apply Repeats.bind (token_repeats .tag)
  intro token between spends
  apply Repeats.ite (fun _ => .fail rfl)
  intro goesOn
  have cost := Token.cost_goesOn goesOn
  exact .pure rfl (by omega)

theorem elementName_repeats {fuel otherFuel : Nat} (enough : fuel ≤ otherFuel) (token : Token)
    {reader : Reader} (fits : reader.left < fuel) :
    Repeats distance reader (elementName fuel token) (elementName otherFuel (token.shift distance))
      (Seam.moveNamed distance) fun _ after => after.left ≤ reader.left := by
  induction fuel generalizing otherFuel token reader with
  | zero => omega
  | succ fuel ih =>
      obtain ⟨otherFuel, rfl⟩ := Nat.exists_eq_add_one_of_ne_zero (by omega : otherFuel ≠ 0)
      refine .ite (fun _ => ?_) fun _ => .fail rfl
      apply Repeats.bind tagToken_repeats
      intro next between less
      refine .ite (fun _ => ?_) fun _ => .pure rfl (by omega)
      apply Repeats.bind tagToken_repeats
      intro part behind still
      apply Repeats.bind (ih (by omega) part (by omega))
      intro more after least
      exact .pure rfl (by omega)

theorem tagName_repeats {fuel otherFuel : Nat} (enough : fuel ≤ otherFuel) (token : Token)
    {reader : Reader} (fits : reader.left < fuel) :
    Repeats distance reader (tagName fuel token) (tagName otherFuel (token.shift distance))
      (Seam.moveNamed distance) fun _ after => after.left ≤ reader.left :=
  .ite (fun _ => .pure rfl (Nat.le_refl _)) fun _ => elementName_repeats enough token fits

theorem closingTag_repeats (name : Text) {fuel otherFuel : Nat} (enough : fuel ≤ otherFuel)
    (opening : Token) {reader : Reader} (fits : reader.left < fuel) :
    Repeats distance reader (closingTag name fuel opening)
      (closingTag name otherFuel (opening.shift distance)) (·.shift distance)
      fun _ after => after.left ≤ reader.left := by
  apply Repeats.bind tagToken_repeats
  intro first between less
  apply Repeats.bind (tagName_repeats enough first (by omega))
  intro named behind still
  apply Repeats.bind (require_repeats _ named.2)
  rintro _ _ ⟨-, rfl⟩
  exact .ite (fun _ => .pure rfl (by omega)) fun _ => .fail rfl

section Element

variable {elementIn otherElementIn : Token → Scan Token}
  (elements : ∀ (token : Token) (reader : Reader), reader.left < bound →
    Repeats distance reader (elementIn token) (otherElementIn (token.shift distance))
      (·.shift distance) fun _ after => after.left ≤ reader.left)

include substitutions elements

theorem attributes_repeats {fuel otherFuel : Nat} (enough : fuel ≤ otherFuel) (token : Token)
    {reader : Reader} (fits : reader.left < fuel) (within : reader.left < bound) :
    Repeats distance reader (attributes substitution elementIn fuel token)
      (attributes otherSubstitution otherElementIn otherFuel (token.shift distance))
      (Seam.moveTagEnd distance) fun _ after => after.left ≤ reader.left := by
  induction fuel generalizing otherFuel token reader with
  | zero => omega
  | succ fuel ih =>
      obtain ⟨otherFuel, rfl⟩ := Nat.exists_eq_add_one_of_ne_zero (by omega : otherFuel ≠ 0)
      -- Whatever was passed, the tag goes on with the next token.
      have goOn : ∀ between : Reader, between.left ≤ reader.left →
          Repeats distance between (tagToken >>= attributes substitution elementIn fuel)
            (tagToken >>= attributes otherSubstitution otherElementIn otherFuel)
            (Seam.moveTagEnd distance) fun _ after => after.left ≤ reader.left := by
        intro between leads
        apply Repeats.bind tagToken_repeats
        intro next behind less
        exact (ih (by omega) next (by omega) (by omega)).mono fun _ after still => by omega
      refine .ite (fun _ => .pure rfl (Nat.le_refl _)) fun _ => .ite (fun _ => ?_) fun _ => ?_
      · apply Repeats.bind tagToken_repeats
        intro close between less
        apply Repeats.bind (require_repeats _ close)
        rintro _ _ ⟨-, rfl⟩
        exact .pure rfl (by omega)
      refine .ite (fun _ => ?_) fun _ => ?_
      · exact .bind (substitutions reader within) fun _ between less => goOn between (by omega)
      refine .ite (fun _ => ?_) fun _ => ?_
      · exact .bind (elements token reader within) fun _ between less => goOn between less
      exact .ite (fun _ => goOn reader (Nat.le_refl _)) fun _ => .fail rfl

theorem children_repeats (name : Text) (opening : Nat) {fuel otherFuel : Nat}
    (enough : fuel ≤ otherFuel) {reader : Reader} (fits : reader.left < fuel)
    (within : reader.left < bound) :
    Repeats distance reader (children substitution elementIn name opening fuel)
      (children otherSubstitution otherElementIn name (opening + distance) otherFuel)
      (·.shift distance) fun _ after => after.left ≤ reader.left := by
  induction fuel generalizing otherFuel reader with
  | zero => omega
  | succ fuel ih =>
      obtain ⟨otherFuel, rfl⟩ := Nat.exists_eq_add_one_of_ne_zero (by omega : otherFuel ≠ 0)
      have goOn : ∀ between : Reader, between.left < reader.left →
          Repeats distance between (children substitution elementIn name opening fuel)
            (children otherSubstitution otherElementIn name (opening + distance) otherFuel)
            (·.shift distance) fun _ after => after.left ≤ reader.left := by
        intro between less
        exact (ih (by omega) (by omega) (by omega)).mono fun _ after still => by omega
      apply Repeats.bind (elementText_repeats opening)
      intro _ behind leads
      apply Repeats.bind tagToken_repeats
      intro child between less
      refine .ite (fun _ => ?_) fun _ => ?_
      · exact .bind (substitutions between (by omega)) fun _ after still => goOn after (by omega)
      refine .ite (fun _ => ?_) fun _ => ?_
      · exact (closingTag_repeats name (by omega) child (by omega)).mono fun _ after still => by omega
      refine .ite (fun _ => ?_) fun _ => .fail rfl
      exact .bind (elements child between (by omega)) fun _ after still => goOn after (by omega)

theorem elementRest_repeats {fuel otherFuel : Nat} (enough : fuel ≤ otherFuel) (opening : Token)
    (named : Text × Token) {reader : Reader} (fits : reader.left < fuel)
    (within : reader.left < bound) :
    Repeats distance reader (elementRest substitution elementIn fuel opening named)
      (elementRest otherSubstitution otherElementIn otherFuel (opening.shift distance)
        (Seam.moveNamed distance named)) (·.shift distance)
      fun _ after => after.left ≤ reader.left := by
  apply Repeats.bind (attributes_repeats substitutions elements enough named.2 fits within)
  intro ending between less
  cases ending with
  | selfClosed stop => exact .pure rfl less
  | opened =>
      have repeated := children_repeats substitutions elements named.1 opening.span.start enough
        (show between.left < fuel by omega) (by omega)
      exact repeated.mono fun _ after still => by omega

end Element

include substitutions in
theorem element_repeats {fuel otherFuel : Nat} (enough : fuel ≤ otherFuel) (deep : fuel ≤ bound)
    (opening : Token) {reader : Reader} (fits : reader.left < fuel) :
    Repeats distance reader (element substitution fuel opening)
      (element otherSubstitution otherFuel (opening.shift distance)) (·.shift distance)
      fun _ after => after.left ≤ reader.left := by
  induction fuel generalizing otherFuel opening reader with
  | zero => omega
  | succ fuel ih =>
      obtain ⟨otherFuel, rfl⟩ := Nat.exists_eq_add_one_of_ne_zero (by omega : otherFuel ≠ 0)
      have nested : ∀ (token : Token) (reader : Reader), reader.left < fuel →
          Repeats distance reader (element substitution fuel token)
            (element otherSubstitution otherFuel (token.shift distance)) (·.shift distance)
            fun _ after => after.left ≤ reader.left :=
        fun token reader less => ih (by omega) (by omega) token less
      have inside : ∀ reader : Reader, reader.left < fuel →
          Repeats distance reader substitution otherSubstitution id
            fun _ after => after.left < reader.left :=
        fun reader less => substitutions reader (by omega)
      apply Repeats.bind tagToken_repeats
      intro first between less
      apply Repeats.bind (tagName_repeats enough first (by omega))
      intro named behind still
      apply Repeats.bind (elementRest_repeats inside nested enough opening named (by omega) (by omega))
      intro stop after least
      exact .pure rfl (by omega)

end Fold

/-! ## Units -/

section Unit

variable {distance fuel otherFuel : Nat} {inner otherInner : Scan Token}
  (rereads : ∀ reader : Reader, reader.left < fuel → Rereads distance reader inner otherInner)
  (enough : fuel ≤ otherFuel)

include rereads enough

theorem foldGroup_repeats (token : Token) {reader : Reader} (fits : reader.left < fuel) :
    Repeats distance reader (foldGroup inner fuel token)
      (foldGroup otherInner otherFuel (token.shift distance)) (·.shift distance)
      fun _ _ => True := by
  simp only [foldGroup, Token.kind_shift]
  cases token.kind.opens? with
  | none => exact .pure rfl trivial
  | some bracket =>
      apply Repeats.bind (follow_repeats ..)
      intro _ between same
      apply Repeats.bind (group_repeats rereads bracket enough (by omega) (by omega))
      intro stop after less
      exact .pure rfl trivial

theorem foldOperand_repeats (operand : Bool) {token : Token}
    (behindTick : token.kind.isTemplate = true → 1 ≤ token.span.start) {reader : Reader}
    (fits : reader.left < fuel) :
    Repeats distance reader (foldOperand inner fuel operand token)
      (foldOperand otherInner otherFuel operand (token.shift distance)) (·.shift distance)
      fun _ after => after.left ≤ reader.left := by
  have substitutions : ∀ reader : Reader, reader.left < fuel →
      Repeats distance reader (substitution inner fuel) (substitution otherInner otherFuel) id
        fun _ after => after.left < reader.left :=
    fun reader less => substitution_repeats rereads enough less less
  unfold foldOperand
  rw [Token.kind_shift]
  split
  · rename_i isTemplate
    exact template_repeats substitutions enough (behindTick (by rw [isTemplate]; rfl)) _ fits fits
  · rename_i isTemplate
    exact template_repeats substitutions enough (behindTick (by rw [isTemplate]; rfl)) _ fits fits
  · refine .ite (fun _ => ?_) fun _ => .pure rfl (Nat.le_refl _)
    exact element_repeats substitutions enough (Nat.le_refl fuel) token fits
  · exact .pure rfl (Nat.le_refl _)

theorem foldUnit_repeats (before : Kind) (operand : Bool) {first : Token}
    (behindTick : first.kind.isTemplate = true → 1 ≤ first.span.start) {reader : Reader}
    (fits : reader.left < fuel) :
    Repeats distance reader (foldUnit inner fuel before operand first)
      (foldUnit otherInner otherFuel before operand (first.shift distance)) (·.shift distance)
      fun _ _ => True := by
  apply Repeats.bind (foldOperand_repeats rereads enough operand behindTick fits)
  intro whole between less
  apply Repeats.bind (foldGroup_repeats rereads enough
    { whole with kind := plainKind before whole.kind } (by omega))
  intro folded behind _
  apply Repeats.bind (follow_repeats ..)
  intro _ after _
  exact .pure rfl trivial

end Unit

/-- The end of the module is a unit by itself, read without steps for anything in it. -/
theorem foldUnit_eof (inner : Scan Token) (fuel : Nat) (before : Kind) (operand : Bool) {first : Token}
    (ended : first.kind = .eof) :
    foldUnit inner fuel before operand first = follow true .eof >>= fun _ => pure first := by
  obtain ⟨kind, span, lexeme, onNewLine⟩ := first
  obtain rfl : kind = .eof := ended
  rfl

theorem unitOver_repeats {distance fuel otherFuel : Nat} {inner otherInner : Scan Token}
    (rereads : ∀ reader : Reader, reader.left < fuel → Rereads distance reader inner otherInner)
    (enough : fuel ≤ otherFuel) {reader : Reader} (fits : reader.left < fuel + 1) :
    Repeats distance reader (unitOver inner fuel) (unitOver otherInner otherFuel) (·.shift distance)
      fun _ _ => True := by
  suffices repeats : Repeats distance reader
      (token reader.mode >>= foldUnit inner fuel reader.previous reader.operand)
      (token reader.mode >>= foldUnit otherInner otherFuel reader.previous reader.operand)
      (·.shift distance) fun _ _ => True from repeats
  apply Repeats.bind ((token_repeats reader.mode).known fun first between run spends =>
    (⟨spends, fun template => ?_⟩ : _ ∧ (first.kind.isTemplate = true → 1 ≤ first.span.start)))
  · intro first between known
    by_cases ended : first.kind = .eof
    · have moved : (first.shift distance).kind = .eof := ended
      rw [foldUnit_eof _ _ _ _ ended, foldUnit_eof _ _ _ _ moved]
      exact .bind (follow_repeats ..) fun _ _ _ => .pure rfl trivial
    · have cost := Token.cost_goesOn ended
      exact foldUnit_repeats rereads enough _ _ known.2 (by omega)
  · obtain ⟨body, lies⟩ := token_at run
    rw [lies.template template]
    exact Nat.le_add_left ..

theorem unit_spends {fuel : Nat} {reader after : Reader} {token : Token}
    (run : unit fuel reader = .ok (token, after)) : token.cost + after.left ≤ reader.left := by
  obtain ⟨body, lies⟩ := unit_at run
  have passed := lies.passes.left
  rw [List.length_append] at passed
  by_cases ended : token.kind = .eof
  · rw [Token.cost_eof ended]
    omega
  · have some := List.length_pos_iff.mpr fun empty => ended (lies.empty.mpr empty)
    rw [Token.cost_goesOn ended]
    omega

/-- A unit is read the same at every place, with more steps than characters that are left. -/
theorem unit_repeats {distance fuel otherFuel : Nat} (enough : fuel ≤ otherFuel) {reader : Reader}
    (fits : reader.left < fuel) : Rereads distance reader (unit fuel) (unit otherFuel) := by
  induction fuel generalizing otherFuel reader with
  | zero => omega
  | succ fuel ih =>
      obtain ⟨otherFuel, rfl⟩ := Nat.exists_eq_add_one_of_ne_zero (by omega : otherFuel ≠ 0)
      have less : fuel ≤ otherFuel := by omega
      have repeated := unitOver_repeats (fun reader fits => ih less fits) less fits
      exact Repeats.known (show Repeats distance reader (unit (fuel + 1)) (unit (otherFuel + 1)) _ _ from
        repeated) fun token after run _ => unit_spends run

end Scan

end Relink
