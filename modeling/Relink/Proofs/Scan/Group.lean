import Relink.Proofs.Scan.Seam
import Relink.Scan.Group

/-!
# Groups beside a seam

Groups, templates and elements that end before a seam are followed, each with whatever reads the units
in it. The bound on the steps may be larger on the other side.
-/

set_option autoImplicit false

namespace Relink.Seam

open Scan

variable {seam : Seam}

/-! ## Brackets -/

theorem Follows.closeOrGoOn (bracket : Bracket) (token : Token) {goOn otherGoOn : Scan Span}
    (goesOn : seam.Follows goOn otherGoOn (·.shift seam.shift)) :
    seam.Follows (closeOrGoOn bracket token goOn)
      (closeOrGoOn bracket (token.shift seam.shift) otherGoOn) (·.shift seam.shift) := by
  unfold Scan.closeOrGoOn
  refine .ite (fun _ => .pure rfl) fun _ => ?_
  apply Seam.Follows.ite (fun _ => .fail _ _ _)
  intro _
  exact .ite (fun _ => .fail _ _ _) fun _ => goesOn

section Nested

variable {unit otherUnit : Scan Token}
  (units : seam.Follows unit otherUnit (·.shift seam.shift))

include units

theorem Follows.group (bracket : Bracket) {fuel otherFuel : Nat} (enough : fuel ≤ otherFuel) :
    seam.Follows (group unit bracket fuel) (group otherUnit bracket otherFuel)
      (·.shift seam.shift) := by
  induction fuel generalizing otherFuel with
  | zero => exact .outOfFuel _ _
  | succ fuel ih =>
      obtain ⟨otherFuel, rfl⟩ := Nat.exists_eq_add_one_of_ne_zero (by omega : otherFuel ≠ 0)
      exact .seq units fun token => .closeOrGoOn bracket token (ih (by omega))

theorem Follows.substitution {fuel otherFuel : Nat} (enough : fuel ≤ otherFuel) :
    seam.Follows (substitution unit fuel) (substitution otherUnit otherFuel) id :=
  .seq (.follow _ _) fun _ => .seq (.group units .brace enough) fun _ => .pure rfl

end Nested

/-! ## Templates -/

section Substituted

variable {substitution otherSubstitution : Scan Unit}
  (substitutions : seam.Follows substitution otherSubstitution id)

include substitutions

theorem Follows.templateRest (opening : Nat) {fuel otherFuel : Nat} (enough : fuel ≤ otherFuel)
    (ending : Literal) :
    seam.Follows (templateRest substitution opening fuel ending)
      (templateRest otherSubstitution (opening + seam.shift) otherFuel ending) id := by
  induction fuel generalizing otherFuel ending with
  | zero => exact .outOfFuel _ _
  | succ fuel ih =>
      obtain ⟨otherFuel, rfl⟩ := Nat.exists_eq_add_one_of_ne_zero (by omega : otherFuel ≠ 0)
      refine .ite (fun _ => ?_) fun _ => .pure rfl
      exact .seq substitutions fun _ => .seq (.templatePart opening) fun next =>
        ih (by omega) next

/-- The backtick of a template stands before its first part, which starts behind it. -/
theorem Follows.template {fuel otherFuel : Nat} (enough : fuel ≤ otherFuel) {first : Token}
    (behindTick : 1 ≤ first.span.start) (ending : Literal) :
    seam.Follows (template substitution fuel first ending)
      (template otherSubstitution otherFuel (first.shift seam.shift) ending)
      (·.shift seam.shift) := by
  have opening : (first.shift seam.shift).span.start - 1 = first.span.start - 1 + seam.shift := by
    simp only [Token.start_shift]
    omega
  simp only [Scan.template, opening]
  apply Seam.Follows.seq (.templateRest substitutions _ enough ending)
  intro _
  exact .seq .position fun stop => .pure rfl

end Substituted

/-! ## Tags -/

theorem tagToken_strict {reader after : Reader} {token : Token}
    (run : tagToken reader = .ok (token, after)) : after.rest ≠ reader.rest := by
  obtain ⟨first, middle, read, checked⟩ := bind_eq_ok run
  obtain ⟨found, lexed, rfl, rfl⟩ := token_eq_ok read
  split at checked
  · cases checked
  · rename_i noEnd
    obtain ⟨-, rfl⟩ := pure_eq_ok checked
    intro same
    have whole := (Reader.passes_past lexed).rest
    rw [same] at whole
    have empty := List.append_eq_nil_iff.mp (List.self_eq_append_left.mp whole)
    exact noEnd ((Token.lex_eof_iff lexed).mpr empty.2)

theorem Follows.tagToken : seam.Follows tagToken tagToken (·.shift seam.shift) :=
  .seq (.token .tag) fun _ => .ite (fun _ => .fail _ _ _) fun _ => .pure rfl

theorem Follows.childToken (opening : Nat) :
    seam.Follows (elementText opening >>= fun _ => Scan.tagToken)
      (elementText (opening + seam.shift) >>= fun _ => Scan.tagToken) (·.shift seam.shift) := by
  intro reader token after run
  obtain ⟨⟨⟩, middle, textRun, tokenRun⟩ := bind_eq_ok run
  obtain ⟨toAfter, tokenTwin⟩ := Follows.tagToken middle token after tokenRun
  refine ⟨(elementText_leads textRun).trans toAfter, fun twin twins beyond => ?_⟩
  have ended : seam.left ≠ middle.rest := by
    intro same
    rw [same] at beyond
    exact tagToken_strict tokenRun (beyond.eq_of_length_le toAfter.suffix.length_le).symm
  obtain ⟨twinMiddle, otherText, twinsMiddle⟩ :=
    twins_elementText textRun twins (beyond.trans toAfter.suffix) (absurd · ended) (opening + seam.shift)
  obtain ⟨twinAfter, otherToken, twinsAfter⟩ := tokenTwin twinMiddle twinsMiddle beyond
  exact ⟨twinAfter, (bind_of_ok otherText _).trans otherToken, twinsAfter⟩

/-- A name and the token behind it, which is later. -/
def moveNamed (distance : Nat) (named : Text × Token) : Text × Token :=
  (named.1, named.2.shift distance)

theorem Follows.elementName {fuel otherFuel : Nat} (enough : fuel ≤ otherFuel) (token : Token) :
    seam.Follows (elementName fuel token) (elementName otherFuel (token.shift seam.shift))
      (moveNamed seam.shift) := by
  induction fuel generalizing otherFuel token with
  | zero => exact .outOfFuel _ _
  | succ fuel ih =>
      obtain ⟨otherFuel, rfl⟩ := Nat.exists_eq_add_one_of_ne_zero (by omega : otherFuel ≠ 0)
      refine .ite (fun _ => ?_) fun _ => .fail _ _ _
      refine .seq .tagToken fun next => .ite (fun _ => ?_) fun _ => .pure rfl
      exact .seq .tagToken fun part => .seq (ih (by omega) part) fun more => .pure rfl

theorem Follows.tagName {fuel otherFuel : Nat} (enough : fuel ≤ otherFuel) (token : Token) :
    seam.Follows (tagName fuel token) (tagName otherFuel (token.shift seam.shift))
      (moveNamed seam.shift) :=
  .ite (fun _ => .pure rfl) fun _ => .elementName enough token

/-- The end of a tag, later. -/
def moveTagEnd (distance : Nat) : TagEnd → TagEnd
  | .opened => .opened
  | .selfClosed stop => .selfClosed (stop.shift distance)

theorem Follows.closingTag (name : Text) {fuel otherFuel : Nat} (enough : fuel ≤ otherFuel)
    (opening : Token) :
    seam.Follows (closingTag name fuel opening)
      (closingTag name otherFuel (opening.shift seam.shift)) (·.shift seam.shift) := by
  refine .seq .tagToken fun first => .seq (.tagName enough first) fun named => ?_
  apply Seam.Follows.seq (.require _ named.2 seam.shift)
  intro _
  exact .ite (fun _ => .pure rfl) fun _ => .fail _ _ _

/-! ## Elements -/

section Element

variable {substitution otherSubstitution : Scan Unit} {element otherElement : Token → Scan Token}
  (substitutions : seam.Follows substitution otherSubstitution id)
  (elements : ∀ token, seam.Follows (element token) (otherElement (token.shift seam.shift))
    (·.shift seam.shift))

include substitutions elements

theorem Follows.attributes {fuel otherFuel : Nat} (enough : fuel ≤ otherFuel) (token : Token) :
    seam.Follows (attributes substitution element fuel token)
      (attributes otherSubstitution otherElement otherFuel (token.shift seam.shift))
      (moveTagEnd seam.shift) := by
  induction fuel generalizing otherFuel token with
  | zero => exact .outOfFuel _ _
  | succ fuel ih =>
      obtain ⟨otherFuel, rfl⟩ := Nat.exists_eq_add_one_of_ne_zero (by omega : otherFuel ≠ 0)
      have less : fuel ≤ otherFuel := by omega
      have goesOn (token : Token) := ih less token
      refine .ite (fun _ => .pure rfl) fun _ => .ite (fun _ => ?_) fun _ => ?_
      · refine .seq .tagToken fun close => .seq (.require _ close seam.shift) fun _ => ?_
        exact .pure rfl
      refine .ite (fun _ => ?_) fun _ => .ite (fun _ => ?_) fun _ => ?_
      · exact .seq substitutions fun _ => .seq .tagToken goesOn
      · exact .seq (elements token) fun _ => .seq .tagToken goesOn
      · exact .ite (fun _ => .seq .tagToken goesOn) fun _ => .fail _ _ _

theorem Follows.children (name : Text) (opening : Nat) {fuel otherFuel : Nat}
    (enough : fuel ≤ otherFuel) :
    seam.Follows (children substitution element name opening fuel)
      (children otherSubstitution otherElement name (opening + seam.shift) otherFuel)
      (·.shift seam.shift) := by
  induction fuel generalizing otherFuel with
  | zero => exact .outOfFuel _ _
  | succ fuel ih =>
      obtain ⟨otherFuel, rfl⟩ := Nat.exists_eq_add_one_of_ne_zero (by omega : otherFuel ≠ 0)
      have less : fuel ≤ otherFuel := by omega
      have goesOn := ih less
      simp only [Scan.children]
      rw [← bind_assoc, ← bind_assoc]
      refine .seq (.childToken opening) fun child => .ite (fun _ => ?_) fun _ => ?_
      · exact .seq substitutions fun _ => goesOn
      refine .ite (fun _ => .closingTag name (by omega) child) fun _ => .ite (fun _ => ?_) fun _ => ?_
      · exact .seq (elements child) fun _ => goesOn
      · exact .fail _ _ _

theorem Follows.elementRest {fuel otherFuel : Nat} (enough : fuel ≤ otherFuel) (opening : Token)
    (named : Text × Token) :
    seam.Follows (elementRest substitution element fuel opening named)
      (elementRest otherSubstitution otherElement otherFuel (opening.shift seam.shift)
        (moveNamed seam.shift named)) (·.shift seam.shift) := by
  apply Seam.Follows.seq (.attributes substitutions elements enough named.2)
  intro ending
  cases ending with
  | opened => exact .children substitutions elements named.1 opening.span.start enough
  | selfClosed stop => exact .pure rfl

end Element

theorem Follows.element {substitution otherSubstitution : Scan Unit}
    (substitutions : seam.Follows substitution otherSubstitution id) {fuel otherFuel : Nat}
    (enough : fuel ≤ otherFuel) (opening : Token) :
    seam.Follows (element substitution fuel opening)
      (element otherSubstitution otherFuel (opening.shift seam.shift)) (·.shift seam.shift) := by
  induction fuel generalizing otherFuel opening with
  | zero => exact .outOfFuel _ _
  | succ fuel ih =>
      obtain ⟨otherFuel, rfl⟩ := Nat.exists_eq_add_one_of_ne_zero (by omega : otherFuel ≠ 0)
      refine .seq .tagToken fun first => .seq (.tagName enough first) fun named => ?_
      have less : fuel ≤ otherFuel := by omega
      have nested (token : Token) := ih less token
      exact .seq (.elementRest substitutions nested enough opening named) fun stop => .pure rfl

end Relink.Seam
