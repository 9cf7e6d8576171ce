import Relink.Proofs.Scan.Exchange
import Relink.Proofs.Scan.Reached

/-!
# Units around a group

The groups, templates and elements around a group, and so all units, find the same with either content of it.
-/

set_option autoImplicit false

namespace Relink

open Scan

def Scan.TagEnd.relocate (move : Nat → Nat) : TagEnd → TagEnd
  | .opened => .opened
  | .selfClosed stop => .selfClosed (stop.relocate move)

/-- That a keyword is an identifier makes no string of it. -/
theorem Exchange.QuotesFit.plain {exchange : Exchange} {token : Token} (fits : exchange.QuotesFit token)
    (before : Kind) : exchange.QuotesFit { token with kind := plainKind before token.kind } := by
  intro string
  refine fits ?_
  rcases plainKind_cases before token.kind with same | ⟨-, isName⟩
  · exact same.symm.trans string
  · cases isName.symm.trans string

namespace Exchange.Mirrors

variable {exchange : Exchange} {bound fuel otherFuel : Nat} {given : Prop}

/-! ## Brackets -/

theorem closeOrGoOn (bracket : Bracket) (token : Token) {divertedOn : SyntaxFault → Scan Span}
    {goOn otherGoOn : Scan Span}
    (goesOn : exchange.Mirrors bound given divertedOn goOn otherGoOn (.relocate exchange.move)
      fun _ => True) :
    exchange.Mirrors bound given (fun fault => closeOrGoOn bracket token (divertedOn fault))
      (closeOrGoOn bracket token goOn) (closeOrGoOn bracket (token.relocate exchange.move) otherGoOn)
      (.relocate exchange.move) fun _ => True := by
  unfold Scan.closeOrGoOn
  refine .ite (fun _ => .pure fun _ => ⟨rfl, trivial⟩) fun _ => ?_
  refine .ite (fun _ => .fail _ _) fun _ => ?_
  exact .ite (fun _ => .fail _ _) fun _ => goesOn

section Nested

variable {diverted : SyntaxFault → Scan Token} {unit otherUnit : Scan Token}
  (units : exchange.Mirrors bound True diverted unit otherUnit (.relocate exchange.move) exchange.QuotesFit)

include units

theorem group (bracket : Bracket) (enough : fuel ≤ otherFuel) :
    exchange.Mirrors bound given (fun fault => group (diverted fault) bracket fuel)
      (group unit bracket fuel) (group otherUnit bracket otherFuel) (.relocate exchange.move)
      fun _ => True := by
  induction fuel generalizing otherFuel with
  | zero => exact .outOfFuel _
  | succ fuel ih =>
      obtain ⟨otherFuel, rfl⟩ := Nat.exists_eq_add_one_of_ne_zero (by omega : otherFuel ≠ 0)
      exact .seq units.under fun token => .closeOrGoOn bracket token (ih (by omega))

theorem substitution (enough : fuel ≤ otherFuel) :
    exchange.Mirrors bound given (fun fault => substitution (diverted fault) fuel)
      (substitution unit fuel) (substitution otherUnit otherFuel) id fun _ => True :=
  .seq (.follow _ _) fun _ => .seq (group units .brace enough) fun _ => .pure fun _ => ⟨rfl, trivial⟩

end Nested

/-! ## Templates -/

section Substituted

variable {diverted : SyntaxFault → Scan Unit} {substitution otherSubstitution : Scan Unit}
  (substitutions : exchange.Mirrors bound True diverted substitution otherSubstitution id fun _ => True)

include substitutions

theorem templateRest (opening otherOpening : Nat) (enough : fuel ≤ otherFuel) (ending : Literal) :
    exchange.Mirrors bound given (fun fault => templateRest (diverted fault) opening fuel ending)
      (templateRest substitution opening fuel ending)
      (templateRest otherSubstitution otherOpening otherFuel ending) id fun _ => True := by
  induction fuel generalizing otherFuel ending with
  | zero => exact .outOfFuel _
  | succ fuel ih =>
      obtain ⟨otherFuel, rfl⟩ := Nat.exists_eq_add_one_of_ne_zero (by omega : otherFuel ≠ 0)
      refine .ite (fun _ => ?_) fun _ => .pure fun _ => ⟨rfl, trivial⟩
      exact .seq substitutions.under fun _ => .seq (.templatePart _ _) fun next => ih (by omega) next

theorem template (enough : fuel ≤ otherFuel) {first : Token}
    (behindTick : given → exchange.move (first.span.start - 1) = exchange.move first.span.start - 1)
    (ending : Literal) :
    exchange.Mirrors bound given (fun fault => template (diverted fault) fuel first ending)
      (template substitution fuel first ending)
      (template otherSubstitution otherFuel (first.relocate exchange.move) ending)
      (.relocate exchange.move) exchange.QuotesFit := by
  refine .seq (templateRest substitutions _ _ enough ending) fun _ => .seq .position fun stop => ?_
  refine .pure fun holds => ⟨?_, nofun⟩
  have opening := (behindTick holds).symm
  simp only [Token.relocate, Span.relocate] at opening ⊢
  rw [opening]

end Substituted

/-! ## Tags -/

theorem tagToken :
    exchange.Mirrors bound given (fun _ => tagToken) tagToken tagToken (.relocate exchange.move)
      fun _ => True :=
  .seq (.token .tag) fun _ => .ite (fun _ => .fail _ _) fun _ => .pure fun _ => ⟨rfl, trivial⟩

theorem elementName (enough : fuel ≤ otherFuel) (token : Token) :
    exchange.Mirrors bound given (fun _ => elementName fuel token) (elementName fuel token)
      (elementName otherFuel (token.relocate exchange.move)) (Prod.map id (.relocate exchange.move))
      fun _ => True := by
  induction fuel generalizing otherFuel token with
  | zero => exact .outOfFuel _
  | succ fuel ih =>
      obtain ⟨otherFuel, rfl⟩ := Nat.exists_eq_add_one_of_ne_zero (by omega : otherFuel ≠ 0)
      refine .ite (fun _ => ?_) fun _ => .fail _ _
      refine .seq .tagToken fun next => .ite (fun _ => ?_) fun _ => .pure fun _ => ⟨rfl, trivial⟩
      exact .seq .tagToken fun part => .seq (ih (by omega) part) fun more => .pure fun _ => ⟨rfl, trivial⟩

theorem tagName (enough : fuel ≤ otherFuel) (token : Token) :
    exchange.Mirrors bound given (fun _ => tagName fuel token) (tagName fuel token)
      (tagName otherFuel (token.relocate exchange.move)) (Prod.map id (.relocate exchange.move))
      fun _ => True :=
  .ite (fun _ => .pure fun _ => ⟨rfl, trivial⟩) fun _ => .elementName enough token

theorem closingTag (name : Text) (enough : fuel ≤ otherFuel) (opening : Token) :
    exchange.Mirrors bound given (fun _ => closingTag name fuel opening) (closingTag name fuel opening)
      (closingTag name otherFuel (opening.relocate exchange.move)) (.relocate exchange.move)
      fun _ => True := by
  refine .seq .tagToken fun first => .seq (.tagName enough first) fun named => ?_
  refine .seq (.require _ named.2) fun _ => ?_
  exact .ite (fun _ => .pure fun _ => ⟨rfl, trivial⟩) fun _ => .fail _ _

/-! ## Elements -/

section Element

variable {diverted : SyntaxFault → Scan Unit} {substitution otherSubstitution : Scan Unit}
  {divertedIn : SyntaxFault → Token → Scan Token} {element otherElement : Token → Scan Token}
  (substitutions : exchange.Mirrors bound True diverted substitution otherSubstitution id fun _ => True)
  (elements : ∀ token, exchange.Mirrors bound True (fun fault => divertedIn fault token) (element token)
    (otherElement (token.relocate exchange.move)) (.relocate exchange.move) exchange.QuotesFit)

include substitutions elements

theorem attributes (enough : fuel ≤ otherFuel) (token : Token) :
    exchange.Mirrors bound given (fun fault => attributes (diverted fault) (divertedIn fault) fuel token)
      (attributes substitution element fuel token)
      (attributes otherSubstitution otherElement otherFuel (token.relocate exchange.move))
      (.relocate exchange.move) fun _ => True := by
  induction fuel generalizing otherFuel token with
  | zero => exact .outOfFuel _
  | succ fuel ih =>
      obtain ⟨otherFuel, rfl⟩ := Nat.exists_eq_add_one_of_ne_zero (by omega : otherFuel ≠ 0)
      have less : fuel ≤ otherFuel := by omega
      refine .ite (fun _ => .pure fun _ => ⟨rfl, trivial⟩) fun _ => .ite (fun _ => ?_) fun _ => ?_
      · refine .seq .tagToken fun close => .seq (.require _ close) fun _ => ?_
        exact .pure fun _ => ⟨rfl, trivial⟩
      refine .ite (fun _ => ?_) fun _ => .ite (fun _ => ?_) fun _ => ?_
      · exact .seq substitutions.under fun _ => .seq .tagToken (ih less)
      · exact .seq (elements token).under fun _ => .seq .tagToken (ih less)
      · exact .ite (fun _ => .seq .tagToken (ih less)) fun _ => .fail _ _

theorem children (name : Text) (opening otherOpening : Nat) (enough : fuel ≤ otherFuel) :
    exchange.Mirrors bound given
      (fun fault => children (diverted fault) (divertedIn fault) name opening fuel)
      (children substitution element name opening fuel)
      (children otherSubstitution otherElement name otherOpening otherFuel)
      (.relocate exchange.move) fun _ => True := by
  induction fuel generalizing otherFuel with
  | zero => exact .outOfFuel _
  | succ fuel ih =>
      obtain ⟨otherFuel, rfl⟩ := Nat.exists_eq_add_one_of_ne_zero (by omega : otherFuel ≠ 0)
      have less : fuel ≤ otherFuel := by omega
      refine .seq (.elementText _ _) fun _ => .seq .tagToken fun child => .ite (fun _ => ?_) fun _ => ?_
      · exact .seq substitutions.under fun _ => ih less
      refine .ite (fun _ => .closingTag name (by omega) child) fun _ => .ite (fun _ => ?_) fun _ => ?_
      · exact .seq (elements child).under fun _ => ih less
      · exact .fail _ _

theorem elementRest (enough : fuel ≤ otherFuel) (opening : Token) (named : Text × Token) :
    exchange.Mirrors bound given
      (fun fault => elementRest (diverted fault) (divertedIn fault) fuel opening named)
      (elementRest substitution element fuel opening named)
      (elementRest otherSubstitution otherElement otherFuel (opening.relocate exchange.move)
        (named.map id (.relocate exchange.move))) (.relocate exchange.move) fun _ => True := by
  refine .seq (attributes substitutions elements enough named.2) fun ending => ?_
  cases ending with
  | opened => exact children substitutions elements named.1 _ _ enough
  | selfClosed stop => exact .pure fun _ => ⟨rfl, trivial⟩

end Element

theorem element {diverted : SyntaxFault → Scan Unit} {substitution otherSubstitution : Scan Unit}
    (substitutions : exchange.Mirrors bound True diverted substitution otherSubstitution id fun _ => True)
    (enough : fuel ≤ otherFuel) (opening : Token) :
    exchange.Mirrors bound given (fun fault => element (diverted fault) fuel opening)
      (element substitution fuel opening)
      (element otherSubstitution otherFuel (opening.relocate exchange.move)) (.relocate exchange.move)
      exchange.QuotesFit := by
  induction fuel generalizing otherFuel opening given with
  | zero => exact .outOfFuel _
  | succ fuel ih =>
      obtain ⟨otherFuel, rfl⟩ := Nat.exists_eq_add_one_of_ne_zero (by omega : otherFuel ≠ 0)
      refine .seq .tagToken fun first => .seq (.tagName enough first) fun named => ?_
      have less : fuel ≤ otherFuel := by omega
      refine .seq (elementRest substitutions (fun token => ih less token) enough opening named) fun stop => ?_
      exact .pure fun _ => ⟨rfl, nofun⟩

/-! ## Units -/

section Fold

variable {divertedIn : SyntaxFault → Bracket → Scan Token} {inner otherInner : Scan Token}
  (inners : ∀ bracket, exchange.Mirrors bound True (fun fault => divertedIn fault bracket) inner otherInner
    (.relocate exchange.move) exchange.QuotesFit)
  (enough : fuel ≤ otherFuel)

include inners enough

theorem foldOperand (operand : Bool) {token : Token} (fits : given → exchange.Fits token) :
    exchange.Mirrors bound given (fun fault => foldOperand (divertedIn fault .brace) fuel operand token)
      (foldOperand inner fuel operand token)
      (foldOperand otherInner otherFuel operand (token.relocate exchange.move)) (.relocate exchange.move)
      exchange.QuotesFit := by
  have substitutions : exchange.Mirrors bound True _ _ _ _ _ := substitution (inners .brace) enough
  unfold Scan.foldOperand
  rw [Token.kind_relocate]
  split
  · rename_i isTemplate
    exact .template substitutions enough (fun holds => (fits holds).tick (by rw [isTemplate]; rfl)) _
  · rename_i isTemplate
    exact .template substitutions enough (fun holds => (fits holds).tick (by rw [isTemplate]; rfl)) _
  · refine .ite (fun _ => .element substitutions enough token) fun _ => ?_
    exact .pure fun holds => ⟨rfl, (fits holds).quotes⟩
  · exact .pure fun holds => ⟨rfl, (fits holds).quotes⟩

theorem foldGroup {token : Token} (fits : given → exchange.QuotesFit token) :
    exchange.Mirrors bound given
      (fun fault => foldGroup (divertedIn fault (token.kind.opens?.getD .brace)) fuel token)
      (foldGroup inner fuel token) (foldGroup otherInner otherFuel (token.relocate exchange.move))
      (.relocate exchange.move) exchange.QuotesFit := by
  simp only [Scan.foldGroup, Token.kind_relocate]
  cases opens : token.kind.opens? with
  | none => exact .pure fun holds => ⟨rfl, fits holds⟩
  | some bracket =>
      refine .seq (.follow _ _) fun _ => .seq (group (inners _) bracket enough) fun stop => ?_
      refine .pure fun _ => ⟨rfl, fun string => ?_⟩
      rw [show token.kind = _ from string] at opens
      cases opens

theorem unitWithin :
    exchange.Mirrors (bound + 1) given (fun fault => unitWithin (divertedIn fault) fuel)
      (unitOver inner fuel) (unitOver otherInner otherFuel) (.relocate exchange.move)
      exchange.QuotesFit := by
  refine .seq .previous fun before => .seq .operandDue fun operand => ?_
  refine .bindWithin bound (.token _) ?_ fun first => ?_
  · intro reader token after run leads within
    have less := left_lt_of_token run leads
    omega
  refine .bind (foldOperand inners enough operand And.right) fun whole => ?_
  refine .bind (foldGroup inners enough fun holds => holds.2.plain before) fun unit => ?_
  exact .seq (.follow _ _) fun _ => .pure fun holds => ⟨rfl, holds.2⟩

end Fold

/-- The group itself, with enough steps for either content. -/
theorem agree_unit (exchange : Exchange) {depth otherDepth : Nat}
    (enough : depth + exchange.new.length ≤ otherDepth) (within : exchange.place.left < depth) :
    exchange.Agree (.relocate exchange.move) exchange.QuotesFit (unit depth exchange.place)
      (unit otherDepth exchange.otherPlace) := by
  have otherWithin : exchange.otherPlace.left < otherDepth := by
    simp only [Reader.left, Enclosure.around, Enclosure.behindMark, List.length_append] at within ⊢
    omega
  rw [exchange.oldCloses.read within, exchange.newCloses.read otherWithin]
  have behind : exchange.Behind (exchange.stop exchange.old) (exchange.stop exchange.new) := ⟨0, rfl, rfl⟩
  have opened : exchange.move exchange.start = exchange.start := if_pos (Nat.le_refl _)
  have quotes : exchange.QuotesFit (exchange.whole exchange.old) := fun string => Kind.noConfusion string
  refine ⟨quotes, exchange.past exchange.new, ?_, rfl, behind, rfl, rfl⟩
  simp only [Enclosure.whole, Token.relocate, Span.relocate, opened, behind.move]

/-- Units are read around a group as the scan that is diverted there tells. -/
theorem unit {depth otherDepth : Nat} (enough : depth + exchange.new.length ≤ otherDepth)
    (within inside : Option Bracket) :
    exchange.Mirrors depth given
      (fun fault => unitUnless ⟨within, exchange.place⟩ (Scan.fail fault) depth inside) (unit depth)
      (unit otherDepth) (.relocate exchange.move) exchange.QuotesFit := by
  induction depth generalizing otherDepth inside given with
  | zero => exact .outOfFuel _
  | succ depth ih =>
      obtain ⟨otherDepth, rfl⟩ := Nat.exists_eq_add_one_of_ne_zero (by omega : otherDepth ≠ 0)
      let spot : Spot := ⟨within, exchange.place⟩
      have step : exchange.Mirrors (depth + 1) given _ (Scan.unit (depth + 1)) (Scan.unit (otherDepth + 1))
          (.relocate exchange.move) exchange.QuotesFit :=
        unitWithin (fun bracket => ih (by omega) (some bracket)) (by omega)
      -- Away from the group the diverted scan reads the unit as it is.
      have elsewhere {reader : Reader} (apart : ¬ (inside = within ∧ reader = exchange.place))
          (fault : SyntaxFault) :
          unitUnless spot (Scan.fail fault) (depth + 1) inside reader =
            Relink.Scan.unitWithin (fun bracket => unitUnless spot (Scan.fail fault) depth (some bracket))
              depth reader :=
        if_neg apart
      exact {
        parts := by
          intro reader
          by_cases here : inside = within ∧ reader = exchange.place
          · obtain ⟨rfl, rfl⟩ := here
            exact .inr ⟨fun fault => unitUnless_there .., .refl _⟩
          · rcases step.parts reader with same | ⟨diverts, leads⟩
            · exact .inl fun fault => (elsewhere here fault).trans (same fault)
            · exact .inr ⟨fun fault => (elsewhere here fault).trans (diverts fault), leads⟩
        leads := step.leads
        before := step.before
        meets := by
          intro holds reader twin before fits diverts
          by_cases here : inside = within ∧ reader = exchange.place
          · obtain ⟨-, rfl⟩ := here
            obtain ⟨passed, passes, rfl⟩ := before
            obtain rfl := passes.unique (.refl _)
            exact agree_unit exchange enough fits
          · exact step.meets holds before fits fun fault => (elsewhere here fault).symm.trans (diverts fault)
        after := step.after }

end Exchange.Mirrors

end Relink
