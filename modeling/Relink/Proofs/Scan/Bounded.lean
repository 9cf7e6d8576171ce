import Relink.Proofs.Scan.Unit
import Relink.Proofs.Text.Boundary

/-!
# Faults within the text

Whatever a scan gives up on lies within the text: a fault names a token that was read, or what
stands from a place that was passed to the end of the text.
-/

set_option autoImplicit false

namespace Relink

open Scan

/-! ## Trivia before a fault -/

theorem Trivia.beforeFault_append (text : Text) :
    (beforeFault text).1 ++ (beforeFault text).2 = text := by
  fun_induction beforeFault text with
  | case1 => rfl
  | case2 rest after ih =>
      have line : rest.takeWhile (· != '\n') ++ rest.dropWhile (· != '\n') = rest :=
        List.takeWhile_append_dropWhile
      simp only [after, List.cons_append, List.append_assoc, ih, line]
  | case3 rest body after found more ih =>
      simp only [more, List.cons_append, List.append_assoc, ih, throughBlock?_append found]
  | case4 => rfl
  | case5 c rest _ _ _ more ih => simp only [more, List.cons_append, ih]
  | case6 => rfl

/-! ## Bounded actions -/

namespace Scan

/-- From `reader` on, an action fails within the text, or it goes on there with `post`. -/
def Bounded {α : Type} (reader : Reader) (action : Scan α) (post : α → Reader → Prop) : Prop :=
  match action reader with
  | .ok (value, after) => reader.Leads after ∧ post value after
  | .error (.faulty fault) =>
    fault.span.start ≤ fault.span.stop ∧ fault.span.stop ≤ reader.finish
  | .error .outOfFuel => True

namespace Bounded

variable {α β : Type} {reader : Reader} {post : α → Reader → Prop}

theorem of_ok {action : Scan α} {value : α} {after : Reader}
    (run : action reader = .ok (value, after)) (leads : reader.Leads after)
    (holds : post value after) : Bounded reader action post := by
  unfold Bounded
  rw [run]
  exact ⟨leads, holds⟩

theorem pure {value : α} (holds : post value reader) :
    Bounded reader (pure value : Scan α) post :=
  of_ok rfl (.refl reader) holds

theorem outOfFuel : Bounded reader Scan.outOfFuel post := trivial

theorem fail {fault : SyntaxFault} (ordered : fault.span.start ≤ fault.span.stop)
    (within : fault.span.stop ≤ reader.finish) : Bounded reader (Scan.fail fault) post :=
  ⟨ordered, within⟩

theorem bind {first : Scan β} {next : β → Scan α} {middle : β → Reader → Prop}
    (front : Bounded reader first middle)
    (back : ∀ value between, reader.Leads between → middle value between →
      Bounded between (next value) post) : Bounded reader (first >>= next) post := by
  unfold Bounded at front ⊢
  cases run : first reader with
  | error halt =>
      rw [run] at front
      have failed : (first >>= next) reader = .error halt := by
        simp only [Bind.bind, StateT.bind, run, Except.bind]
      rw [failed]
      cases halt with
      | faulty fault => exact front
      | outOfFuel => trivial
  | ok parts =>
      obtain ⟨value, between⟩ := parts
      rw [run] at front
      obtain ⟨leads, holds⟩ := front
      have rest := back value between leads holds
      unfold Bounded at rest
      rw [bind_of_ok run, ← leads.finish_eq]
      cases later : next value between with
      | error halt =>
          rw [later] at rest
          cases halt with
          | faulty fault => exact rest
          | outOfFuel => trivial
      | ok result =>
          rw [later] at rest
          exact ⟨leads.trans rest.1, rest.2⟩

theorem ite {condition : Prop} [Decidable condition] {yes no : Scan α}
    (first : condition → Bounded reader yes post) (second : ¬ condition → Bounded reader no post) :
    Bounded reader (if condition then yes else no) post := by
  split
  · exact first (by assumption)
  · exact second (by assumption)

theorem mono {action : Scan α} {weaker : α → Reader → Prop} (bounded : Bounded reader action post)
    (weaken : ∀ value after, post value after → weaker value after) :
    Bounded reader action weaker := by
  unfold Bounded at bounded ⊢
  split at bounded
  · exact ⟨bounded.1, weaken _ _ bounded.2⟩
  · exact bounded
  · trivial

end Bounded

/-! ## Spans that were read -/

/-- A span before the place that a reader is at, which ends at `low` or behind it. -/
structure ReadFrom (low : Nat) (reader : Reader) (span : Span) : Prop where
  ordered : span.start ≤ span.stop
  beyond : low ≤ span.stop
  behind : span.stop ≤ reader.position

namespace ReadFrom

variable {low : Nat} {reader after : Reader} {span : Span}

theorem later (read : ReadFrom low reader span) (leads : reader.Leads after) :
    ReadFrom low after span :=
  ⟨read.ordered, read.beyond, Nat.le_trans read.behind leads.position_le⟩

theorem lower {less : Nat} (read : ReadFrom low reader span) (before : less ≤ low) :
    ReadFrom less reader span :=
  ⟨read.ordered, Nat.le_trans before read.beyond, read.behind⟩

theorem upTo {low start : Nat} (read : ReadFrom low after span) (before : start ≤ low) :
    ReadFrom low after ⟨start, span.stop⟩ :=
  ⟨Nat.le_trans before read.beyond, read.beyond, read.behind⟩

end ReadFrom

theorem Bounded.fail_at {α : Type} {low : Nat} {reader : Reader} {post : α → Reader → Prop}
    {fault : SyntaxFault} (read : ReadFrom low reader fault.span) :
    Bounded reader (Scan.fail fault) post :=
  .fail read.ordered (Nat.le_trans read.behind (Nat.le_add_right ..))

abbrev Reads (reader : Reader) (action : Scan Token) : Prop :=
  Bounded reader action fun token after => ReadFrom reader.position after token.span

/-! ## What scans are built from -/

section Actions

variable {reader : Reader}

theorem token_bounded (mode : Token.Mode) : Reads reader (token mode) := by
  cases lexed : Token.lex mode reader.rest with
  | error fault =>
      have run : token mode reader = .error (.faulty (reader.unreadable fault)) := by
        simp only [token, Reader.token, lexed]
      unfold Reads Bounded
      rw [run]
      have whole := congrArg Text.size (Trivia.beforeFault_append reader.rest)
      rw [Text.size_append] at whole
      simp only [Reader.unreadable, Reader.finish]
      omega
  | ok found =>
      refine .of_ok (token_of_lex lexed) ⟨_, Reader.passes_past lexed⟩ ⟨?_, ?_, ?_⟩
      all_goals
        simp only [Reader.tokenOf, Reader.past, Reader.advance, Text.size_append]
        omega

theorem templatePart_bounded {opening : Nat} (passed : opening ≤ reader.position) :
    Bounded reader (templatePart opening) fun _ _ => True := by
  cases part : Token.templatePart reader.rest with
  | error fault =>
      have run : templatePart opening reader =
          .error (.faulty ⟨.unterminatedTemplate, ⟨opening, reader.finish⟩, none⟩) := by
        simp only [templatePart, part]
      unfold Bounded
      rw [run]
      exact ⟨Nat.le_trans passed (Nat.le_add_right ..), Nat.le_refl _⟩
  | ok parts =>
      obtain ⟨chars, ending, closing, rest⟩ := parts
      have run : templatePart opening reader = .ok (ending, reader.advance (chars ++ closing) rest) := by
        simp only [templatePart, part]
      exact .of_ok run ⟨_, Reader.passes_advance (Token.templatePart_extent part).1⟩ trivial

theorem elementText_bounded {opening : Nat} (passed : opening ≤ reader.position) :
    Bounded reader (elementText opening) fun _ _ => True := by
  by_cases ended : (reader.rest.dropWhile isElementText).isEmpty = true
  · have run : elementText opening reader =
        .error (.faulty ⟨.unexpectedEnd, ⟨opening, reader.finish⟩, none⟩) := by
      simp only [elementText, ended, if_true]
    unfold Bounded
    rw [run]
    exact ⟨Nat.le_trans passed (Nat.le_add_right ..), Nat.le_refl _⟩
  · have run : elementText opening reader =
        .ok ((), reader.advance (reader.rest.takeWhile isElementText)
          (reader.rest.dropWhile isElementText)) := by
      simp only [elementText, ended, if_false, Bool.false_eq_true]
    exact .of_ok run ⟨_, Reader.passes_advance List.takeWhile_append_dropWhile⟩ trivial

theorem require_bounded {low : Nat} {kind : Kind} {token : Token}
    (read : ReadFrom low reader token.span) :
    Bounded reader (require kind token) fun _ after => reader = after :=
  .ite (fun _ => .pure rfl) fun _ => .fail_at read

theorem position_bounded : Bounded reader position fun stop after => stop = after.position :=
  .of_ok rfl (.refl reader) rfl

theorem previous_bounded (reader : Reader) :
    Bounded reader previous fun _ after => reader = after :=
  .of_ok rfl (.refl reader) rfl

theorem operandDue_bounded (reader : Reader) :
    Bounded reader operandDue fun _ after => reader = after :=
  .of_ok rfl (.refl reader) rfl

theorem expectOperand_bounded (due : Bool) :
    Bounded reader (expectOperand due) fun _ _ => True :=
  .of_ok rfl ⟨[], rfl, rfl⟩ trivial

theorem follow_bounded (operand : Bool) (previous : Kind) :
    Bounded reader (follow operand previous) fun _ _ => True :=
  .of_ok rfl ⟨[], rfl, rfl⟩ trivial

end Actions

/-! ## Groups and templates -/

section Group

variable {inner : Scan Token} (reads : ∀ reader, Reads reader inner)

include reads

theorem group_bounded (bracket : Bracket) (fuel : Nat) (reader : Reader) :
    Bounded reader (group inner bracket fuel) fun stop after =>
      ReadFrom reader.position after stop := by
  induction fuel generalizing reader with
  | zero => exact .outOfFuel
  | succ fuel ih =>
      apply Bounded.bind (reads reader)
      intro token middle leads read
      apply Bounded.ite (fun _ => .pure read)
      intro _
      apply Bounded.ite (fun _ => .fail_at read)
      intro _
      apply Bounded.ite (fun _ => .fail_at read)
      intro _
      exact (ih middle).mono fun stop after later => later.lower leads.position_le

theorem substitution_bounded (fuel : Nat) (reader : Reader) :
    Bounded reader (substitution inner fuel) fun _ _ => True := by
  apply Bounded.bind (follow_bounded ..)
  intro _ middle _ _
  exact .bind (group_bounded reads .brace fuel middle) fun _ _ _ _ => .pure trivial

end Group

section Fold

variable {substitution : Scan Unit}
  (passes : ∀ reader, Bounded reader substitution fun _ _ => True)

include passes

theorem templateRest_bounded {opening : Nat} (fuel : Nat) (ending : Literal) {reader : Reader}
    (passed : opening ≤ reader.position) :
    Bounded reader (templateRest substitution opening fuel ending) fun _ _ => True := by
  induction fuel generalizing ending reader with
  | zero => exact .outOfFuel
  | succ fuel ih =>
      refine .ite (fun _ => ?_) fun _ => .pure trivial
      apply Bounded.bind (passes reader)
      intro _ middle leads _
      have still := Nat.le_trans passed leads.position_le
      apply Bounded.bind (templatePart_bounded still)
      intro next behind later _
      exact ih next (Nat.le_trans still later.position_le)

theorem template_bounded {low : Nat} (fuel : Nat) (ending : Literal) {reader : Reader} {first : Token}
    (read : ReadFrom low reader first.span) :
    Reads reader (template substitution fuel first ending) := by
  have passed : first.span.start - 1 ≤ reader.position :=
    Nat.le_trans (Nat.sub_le ..) (Nat.le_trans read.ordered read.behind)
  apply Bounded.bind (templateRest_bounded passes fuel ending passed)
  intro _ middle leads _
  refine .bind position_bounded fun stop after later same => .pure ?_
  subst same
  have reached := (leads.trans later).position_le
  exact ⟨Nat.le_trans passed reached, reached, Nat.le_refl _⟩

/-! ## Elements -/

omit passes

theorem tagToken_bounded (reader : Reader) : Reads reader tagToken := by
  apply Bounded.bind (token_bounded .tag)
  intro token middle _ read
  exact .ite (fun _ => .fail_at read) fun _ => .pure read

theorem elementName_bounded {low : Nat} (fuel : Nat) {token : Token} {reader : Reader}
    (read : ReadFrom low reader token.span) :
    Bounded reader (elementName fuel token) fun named after => ReadFrom low after named.2.span := by
  induction fuel generalizing token reader with
  | zero => exact .outOfFuel
  | succ fuel ih =>
      have reached := Nat.le_trans read.beyond read.behind
      refine .ite (fun _ => ?_) fun _ => .fail_at read
      apply Bounded.bind (tagToken_bounded reader)
      intro next middle leads nextRead
      refine .ite (fun _ => ?_) fun _ => .pure (nextRead.lower reached)
      apply Bounded.bind (tagToken_bounded middle)
      intro part behind later partRead
      have still := Nat.le_trans reached leads.position_le
      exact .bind (ih (partRead.lower still)) fun more last _ found => .pure found

theorem tagName_bounded {low : Nat} (fuel : Nat) {token : Token} {reader : Reader}
    (read : ReadFrom low reader token.span) :
    Bounded reader (tagName fuel token) fun named after => ReadFrom low after named.2.span :=
  .ite (fun _ => .pure read) fun _ => elementName_bounded fuel read

/-- The span of the token that ends a tag, if the element ends with it. -/
def TagEnd.ReadFrom (low : Nat) (reader : Reader) : TagEnd → Prop
  | .opened => True
  | .selfClosed stop => Scan.ReadFrom low reader stop

section Element

variable {elementIn : Token → Scan Token}
  (folds : ∀ (low : Nat) (reader : Reader) (token : Token), ReadFrom low reader token.span →
    Reads reader (elementIn token))

include passes folds

theorem attributes_bounded {low : Nat} (fuel : Nat) {token : Token} {reader : Reader}
    (read : ReadFrom low reader token.span) :
    Bounded reader (attributes substitution elementIn fuel token) fun ending after =>
      ending.ReadFrom low after := by
  induction fuel generalizing token reader with
  | zero => exact .outOfFuel
  | succ fuel ih =>
      have reached := Nat.le_trans read.beyond read.behind
      -- Whatever was passed, the tag goes on with the next token.
      have goOn : ∀ between, reader.Leads between →
          Bounded between (tagToken >>= attributes substitution elementIn fuel) fun ending after =>
            ending.ReadFrom low after := by
        intro between leads
        apply Bounded.bind (tagToken_bounded between)
        intro next behind later nextRead
        exact ih (nextRead.lower (Nat.le_trans reached leads.position_le))
      apply Bounded.ite (fun _ => .pure trivial)
      intro _
      refine .ite (fun _ => ?_) fun _ => ?_
      · apply Bounded.bind (tagToken_bounded reader)
        intro close middle leads closeRead
        refine .bind (require_bounded closeRead) fun _ _ _ same => .pure ?_
        subst same
        exact closeRead.lower reached
      refine .ite (fun _ => ?_) fun _ => ?_
      · exact .bind (passes reader) fun _ middle leads _ => goOn middle leads
      refine .ite (fun _ => ?_) fun _ => ?_
      · exact .bind (folds low reader token read) fun _ middle leads _ => goOn middle leads
      exact .ite (fun _ => goOn reader (.refl reader)) fun _ => .fail_at read

omit passes folds in
theorem closingTag_bounded {low : Nat} (name : Text) (fuel : Nat) {opening : Token} {reader : Reader}
    (read : ReadFrom low reader opening.span) :
    Bounded reader (closingTag name fuel opening) fun stop after =>
      ReadFrom reader.position after stop := by
  apply Bounded.bind (tagToken_bounded reader)
  intro first middle leads firstRead
  apply Bounded.bind (tagName_bounded fuel firstRead)
  intro named behind _ namedRead
  apply Bounded.bind (require_bounded namedRead)
  intro _ _ _ same
  subst same
  have mismatch := namedRead.upTo (Nat.le_trans read.ordered read.behind)
  exact .ite (fun _ => .pure namedRead) fun _ => .fail_at mismatch

theorem children_bounded (name : Text) {opening : Nat} (fuel : Nat) {reader : Reader}
    (passed : opening ≤ reader.position) :
    Bounded reader (children substitution elementIn name opening fuel) fun stop after =>
      ReadFrom reader.position after stop := by
  induction fuel generalizing reader with
  | zero => exact .outOfFuel
  | succ fuel ih =>
      have goOn : ∀ between, reader.Leads between →
          Bounded between (children substitution elementIn name opening fuel) fun stop after =>
            ReadFrom reader.position after stop := by
        intro between leads
        have reached := leads.position_le
        exact (ih (Nat.le_trans passed reached)).mono fun stop after found => found.lower reached
      apply Bounded.bind (elementText_bounded passed)
      intro _ behind leads _
      apply Bounded.bind (tagToken_bounded behind)
      intro child middle later childRead
      have between := leads.trans later
      refine .ite (fun _ => ?_) fun _ => ?_
      · exact .bind (passes middle) fun _ last final _ => goOn last (between.trans final)
      refine .ite (fun _ => ?_) fun _ => ?_
      · exact (closingTag_bounded name fuel childRead).mono fun stop after found =>
          found.lower between.position_le
      refine .ite (fun _ => ?_) fun _ => .fail_at childRead
      exact .bind (folds _ middle child childRead) fun _ last final _ => goOn last (between.trans final)

theorem elementRest_bounded {low start : Nat} (fuel : Nat) {opening : Token} {named : Text × Token}
    {reader : Reader} (openingRead : ReadFrom start reader opening.span)
    (read : ReadFrom low reader named.2.span) :
    Bounded reader (elementRest substitution elementIn fuel opening named) fun stop after =>
      ReadFrom low after stop := by
  apply Bounded.bind (attributes_bounded passes folds fuel read)
  intro ending after leads found
  cases ending with
  | selfClosed stop => exact .pure found
  | opened =>
      have passed := Nat.le_trans (Nat.le_trans openingRead.ordered openingRead.behind)
        leads.position_le
      have reached := Nat.le_trans (Nat.le_trans read.beyond read.behind) leads.position_le
      exact (children_bounded passes folds named.1 fuel passed).mono fun stop last found =>
        found.lower reached

end Element

include passes in
theorem element_bounded (fuel : Nat) {low : Nat} {reader : Reader} {opening : Token}
    (read : ReadFrom low reader opening.span) :
    Reads reader (element substitution fuel opening) := by
  induction fuel generalizing low reader opening with
  | zero => exact .outOfFuel
  | succ fuel ih =>
      have folds : ∀ (low : Nat) (reader : Reader) (token : Token), ReadFrom low reader token.span →
          Reads reader (element substitution fuel token) := fun _ _ _ found => ih found
      apply Bounded.bind (tagToken_bounded reader)
      intro first middle leads firstRead
      apply Bounded.bind (tagName_bounded (fuel + 1) firstRead)
      intro named behind later namedRead
      have openingRead := read.later (leads.trans later)
      refine .bind (elementRest_bounded passes folds (fuel + 1) openingRead namedRead)
        fun stop last _ found => .pure ?_
      exact found.upTo (Nat.le_trans read.ordered read.behind)

end Fold

/-! ## Units -/

section Unit

variable {inner : Scan Token} (reads : ∀ reader, Reads reader inner)

include reads

theorem foldGroup_bounded {low : Nat} (fuel : Nat) {reader : Reader} {token : Token}
    (read : ReadFrom low reader token.span) :
    Bounded reader (foldGroup inner fuel token) fun whole after => ReadFrom low after whole.span := by
  unfold foldGroup
  split
  · apply Bounded.bind (follow_bounded ..)
    intro _ middle leads _
    refine .bind (group_bounded reads _ fuel middle) fun stop last _ found => .pure ?_
    have before := Nat.le_trans read.behind leads.position_le
    exact (found.upTo (Nat.le_trans read.ordered before)).lower (Nat.le_trans read.beyond before)
  · exact .pure read

theorem foldOperand_bounded {low : Nat} (fuel : Nat) (operand : Bool) {reader : Reader} {token : Token}
    (read : ReadFrom low reader token.span) :
    Bounded reader (foldOperand inner fuel operand token) fun whole after =>
      ReadFrom low after whole.span := by
  have reached := Nat.le_trans read.beyond read.behind
  have passes := substitution_bounded reads fuel
  unfold foldOperand
  split
  · exact (template_bounded passes fuel _ read).mono fun _ _ found => found.lower reached
  · exact (template_bounded passes fuel _ read).mono fun _ _ found => found.lower reached
  · refine .ite (fun _ => ?_) fun _ => .pure read
    exact (element_bounded passes fuel read).mono fun _ _ found => found.lower reached
  · exact .pure read

end Unit

theorem unit_bounded (fuel : Nat) (reader : Reader) : Reads reader (unit fuel) := by
  induction fuel generalizing reader with
  | zero => exact .outOfFuel
  | succ fuel ih =>
      apply Bounded.bind (previous_bounded reader)
      intro before _ _ same
      subst same
      apply Bounded.bind (operandDue_bounded reader)
      intro operand _ _ same
      subst same
      apply Bounded.bind (token_bounded _)
      intro first middle _ firstRead
      apply Bounded.bind (foldOperand_bounded ih fuel operand firstRead)
      intro whole behind _ wholeRead
      have kindRead : ReadFrom reader.position behind
          { whole with kind := plainKind before whole.kind }.span := wholeRead
      apply Bounded.bind (foldGroup_bounded ih fuel kindRead)
      intro folded last _ read
      exact .bind (follow_bounded ..) fun _ _ later _ => .pure (read.later later)

end Scan

end Relink
