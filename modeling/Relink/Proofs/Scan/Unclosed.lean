import Relink.Proofs.Coverage
import Relink.Proofs.Scan.Phrase

/-!
# Units that close nothing

No unit of a statement is a closing bracket: whatever brackets are closed are closed within a unit. The only
place where a statement passes over one is where the value of an `export default` is due.
-/

set_option autoImplicit false

namespace Relink

open Scan

/-! ## Units behind others -/

/-- Units behind which the value of an `export default` is due. -/
def AwaitsValue (units : List Token) : Prop :=
  [.keyword .exportWord, .keyword .defaultWord] <:+ units.map (·.kind)

theorem AwaitsValue.behind {units : List Token} (awaits : AwaitsValue units) (before : List Token) :
    AwaitsValue (before ++ units) := by
  rw [AwaitsValue, List.map_append]
  exact awaits.trans (List.suffix_append ..)

/-- Behind the units `before` a closing bracket is a unit only where a value is due. -/
def OpenBehind (before units : List Token) : Prop :=
  ∀ front closing back, units = front ++ closing :: back → closing.kind.closes?.isSome = true →
    AwaitsValue (before ++ front)

namespace OpenBehind

variable {before : List Token}

theorem nil : OpenBehind before [] := by
  intro front closing back parts
  cases front <;> cases parts

theorem cons {token : Token} {units : List Token}
    (opened : token.kind.closes?.isSome = true → AwaitsValue before)
    (later : OpenBehind (before ++ [token]) units) : OpenBehind before (token :: units) := by
  intro front closing back parts closes
  cases front with
  | nil =>
      cases parts
      rw [List.append_nil]
      exact opened closes
  | cons first front =>
      cases parts
      rw [List.append_cons]
      exact later front closing back rfl closes

theorem of_none {units : List Token} (noClose : ∀ unit ∈ units, unit.kind.closes? = none) :
    OpenBehind before units := by
  intro front closing back parts closes
  rw [noClose closing (by rw [parts]; simp)] at closes
  cases closes

theorem append {units others : List Token} (first : OpenBehind before units)
    (second : OpenBehind (before ++ units) others) : OpenBehind before (units ++ others) := by
  induction units generalizing before with
  | nil => simpa using second
  | cons token units ih =>
      refine .cons (fun closes => ?_) (ih ?_ ?_)
      · simpa using first [] token units rfl closes
      · intro front closing back parts closes
        rw [← List.append_cons]
        exact first (token :: front) closing back (by rw [parts, List.cons_append]) closes
      · rwa [List.append_assoc]

theorem behind {units : List Token} (opened : OpenBehind [] units) (before : List Token) :
    OpenBehind before units := fun front closing back parts closes =>
  (opened front closing back parts closes).behind before

theorem flatten {groups : List (List Token)} (opened : ∀ units ∈ groups, OpenBehind [] units) :
    OpenBehind [] groups.flatten := by
  induction groups with
  | nil => exact nil
  | cons units groups ih =>
      have later := ih fun units member => opened units (List.mem_cons_of_mem _ member)
      exact (opened units (List.mem_cons_self ..)).append (later.behind _)

end OpenBehind

/-! ## Scans of units -/

variable {depth : Nat} {before : List Token} {reader middle : Reader} {token : Token} {α : Type}
  [Located α]

/-- A scan behind the units `before` that ends with a pending unit passes over no closing bracket. -/
def Unclosing (depth : Nat) (before : List Token) (reader : Reader) (action : Scan (α × Token)) : Prop :=
  ∀ value next after, action reader = .ok ((value, next), after) →
    ∃ units border past, StopsAt depth reader (Located.stop value) next after units border past ∧
      OpenBehind before units

/-- The same of a scan that goes on behind `token`, which was read at `reader`: it passes over the token, or
it hands it on. -/
inductive UnclosingBehind (depth : Nat) (before : List Token) (reader : Reader) (token : Token)
    (middle : Reader) (action : Scan (α × Token)) : Prop where
  | passed : (token.kind.closes?.isSome = true → AwaitsValue before) →
      Unclosing depth (before ++ [token]) middle action →
        UnclosingBehind depth before reader token middle action
  | pending {value : α} {noted : Reader} : Located.stop value = reader.position → middle.Notes noted →
      action middle = .ok ((value, token), noted) → UnclosingBehind depth before reader token middle action
  | failing : (∀ result, action middle ≠ .ok result) →
      UnclosingBehind depth before reader token middle action

namespace Unclosing

theorem of_failing {action : Scan (α × Token)} (fails : ∀ result, action reader ≠ .ok result) :
    Unclosing depth before reader action :=
  fun value next after run => absurd run (fails ((value, next), after))

theorem ite {condition : Prop} [Decidable condition] {yes no : Scan (α × Token)}
    (holds : condition → Unclosing depth before reader yes)
    (fails : ¬ condition → Unclosing depth before reader no) :
    Unclosing depth before reader (if condition then yes else no) := by
  by_cases decided : condition
  · simpa only [if_pos decided] using holds decided
  · simpa only [if_neg decided] using fails decided

theorem next {value : α} (here : Located.stop value = reader.position) :
    Unclosing depth before reader (Scan.unit depth >>= fun next => pure (value, next)) := by
  intro result next after run
  obtain ⟨token, past, read, done⟩ := bind_eq_ok run
  cases done
  exact ⟨[], reader, after, ⟨.refl reader, here, read, .refl after⟩, .nil⟩

theorem seq {β : Type} {action : Scan β} {next : β → Scan (α × Token)}
    (rest : ∀ value middle, action reader = .ok (value, middle) →
      ∃ units, Units reader units middle ∧ OpenBehind before units ∧
        Unclosing depth (before ++ units) middle (next value)) :
    Unclosing depth before reader (action >>= next) := by
  intro result token after run
  obtain ⟨value, middle, first, run⟩ := bind_eq_ok run
  obtain ⟨units, chain, opened, ends⟩ := rest value middle first
  obtain ⟨more, border, past, is, still⟩ := ends result token after run
  exact ⟨units ++ more, border, past, ⟨chain.append is.units, is.stop, is.read, is.notes⟩,
    opened.append still⟩

/-- Whether an operand is due may be noted. -/
theorem note {action : Scan Unit} {noted : Reader} {next : Scan (α × Token)}
    (run : action reader = .ok ((), noted)) (notes : reader.Notes noted)
    (rest : Unclosing depth before noted next) :
    Unclosing depth before reader (action >>= fun _ => next) := by
  refine seq fun value middle again => ⟨[], ?_, .nil, ?_⟩
  · cases run.symm.trans again
    exact .nil notes
  · cases run.symm.trans again
    rwa [List.append_nil]

theorem unit {next : Token → Scan (α × Token)}
    (rest : ∀ token middle, Scan.unit depth reader = .ok (token, middle) →
      UnclosingBehind depth before reader token middle (next token)) :
    Unclosing depth before reader (Scan.unit depth >>= next) := by
  intro result pending after run
  obtain ⟨token, middle, read, run⟩ := bind_eq_ok run
  cases rest token middle read with
  | passed opened later =>
      obtain ⟨units, border, past, is, still⟩ := later result pending after run
      exact ⟨token :: units, border, past,
        ⟨.cons (.refl reader) read is.units, is.stop, is.read, is.notes⟩, .cons opened still⟩
  | pending here notes done =>
      cases done.symm.trans run
      exact ⟨[], reader, middle, ⟨.refl reader, here, read, notes⟩, .nil⟩
  | failing fails => exact absurd run (fails _)

theorem map {β : Type} [Located β] {action : Scan (α × Token)}
    (unclosing : Unclosing depth before reader action) (move : α → β)
    (same : ∀ value, Located.stop (move value) = Located.stop value) :
    Unclosing depth before reader (action >>= fun parts => pure (move parts.1, parts.2)) := by
  intro result next after run
  obtain ⟨⟨value, pending⟩, last, first, done⟩ := bind_eq_ok run
  cases done
  obtain ⟨units, border, past, is, opened⟩ := unclosing value pending after first
  exact ⟨units, border, past, ⟨is.units, (same value).trans is.stop, is.read, is.notes⟩, opened⟩

/-- A scan that goes on with the unit it ended before. -/
theorem andThen {β : Type} [Located β] {action : Scan (β × Token)} {next : β × Token → Scan (α × Token)}
    (first : Unclosing depth before reader action)
    (second : ∀ value token middle units border, Located.stop value = border.position →
      UnclosingBehind depth (before ++ units) border token middle (next (value, token))) :
    Unclosing depth before reader (action >>= next) := by
  intro result pending after run
  obtain ⟨⟨value, token⟩, middle, firstRun, run⟩ := bind_eq_ok run
  obtain ⟨units, border, past, is, opened⟩ := first value token middle firstRun
  cases second value token middle units border is.stop with
  | passed passes later =>
      obtain ⟨more, last, lastPast, isLast, still⟩ := later result pending after run
      have whole : Units reader (units ++ token :: more) last :=
        is.units.append (.cons (.refl border) is.read (isLast.units.behind is.notes))
      exact ⟨_, last, lastPast, ⟨whole, isLast.stop, isLast.read, isLast.notes⟩,
        opened.append (.cons passes still)⟩
  | pending here more done =>
      cases done.symm.trans run
      exact ⟨units, border, past, ⟨is.units, here, is.read, is.notes.trans more⟩, opened⟩
  | failing fails => exact absurd run (fails _)

end Unclosing

namespace UnclosingBehind

theorem ite {condition : Prop} [Decidable condition] {yes no : Scan (α × Token)}
    (holds : condition → UnclosingBehind depth before reader token middle yes)
    (fails : ¬ condition → UnclosingBehind depth before reader token middle no) :
    UnclosingBehind depth before reader token middle (if condition then yes else no) := by
  by_cases decided : condition
  · simpa only [if_pos decided] using holds decided
  · simpa only [if_neg decided] using fails decided

/-- Behind a token of a kind that closes nothing. -/
theorem of_kind {kind : Kind} {action : Scan (α × Token)} (isKind : token.kind = kind)
    (noClose : kind.closes? = none) (later : Unclosing depth (before ++ [token]) middle action) :
    UnclosingBehind depth before reader token middle action := by
  refine .passed (fun closes => ?_) later
  rw [isKind, noClose] at closes
  cases closes

theorem of_punctuator {p : Punctuator} {action : Scan (α × Token)} (is : token.isPunctuator p = true)
    (noClose : p.closes? = none) (later : Unclosing depth (before ++ [token]) middle action) :
    UnclosingBehind depth before reader token middle action :=
  of_kind ((token.isPunctuator_iff p).mp is) noClose later

theorem of_keyword {word : Keyword} {action : Scan (α × Token)} (is : token.isKeyword word = true)
    (later : Unclosing depth (before ++ [token]) middle action) :
    UnclosingBehind depth before reader token middle action :=
  of_kind (show token.kind = .keyword word by simpa [Token.isKeyword] using is) rfl later

theorem of_word {word : String} {action : Scan (α × Token)} (is : token.isWord word = true)
    (later : Unclosing depth (before ++ [token]) middle action) :
    UnclosingBehind depth before reader token middle action := by
  simp only [Token.isWord, Bool.and_eq_true, beq_iff_eq] at is
  exact of_kind is.1 rfl later

theorem require {kind : Kind} {next : Scan (α × Token)} (noClose : kind.closes? = none)
    (rest : token.kind = kind → Unclosing depth (before ++ [token]) middle next) :
    UnclosingBehind depth before reader token middle (Scan.require kind token >>= fun _ => next) := by
  by_cases isKind : token.kind = kind
  · refine of_kind isKind noClose ?_
    simpa only [Scan.require, isKind, if_true, pure_bind] using rest isKind
  · refine .failing fun result run => ?_
    obtain ⟨⟨⟩, between, required, -⟩ := bind_eq_ok run
    exact isKind (require_eq_ok required).1

theorem fail {fault : SyntaxFault} :
    UnclosingBehind depth before reader token middle (Scan.fail fault : Scan (α × Token)) :=
  .failing fun result run => by cases run

theorem map {β : Type} [Located β] {action : Scan (α × Token)}
    (behind : UnclosingBehind depth before reader token middle action) (move : α → β)
    (same : ∀ value, Located.stop (move value) = Located.stop value) :
    UnclosingBehind depth before reader token middle
      (action >>= fun parts => pure (move parts.1, parts.2)) := by
  cases behind with
  | passed opened later => exact .passed opened (later.map move same)
  | pending here notes done => exact .pending ((same _).trans here) notes (bind_of_ok done _)
  | failing fails =>
      refine .failing fun result run => ?_
      obtain ⟨parts, last, first, -⟩ := bind_eq_ok run
      exact fails _ first

end UnclosingBehind

/-! ## Simple statements -/

theorem simple_unclosingBehind {fuel stop : Nat} {last : Kind}
    (later : ∀ (before : List Token) (reader : Reader) (stop : Nat) (last : Kind),
      stop = reader.position →
        Unclosing depth before reader (resume (unit depth) (simple (unit depth) fuel stop last none)))
    (read : unit depth reader = .ok (token, middle)) (here : stop = reader.position) :
    UnclosingBehind depth before reader token middle
      (resume (unit depth) (simple (unit depth) (fuel + 1) stop last (some token))) := by
  simp only [simple, pendingOr, pure_bind, resume_ite, resume_bind, resume_next, resume_pending,
    resume_fail]
  have stands := Token.before read
  have notes := noteBrace_notes stands last
  refine .ite (fun isSemicolon => .of_punctuator isSemicolon rfl (.next stands.stop)) fun _ =>
    .ite (fun _ => .pending here (.refl middle) rfl) fun _ => .ite (fun _ => .fail) fun noClose => ?_
  by_cases ends : endsBefore last token = true
  · simp only [ends, if_true]
    exact .pending here notes (bind_of_ok (noteBrace_run last token middle) _)
  · refine .passed (fun closes => absurd closes noClose) ?_
    simp only [ends, Bool.false_eq_true, if_false]
    exact .note (noteBrace_run last token middle) notes (later _ _ _ _ (stands.noted notes).stop)

theorem simple_unclosing (fuel : Nat) (before : List Token) (reader : Reader) (stop : Nat) (last : Kind)
    (here : stop = reader.position) :
    Unclosing depth before reader (resume (unit depth) (simple (unit depth) fuel stop last none)) := by
  induction fuel generalizing before reader stop last with
  | zero => exact .of_failing fun result run => by cases run
  | succ fuel ih =>
      have peeked : resume (unit depth) (simple (unit depth) (fuel + 1) stop last none) =
          unit depth >>= fun token =>
            resume (unit depth) (simple (unit depth) (fuel + 1) stop last (some token)) := by
        simp only [simple, pendingOr, pure_bind, resume_bind]
      rw [peeked]
      exact .unit fun token middle read => simple_unclosingBehind ih read here

/-- A simple statement of which a unit more is read. -/
theorem simple_unclosing_pending (fuel : Nat) {stop : Nat} (last : Kind)
    (read : unit depth reader = .ok (token, middle)) (here : stop = reader.position) :
    UnclosingBehind depth before reader token middle
      (resume (unit depth) (simple (unit depth) fuel stop last (some token))) := by
  cases fuel with
  | zero => exact .failing fun result run => by cases run
  | succ fuel => exact simple_unclosingBehind (simple_unclosing fuel) read here

theorem declaration_unclosing (fuel : Nat) (before : List Token) (reader : Reader) :
    Unclosing depth before reader (resume (unit depth) (declaration (unit depth) fuel)) := by
  induction fuel generalizing before reader with
  | zero => exact .of_failing fun result run => by cases run
  | succ fuel ih =>
      simp only [declaration, resume_bind, resume_ite, resume_next, resume_fail]
      refine .unit fun token middle read => .ite (fun isBrace => ?_) fun _ =>
        .ite (fun _ => .fail) fun goesOn => ?_
      · have brace := (token.isPunctuator_iff _).mp isBrace
        have stands := Token.before read
        have notes := stands.notes_group (by rw [brace]; rfl) true
        exact .of_kind brace rfl (.note rfl notes (.next (stands.noted notes).stop))
      · exact .passed (fun closes => absurd (.inr (.inl closes)) goesOn) (ih _ middle)

theorem terminator_unclosing {stop : Nat} (read : unit depth reader = .ok (token, middle))
    (here : stop = reader.position) :
    UnclosingBehind depth before reader token middle (resume (unit depth) (terminator stop token)) := by
  simp only [terminator, resume_ite, resume_next, resume_pending, resume_fail]
  exact .ite (fun isSemicolon => .of_punctuator isSemicolon rfl (.next (Token.before read).stop)) fun _ =>
    .ite (fun _ => .pending here (.refl middle) rfl) fun _ => .fail

/-! ## Compound statements -/

theorem bracketed_unclosing {p : Punctuator} (noClose : p.closes? = none) {next : Nat → Scan (α × Token)}
    (rest : ∀ stop token middle, stop = middle.position →
      Unclosing depth (before ++ [token]) middle (next stop)) :
    Unclosing depth before reader (bracketed (unit depth) p >>= next) := by
  simp only [bracketed, bind_assoc, pure_bind]
  exact .unit fun token middle read => .require noClose fun _ =>
    rest _ token middle (Token.before read).stop

theorem block_unclosing (before : List Token) (reader : Reader) :
    Unclosing depth before reader
      (block (unit depth) >>= fun stop => resume (unit depth) (pure ⟨stop, none⟩)) := by
  simp only [resume_next]
  exact bracketed_unclosing rfl fun stop token middle here => .next here

theorem switch_unclosing (before : List Token) (reader : Reader) :
    Unclosing depth before reader (resume (unit depth) (switch (unit depth))) := by
  simp only [switch, resume_bind]
  exact bracketed_unclosing rfl fun _ token middle _ => block_unclosing _ middle

theorem finallyPart_unclosing {caught : Option Nat} (here : ∀ stop ∈ caught, stop = reader.position) :
    UnclosingBehind depth before reader token middle
      (resume (unit depth) (finallyPart (unit depth) caught token)) := by
  simp only [finallyPart, resume_ite, resume_bind]
  refine .ite (fun isFinally => .of_keyword isFinally (block_unclosing _ middle)) fun _ => ?_
  cases caught with
  | some stop => exact .pending (here stop rfl) (.refl middle) rfl
  | none => exact .fail

theorem guarded_unclosing (before : List Token) (reader : Reader) :
    Unclosing depth before reader (resume (unit depth) (guarded (unit depth))) := by
  simp only [guarded, resume_bind, resume_ite]
  refine bracketed_unclosing rfl fun _ tried middle _ => .unit fun next behind read =>
    .ite (fun isCatch => .of_keyword isCatch ?_) fun _ => finallyPart_unclosing (by simp)
  simp only [catchPart, bind_assoc]
  refine .unit fun parameter inside readParameter => ?_
  have rest {stop : Nat} (before : List Token) {reader : Reader} (here : stop = reader.position) :
      Unclosing depth before reader (unit depth >>= fun after =>
        resume (unit depth) (finallyPart (unit depth) (some stop) after)) :=
    .unit fun after last _ => finallyPart_unclosing fun other same => Option.some.inj same ▸ here
  by_cases isHeader : parameter.isPunctuator .parenthesisOpen = true
  · simp only [isHeader, if_true]
    exact .of_punctuator isHeader rfl (bracketed_unclosing rfl fun stop token last here => rest _ here)
  · simp only [isHeader, Bool.false_eq_true, if_false, bind_assoc, pure_bind]
    exact .require rfl fun _ => rest _ (Token.before readParameter).stop

section Nested

variable {nested : Scan Ending}
  (bodies : ∀ before reader, Unclosing depth before reader (resume (unit depth) nested))

include bodies

theorem headed_unclosing (before : List Token) (reader : Reader) :
    Unclosing depth before reader (resume (unit depth) (headed (unit depth) nested)) := by
  simp only [headed, resume_bind]
  exact bracketed_unclosing rfl fun _ token middle _ => bodies _ middle

theorem forLoop_unclosing (before : List Token) (reader : Reader) :
    Unclosing depth before reader (resume (unit depth) (forLoop (unit depth) nested)) := by
  simp only [forLoop, expectOperand_require, resume_bind, resume_ite]
  refine .unit fun first middle _ => .ite (fun isAwait => .of_keyword isAwait ?_) fun _ =>
    .require rfl fun _ => bodies _ middle
  refine .unit fun second behind read => .require rfl fun isHeader => ?_
  have notes := (Token.before read).notes_group (by rw [isHeader]; rfl) true
  exact .note rfl notes (bodies _ _)

theorem conditional_unclosing (before : List Token) (reader : Reader) :
    Unclosing depth before reader (resume (unit depth) (conditional (unit depth) nested)) := by
  simp only [resume_conditional]
  refine bracketed_unclosing rfl fun _ token middle _ => .andThen (bodies _ middle)
    fun stop next after units border here => ?_
  exact .ite (fun isElse => .of_keyword isElse (bodies _ after)) fun _ => .pending here (.refl after) rfl

theorem doLoop_unclosing (before : List Token) (reader : Reader) :
    Unclosing depth before reader (resume (unit depth) (doLoop (unit depth) nested)) := by
  simp only [resume_doLoop]
  refine .andThen (bodies _ reader) fun stop word after units border _ => .require rfl fun _ => ?_
  refine bracketed_unclosing rfl fun stop token middle here => .unit fun next behind read => ?_
  exact .ite (fun isSemicolon => .of_punctuator isSemicolon rfl (.next (Token.before read).stop)) fun _ =>
    .pending here (.refl behind) rfl

end Nested

/-! ## Requests -/

theorem Unclosing.scanned {ending : Scan Ending}
    (unclosing : Unclosing depth before reader (resume (Scan.unit depth) ending))
    (request : Option ModuleRequest) (start : Nat) :
    Unclosing depth before reader (ending >>= fun ended =>
      resumeScanned (Scan.unit depth) (pure (.of request start ended))) := by
  simp only [← resumeScanned_bind, resumeScanned_of]
  exact unclosing.map (fun stop => Statement.mk request ⟨start, stop⟩) fun _ => rfl

theorem UnclosingBehind.scanned {ending : Scan Ending}
    (unclosing : UnclosingBehind depth before reader token middle (resume (unit depth) ending))
    (request : Option ModuleRequest) (start : Nat) :
    UnclosingBehind depth before reader token middle (ending >>= fun ended =>
      resumeScanned (unit depth) (pure (.of request start ended))) := by
  simp only [← resumeScanned_bind, resumeScanned_of]
  exact unclosing.map (fun stop => Statement.mk request ⟨start, stop⟩) fun _ => rfl

theorem requestEnding_unclosing (before : List Token) {reader : Reader} {stop : Nat}
    (here : stop = reader.position) :
    Unclosing depth before reader (resume (unit depth) (requestEnding (unit depth) stop)) := by
  simp only [requestEnding, resume_bind, resume_ite]
  refine .unit fun next middle read => .ite (fun introduces => ?_) fun _ => terminator_unclosing read here
  have rest : Unclosing depth (before ++ [next]) middle (unit depth >>= fun attributes =>
      require (.punctuator .braceOpen) attributes >>= fun _ => unit depth >>= fun after =>
        resume (unit depth) (terminator attributes.span.stop after)) :=
    .unit fun attributes behind read => .require rfl fun _ => .unit fun after last readAfter =>
      terminator_unclosing readAfter (Token.before read).stop
  simp only [introducesAttributes, Bool.or_eq_true, Bool.and_eq_true] at introduces
  rcases introduces with isWith | ⟨isAssert, -⟩
  · exact .of_keyword isWith rest
  · exact .of_word isAssert rest

theorem request_unclosing (before : List Token) {reader : Reader} (start : Nat) (form : RequestForm)
    {specifier : Token} (stands : specifier.Before reader) :
    Unclosing depth before reader
      (resumeScanned (unit depth) (request (unit depth) start form specifier)) := by
  simp only [request, resumeScanned_ite, resumeScanned_bind, resumeScanned_fail]
  exact .ite (fun _ => (requestEnding_unclosing before stands.stop).scanned _ start) fun _ =>
    .of_failing fun result run => by cases run

theorem requestNext_unclosing (before : List Token) (reader : Reader) (start : Nat)
    (form : RequestForm) :
    Unclosing depth before reader
      (resumeScanned (unit depth) (requestNext (unit depth) start form)) := by
  simp only [requestNext, resumeScanned_bind]
  refine .unit fun specifier middle read => ?_
  by_cases string : specifier.kind = .literal .string
  · exact .of_kind string rfl (request_unclosing _ start form (Token.before read))
  · refine .failing fun result run => ?_
    simp only [request, string, if_false] at run
    cases run

/-- No unit of an import clause closes anything. -/
theorem importClause_unclosing {fuel : Nat} {sees : Bool} {token : Token} {reader after : Reader}
    (run : importClause (unit depth) fuel sees token reader = .ok ((), after)) :
    token.kind.closes? = none ∧ ∃ units, Units reader units after ∧
      ∀ before, OpenBehind before units := by
  obtain ⟨clause, source, units, parts, chain, isFrom, isPart, -⟩ := importClause_clause run
  have noClose : ∀ unit ∈ token :: units, unit.kind.closes? = none := by
    rw [parts]
    intro unit member
    rcases List.mem_append.mp member with inClause | isSource
    · cases isPart unit inClause with
      | name is | all is | comma is | list is => rw [is]; rfl
    · obtain rfl := List.mem_singleton.mp isSource
      simp only [Token.isWord, Bool.and_eq_true, beq_iff_eq] at isFrom
      rw [isFrom.1]
      rfl
  exact ⟨noClose token (List.mem_cons_self ..), units, chain, fun before =>
    .of_none fun unit member => noClose unit (List.mem_cons_of_mem _ member)⟩

theorem importStatement_unclosing (fuel start : Nat) (stands : token.Before middle) :
    UnclosingBehind depth before reader token middle
      (resumeScanned (unit depth) (importStatement (unit depth) fuel start token)) := by
  simp only [importStatement, resumeScanned_ite, resumeScanned_bind]
  refine .ite (fun string => .of_kind string rfl (request_unclosing _ start _ stands)) fun _ => ?_
  by_cases fails : ∀ result, importClause (unit depth) fuel false token middle ≠ .ok result
  · refine .failing fun result run => ?_
    obtain ⟨value, last, first, -⟩ := bind_eq_ok run
    exact fails _ first
  · obtain ⟨⟨⟨⟩, last⟩, clause⟩ := Classical.not_forall_not.mp fails
    refine .passed (fun closes => ?_) (.seq fun _ behind run => ?_)
    · rw [(importClause_unclosing clause).1] at closes
      cases closes
    · obtain ⟨-, units, chain, opened⟩ := importClause_unclosing run
      exact ⟨units, chain, opened _, requestNext_unclosing _ behind start .bindings⟩

theorem exportFrom_unclosing (start : Nat) :
    UnclosingBehind depth before reader token middle
      (resumeScanned (unit depth) (exportFrom (unit depth) start token)) := by
  simp only [exportFrom, resumeScanned_ite, resumeScanned_fail]
  exact .ite (fun isFrom => .of_word isFrom (requestNext_unclosing _ middle start .reExport)) fun _ => .fail

theorem exportAll_unclosing (before : List Token) (reader : Reader) (start : Nat) :
    Unclosing depth before reader (resumeScanned (unit depth) (exportAll (unit depth) start)) := by
  simp only [exportAll, resumeScanned_ite, resumeScanned_bind, resumeScanned_fail]
  refine .unit fun token middle _ => .ite (fun isAs => .of_word isAs ?_) fun _ =>
    exportFrom_unclosing start
  refine .unit fun name behind _ => .ite (fun isName => .passed (fun closes => ?_) ?_) fun _ => .fail
  · simp only [isExportedName, Bool.or_eq_true, beq_iff_eq] at isName
    rcases isName with (name | string) | keyword
    · rw [name] at closes
      cases closes
    · rw [string] at closes
      cases closes
    · cases isKind : name.kind <;> simp [isKind, Kind.isKeyword, Kind.closes?] at keyword closes
  · exact .unit fun after last _ => exportFrom_unclosing start

theorem exportList_unclosing (before : List Token) {reader : Reader} (start : Nat) {stop : Nat}
    (here : stop = reader.position) :
    Unclosing depth before reader
      (resumeScanned (unit depth) (exportList (unit depth) start stop)) := by
  simp only [exportList, resumeScanned_ite, resumeScanned_bind]
  exact .unit fun token middle read => .ite
    (fun isFrom => .of_word isFrom (requestNext_unclosing _ middle start .reExport)) fun _ =>
      (terminator_unclosing read here).scanned none start

/-! ## Statements -/

section Nested

variable {nested : Scan Ending}
  (bodies : ∀ before reader, Unclosing depth before reader (resume (unit depth) nested))

include bodies

theorem named_unclosing (fuel : Nat) {first : Token} (before : List Token) {reader : Reader}
    (here : first.span.stop = reader.position) :
    Unclosing depth before reader (resume (unit depth) (named (unit depth) fuel nested first)) := by
  simp only [named, resume_bind, resume_ite]
  refine .unit fun next middle read => ?_
  have simply : UnclosingBehind depth before reader next middle _ :=
    simple_unclosing_pending fuel first.kind read here
  refine .ite (fun _ => .ite (fun isFunction => ?_) fun _ => simply) fun _ =>
    .ite (fun isColon => .of_punctuator isColon rfl (bodies _ middle)) fun _ => simply
  exact .of_keyword (Bool.and_eq_true_iff.mp isFunction).1 (declaration_unclosing fuel _ middle)

/-- A statement that begins with a unit of another kind than a closing bracket goes on, any other fails. -/
theorem body_unclosing (fuel : Nat) (stands : token.Before middle) :
    UnclosingBehind depth before reader token middle
      (resume (unit depth) (body (unit depth) fuel nested token)) := by
  have later (noClose : token.kind.closes? = none) :
      Unclosing depth (before ++ [token]) middle
        (resume (unit depth) (body (unit depth) fuel nested token)) := by
    simp only [body]
    split
    · exact resume_next .. ▸ .next stands.stop
    · rename_i isBrace
      simp only [resume_bind, resume_next]
      have notes := stands.notes_group (by rw [isBrace]; rfl) true
      exact .note rfl notes (.next (stands.noted notes).stop)
    · exact .of_failing fun result run => by cases run
    · exact .of_failing fun result run => by cases run
    · exact .of_failing fun result run => by cases run
    · exact declaration_unclosing fuel _ middle
    · exact declaration_unclosing fuel _ middle
    · exact conditional_unclosing bodies _ middle
    · exact forLoop_unclosing bodies _ middle
    · exact headed_unclosing bodies _ middle
    · exact headed_unclosing bodies _ middle
    · exact switch_unclosing _ middle
    · exact doLoop_unclosing bodies _ middle
    · exact guarded_unclosing _ middle
    · exact named_unclosing bodies fuel _ stands.stop
    · exact simple_unclosing fuel _ middle _ _ stands.stop
  -- No statement begins with a closing bracket.
  by_cases noClose : token.kind.closes? = none
  · exact .of_kind rfl noClose (later noClose)
  · refine .failing fun result run => ?_
    obtain ⟨bracket, closes⟩ := Option.ne_none_iff_exists'.mp noClose
    rw [body, Kind.eq_of_closes? closes] at run
    cases bracket <;> cases run

/-- Behind `export default` the value may be anything. -/
theorem defaultValue_unclosing (fuel : Nat) (stands : token.Before middle) (awaits : AwaitsValue before) :
    UnclosingBehind depth before reader token middle
      (resume (unit depth) (defaultValue (unit depth) fuel nested token)) := by
  simp only [defaultValue, resume_ite]
  exact .ite (fun _ => body_unclosing bodies fuel stands) fun _ => .ite (fun _ => .fail) fun _ =>
    .passed (fun _ => awaits) (simple_unclosing fuel _ middle _ _ stands.stop)

theorem exportStatement_unclosing (fuel start : Nat) (before : List Token) (word : Token)
    (reader : Reader) (isExport : word.kind = .keyword .exportWord) :
    Unclosing depth (before ++ [word]) reader
      (resumeScanned (unit depth) (exportStatement (unit depth) fuel nested start)) := by
  simp only [exportStatement, resumeScanned_bind, resumeScanned_ite]
  refine .unit fun next middle read => .ite (fun isAll => ?_) fun _ => .ite (fun isList => ?_) fun _ =>
    .ite (fun isDefault => .of_keyword isDefault ?_) fun _ => .ite (fun _ => .fail) fun _ =>
      (body_unclosing bodies fuel (Token.before read)).scanned none start
  · exact .of_punctuator isAll rfl (exportAll_unclosing _ middle start)
  · exact .of_punctuator isList rfl (exportList_unclosing _ start (Token.before read).stop)
  · have awaits : AwaitsValue (before ++ [word] ++ [next]) := by
      have isKind : next.kind = .keyword .defaultWord := by simpa [Token.isKeyword] using isDefault
      exact ⟨before.map (·.kind), by simp [isExport, isKind]⟩
    exact .unit fun value behind readValue =>
      (defaultValue_unclosing bodies fuel (Token.before readValue) awaits).scanned none start

theorem statementOver_unclosing (fuel : Nat) (stands : token.Before middle) :
    UnclosingBehind depth before reader token middle
      (resumeScanned (unit depth) (statementOver (unit depth) fuel nested token)) := by
  simp only [statementOver, resumeScanned_bind, resumeScanned_ite]
  refine .ite (fun isImport => .of_keyword isImport ?_) fun _ => .ite (fun isExport => ?_) fun _ =>
    (body_unclosing bodies fuel stands).scanned none token.span.start
  · refine .unit fun next behind read => .ite (fun goesOn => ?_) fun _ =>
      importStatement_unclosing fuel token.span.start (Token.before read)
    have ends : Unclosing depth (before ++ [token] ++ [next]) behind
        (resume (unit depth) (simpleAfter (unit depth) fuel next)) :=
      simple_unclosing fuel _ behind _ _ (Token.before read).stop
    have simply := ends.scanned none token.span.start
    rcases Bool.or_eq_true_iff.mp goesOn with isCall | isDot
    · exact .of_punctuator isCall rfl simply
    · exact .of_punctuator isDot rfl simply
  · have isKind : token.kind = .keyword .exportWord := by simpa [Token.isKeyword] using isExport
    exact .of_kind isKind rfl (exportStatement_unclosing bodies fuel _ before token middle isKind)

end Nested

theorem statement_unclosing (fuel : Nat) (stands : token.Before middle) :
    UnclosingBehind depth before reader token middle
      (resumeScanned (unit depth) (statement (unit depth) fuel token)) := by
  induction fuel generalizing before reader token middle with
  | zero => exact .failing fun result run => by cases run
  | succ fuel ih =>
      refine statementOver_unclosing (fun before reader => ?_) (fuel + 1) stands
      rw [resume_nestedIn]
      exact .unit fun first middle read => .ite (fun _ => .fail) fun _ =>
        (ih (Token.before read)).map (·.span.stop) fun _ => rfl

/-! ## Modules -/

/-- No unit of a statement is a closing bracket but the value of an `export default`. -/
theorem statement_unclosed {bound : Nat} {border past start after : Reader} {first next : Token}
    {found : Statement} (read : unit depth border = .ok (first, past)) (noEnd : first.kind ≠ .eof)
    (notes : past.Notes start)
    (run : resumeScanned (unit depth) (statement (unit depth) bound first) start =
      .ok ((found, next), after)) :
    ∃ units stop behind, ReadTo depth border (first :: units) next after stop behind ∧
      OpenBehind [] (first :: units) ∧ Spans found (first :: units) := by
  have stands := (Token.before read).noted notes
  have passes : UnclosingBehind depth [] border first start _ := statement_unclosing bound stands
  cases passes with
  | passed opened later =>
      obtain ⟨units, stop, behind, is, still⟩ := later found next after run
      obtain ⟨reads, spans⟩ := is.reads read notes run
      exact ⟨units, stop, behind, reads, .cons opened still, spans⟩
  | pending here notesNext done =>
      -- The unit behind a statement starts where its first unit has ended, or later.
      cases done.symm.trans run
      obtain ⟨units, stop, behind, reads, -⟩ := statement_units read noEnd notes run
      have ordered := (reads.units.append (.single reads.read)).ordered
      have apart := (List.pairwise_cons.mp ordered).1 first (by simp)
      obtain ⟨body, lies⟩ := unit_at read
      exact absurd apart (Nat.not_le_of_lt (lies.start_lt_stop noEnd))
  | failing fails => exact absurd run (fails _)

end Relink
