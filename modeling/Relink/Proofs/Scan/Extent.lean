import Relink.Proofs.Scan.Unit
import Relink.Proofs.Text.Boundary

/-!
# Extent of units

How a unit lies in the text: behind the gap that is skipped before it, from the start of its first
token to the end of its last one.
-/

set_option autoImplicit false

namespace Relink

open Scan

/-! ## Where folded units end -/

/-- A `>` that was just read ends where the reader stands. -/
def EndsTag (reader : Reader) (token : Token) : Prop :=
  token.kind = .punctuator .chevronRight → token.span.stop = reader.position

theorem tagToken_eq_ok {reader after : Reader} {token : Token}
    (run : tagToken reader = .ok (token, after)) : Scan.token .tag reader = .ok (token, after) := by
  obtain ⟨first, middle, read, checked⟩ := bind_eq_ok run
  split at checked
  · cases checked
  · cases checked
    exact read

theorem tagToken_endsTag {reader after : Reader} {token : Token}
    (run : tagToken reader = .ok (token, after)) : EndsTag after token := by
  obtain ⟨body, lies⟩ := token_at (tagToken_eq_ok run)
  intro closes
  exact lies.stop (by rw [closes]; rfl)

theorem elementName_endsTag {fuel : Nat} {token : Token} {reader after : Reader}
    {named : Text × Token} (run : elementName fuel token reader = .ok (named, after)) :
    EndsTag after named.2 := by
  induction fuel generalizing token reader named after with
  | zero => cases run
  | succ fuel ih =>
      simp only [elementName] at run
      split at run
      · obtain ⟨next, middle, read, rest⟩ := bind_eq_ok run
        split at rest
        · obtain ⟨part, behind, -, rest⟩ := bind_eq_ok rest
          obtain ⟨more, last, inner, done⟩ := bind_eq_ok rest
          cases done
          have ends : EndsTag after more.2 := ih inner
          exact ends
        · cases rest
          exact tagToken_endsTag read
      · cases run

theorem tagName_endsTag {fuel : Nat} {token : Token} {reader after : Reader}
    {named : Text × Token} (ends : EndsTag reader token)
    (run : tagName fuel token reader = .ok (named, after)) : EndsTag after named.2 := by
  simp only [tagName] at run
  split at run
  · cases run
    exact ends
  · exact elementName_endsTag run

theorem closingTag_stop {name : Text} {fuel : Nat} {opening : Token} {reader after : Reader}
    {stop : Span} (run : closingTag name fuel opening reader = .ok (stop, after)) :
    stop.stop = after.position := by
  obtain ⟨first, middle, read, run⟩ := bind_eq_ok run
  obtain ⟨named, behind, nameRun, run⟩ := bind_eq_ok run
  obtain ⟨⟨⟩, checked, closes, run⟩ := bind_eq_ok run
  have ends := tagName_endsTag (tagToken_endsTag read) nameRun
  simp only [require] at closes
  split at closes
  · rename_i isClose
    cases closes
    split at run
    · cases run
      exact ends isClose
    · cases run
  · cases closes

section Element

variable {substitution : Scan Unit} {element : Token → Scan Token}

theorem attributes_stop {fuel : Nat} {token : Token} {reader after : Reader} {stop : Span}
    (run : attributes substitution element fuel token reader = .ok (.selfClosed stop, after)) :
    stop.stop = after.position := by
  induction fuel generalizing token reader with
  | zero => cases run
  | succ fuel ih =>
      simp only [attributes] at run
      split at run
      · cases run
      split at run
      · obtain ⟨close, middle, read, run⟩ := bind_eq_ok run
        obtain ⟨⟨⟩, checked, closes, run⟩ := bind_eq_ok run
        simp only [require] at closes
        split at closes
        · rename_i isClose
          cases closes
          cases run
          exact tagToken_endsTag read isClose
        · cases closes
      split at run
      · obtain ⟨-, middle, -, run⟩ := bind_eq_ok run
        obtain ⟨next, behind, -, run⟩ := bind_eq_ok run
        exact ih run
      split at run
      · obtain ⟨-, middle, -, run⟩ := bind_eq_ok run
        obtain ⟨next, behind, -, run⟩ := bind_eq_ok run
        exact ih run
      split at run
      · obtain ⟨next, behind, -, run⟩ := bind_eq_ok run
        exact ih run
      · cases run

theorem children_stop {name : Text} {opening fuel : Nat} {reader after : Reader} {stop : Span}
    (run : children substitution element name opening fuel reader = .ok (stop, after)) :
    stop.stop = after.position := by
  induction fuel generalizing reader with
  | zero => cases run
  | succ fuel ih =>
      obtain ⟨-, first, -, run⟩ := bind_eq_ok run
      obtain ⟨child, middle, -, run⟩ := bind_eq_ok run
      split at run
      · obtain ⟨-, behind, -, run⟩ := bind_eq_ok run
        exact ih run
      split at run
      · exact closingTag_stop run
      split at run
      · obtain ⟨-, behind, -, run⟩ := bind_eq_ok run
        exact ih run
      · cases run

end Element

theorem element_eq {substitution : Scan Unit} {fuel : Nat} {opening token : Token}
    {reader after : Reader}
    (run : element substitution fuel opening reader = .ok (token, after)) :
    token = ⟨.jsx, ⟨opening.span.start, after.position⟩, opening.lexeme, opening.onNewLine⟩ := by
  cases fuel with
  | zero => cases run
  | succ fuel =>
      obtain ⟨first, middle, -, run⟩ := bind_eq_ok run
      obtain ⟨named, behind, -, run⟩ := bind_eq_ok run
      obtain ⟨stop, last, rest, run⟩ := bind_eq_ok run
      cases run
      obtain ⟨ending, inside, tag, rest⟩ := bind_eq_ok rest
      have ends : stop.stop = after.position := by
        cases ending with
        | selfClosed close =>
            cases rest
            exact attributes_stop tag
        | opened => exact children_stop rest
      rw [← ends]
      rfl

theorem template_eq {substitution : Scan Unit} {fuel : Nat} {first token : Token}
    {ending : Literal} {reader after : Reader}
    (run : template substitution fuel first ending reader = .ok (token, after)) :
    token = ⟨.literal .template, ⟨first.span.start - 1, after.position⟩, first.lexeme,
      first.onNewLine⟩ := by
  obtain ⟨-, middle, -, run⟩ := bind_eq_ok run
  obtain ⟨stop, behind, here, run⟩ := bind_eq_ok run
  cases here
  cases run
  rfl

/-! ## Progress of folding -/

theorem Seam.Follows.leads {α β : Type} {seam : Seam} {action : Scan α} {other : Scan β}
    {move : α → β} (follows : seam.Follows action other move) {reader after : Reader} {value : α}
    (run : action reader = .ok (value, after)) : reader.Leads after :=
  (follows reader value after run).1

/-- A seam behind which nothing stands. Whatever can be followed makes progress. -/
def Seam.atEnd : Seam := ⟨[], [], 0, fun _ => rfl⟩

theorem unit_leads {fuel : Nat} {reader after : Reader} {token : Token}
    (run : unit fuel reader = .ok (token, after)) : reader.Leads after := by
  have follows : Seam.atEnd.Follows (unit fuel) (unit fuel) _ := .unit (Nat.le_refl fuel)
  exact follows.leads run

/-! ## Units -/

/-- How a token that is folded so far lies in the text that a reader stands before. -/
structure FoldedAt (reader : Reader) (token : Token) (body : Text) (after : Reader) : Prop where
  passes : reader.Passes (reader.gap ++ body) after
  start : token.span.start = reader.position + reader.gap.size
  stop : token.span.stop = after.position
  onNewLine : token.onNewLine = (Trivia.skip reader.rest).newline
  empty : token.kind = .eof ↔ body = []
  ended : token.kind = .eof → after.rest = []
  string : token.kind = .literal .string → token.lexeme = body ∧
    ∃ quote content, (quote = '\x22' ∨ quote = '\x27') ∧ body = quote :: content ++ [quote] ∧
      Token.IsContent quote content

/-- Kinds of units that end with a closing mark. -/
def Kind.closesText (kind : Kind) : Prop :=
  kind = .punctuator .semicolon ∨ kind.closes?.isSome = true ∨ kind.opens?.isSome = true

/-- How a unit lies in the text that a reader stands before. -/
structure UnitAt (reader : Reader) (token : Token) (body : Text) (after : Reader) : Prop
    extends FoldedAt reader token body after where
  closed : token.kind.closesText → Text.Sealed body
  operand : after.operand = operandAfter reader.previous token.kind
  previous : after.previous = trace token.kind

theorem Kind.eq_of_closes? {kind : Kind} {bracket : Bracket} (closes : kind.closes? = some bracket) :
    kind = .punctuator bracket.close := by
  cases kind with
  | punctuator p => rw [(p.closes?_eq_some_iff bracket).mp closes]
  | _ => cases closes

theorem Kind.punctuator_of_opens? {kind : Kind} {bracket : Bracket} (opens : kind.opens? = some bracket) :
    ∃ p, kind = .punctuator p := by
  cases kind with
  | punctuator p => exact ⟨p, rfl⟩
  | _ => cases opens

theorem close_sealed (bracket : Bracket) : Text.Sealed bracket.close.spelling := by
  cases bracket <;> exact ⟨[], _, rfl, by decide⟩

/-- A token that was folded into one of its own kind has more characters and no other start. -/
theorem FoldedAt.of_folded {reader middle after : Reader} {first : Token} {body more : Text}
    {kind : Kind} {start : Nat} (lies : TokenAt reader first body middle)
    (noEnd : first.kind ≠ .eof) (isFolded : kind = .jsx ∨ kind = .literal .template)
    (starts : start = reader.position + reader.gap.size)
    (passes : middle.Passes more after) :
    FoldedAt reader ⟨kind, ⟨start, after.position⟩, first.lexeme, first.onNewLine⟩ (body ++ more)
      after where
  passes := by
    rw [← List.append_assoc]
    exact lies.passes.trans passes
  start := starts
  stop := rfl
  onNewLine := lies.onNewLine
  empty := by
    have nonempty : body ≠ [] := fun empty => noEnd (lies.empty.mpr empty)
    rcases isFolded with rfl | rfl <;> simp [nonempty]
  ended := by rcases isFolded with rfl | rfl <;> nofun
  string := by rcases isFolded with rfl | rfl <;> nofun

theorem foldOperand_at {inner fuel : Nat} {operand : Bool} {reader middle after : Reader}
    {first whole : Token} {body : Text} (lies : TokenAt reader first body middle)
    (run : foldOperand (unit inner) fuel operand first middle = .ok (whole, after)) :
    ∃ body, FoldedAt reader whole body after ∧
      ∀ p, whole.kind = .punctuator p → body = p.spelling := by
  have behindTick : first.kind.isTemplate = true → 1 ≤ first.span.start := by
    intro template
    rw [lies.template template]
    exact Nat.le_add_left ..
  have follows : Seam.atEnd.Follows (foldOperand (unit inner) fuel operand first) _ _ :=
    .foldOperand (.unit (Nat.le_refl inner)) (Nat.le_refl fuel) operand behindTick
  obtain ⟨more, passes⟩ := follows.leads run
  rcases foldOperand_cases (unit inner) fuel operand first with
    ⟨isTemplate, ending, -, folds⟩ | ⟨isOpening, folds⟩ | ⟨plain, folds⟩
  · rw [folds] at run
    have starts := lies.template isTemplate
    have noEnd : first.kind ≠ .eof := by
      intro eof
      rw [eof] at isTemplate
      cases isTemplate
    rw [template_eq run]
    exact ⟨_, .of_folded lies noEnd (.inr rfl) (by omega) passes, nofun⟩
  · rw [folds] at run
    have starts := lies.start (by rw [isOpening]; rfl)
    have noEnd : first.kind ≠ .eof := by
      rw [isOpening]
      nofun
    rw [element_eq run]
    exact ⟨_, .of_folded lies noEnd (.inl rfl) starts passes, nofun⟩
  · rw [folds] at run
    cases run
    exact ⟨body, ⟨lies.passes, lies.start plain, lies.stop plain, lies.onNewLine, lies.empty,
      lies.ended, lies.string⟩, lies.punctuator⟩

theorem group_stop {inner : Nat}
    (units : ∀ {reader after : Reader} {token : Token}, unit inner reader = .ok (token, after) →
      ∃ body, UnitAt reader token body after)
    {bracket : Bracket} {fuel : Nat} {reader after : Reader} {stop : Span}
    (run : group (unit inner) bracket fuel reader = .ok (stop, after)) :
    stop.stop = after.position ∧ ∃ passed, reader.Passes passed after ∧ Text.Sealed passed := by
  induction fuel generalizing reader with
  | zero => cases run
  | succ fuel ih =>
      obtain ⟨token, middle, read, run⟩ := bind_eq_ok run
      obtain ⟨body, lies⟩ := units read
      simp only [closeOrGoOn] at run
      split at run
      · rename_i isClose
        cases run
        have closed := lies.closed (.inr (.inl (by simp [isClose, Kind.closes?])))
        exact ⟨lies.stop, _, lies.passes, closed.append _⟩
      split at run
      · cases run
      split at run
      · cases run
      · obtain ⟨ends, passed, passes, closed⟩ := ih run
        exact ⟨ends, _, lies.passes.trans passes, closed.append _⟩

/-- An opening bracket and what follows through its closing one. -/
theorem FoldedAt.upTo {reader middle after : Reader} {token : Token} {p : Punctuator} {body passed : Text} {stop : Span}
    (lies : FoldedAt reader token body middle) (isMark : token.kind = .punctuator p)
    (passes : middle.Passes passed after) (ends : stop.stop = after.position) :
    FoldedAt reader (token.upTo stop) (body ++ passed) after where
  passes := by
    rw [← List.append_assoc]
    exact lies.passes.trans passes
  start := lies.start
  stop := ends
  onNewLine := lies.onNewLine
  empty := by
    have nonempty : body ≠ [] := by
      intro empty
      cases isMark.symm.trans (lies.empty.mpr empty)
    simp [Token.upTo, isMark, nonempty]
  ended := by
    intro eof
    cases isMark.symm.trans eof
  string := by
    intro string
    cases isMark.symm.trans string

theorem foldGroup_at {inner fuel : Nat}
    (units : ∀ {reader after : Reader} {token : Token}, unit inner reader = .ok (token, after) →
      ∃ body, UnitAt reader token body after)
    {reader middle after : Reader} {token whole : Token} {body : Text}
    (lies : FoldedAt reader token body middle)
    (spelled : ∀ p, token.kind = .punctuator p → body = p.spelling)
    (run : foldGroup (unit inner) fuel token middle = .ok (whole, after)) :
    ∃ body, FoldedAt reader whole body after ∧ (whole.kind.closesText → Text.Sealed body) ∧
      whole.kind = token.kind := by
  simp only [foldGroup] at run
  cases opens : token.kind.opens? with
  | none =>
      rw [opens] at run
      cases run
      refine ⟨body, lies, ?_, rfl⟩
      rintro (semicolon | closes | isOpening)
      · rw [spelled _ semicolon]
        exact ⟨[], ';', rfl, rfl⟩
      · obtain ⟨bracket, isClosing⟩ := Option.isSome_iff_exists.mp closes
        rw [spelled _ (Kind.eq_of_closes? isClosing)]
        exact close_sealed bracket
      · rw [opens] at isOpening
        cases isOpening
  | some bracket =>
      rw [opens] at run
      obtain ⟨⟨⟩, inside, follows, run⟩ := bind_eq_ok run
      cases follows
      obtain ⟨stop, last, grouped, run⟩ := bind_eq_ok run
      cases run
      obtain ⟨ends, passed, passes, closed⟩ := group_stop units grouped
      obtain ⟨p, isMark⟩ := Kind.punctuator_of_opens? opens
      have whole : middle.Passes passed after := ⟨passes.rest, passes.position⟩
      exact ⟨body ++ passed, lies.upTo isMark whole ends, fun _ => closed.append _, rfl⟩

theorem plainKind_cases (before kind : Kind) :
    plainKind before kind = kind ∨ kind.isKeyword = true ∧ plainKind before kind = .identifier := by
  cases kind with
  | keyword word =>
      simp only [plainKind]
      split
      · exact .inr ⟨rfl, rfl⟩
      · exact .inl rfl
  | _ => exact .inl rfl

/-- That a keyword is an identifier does not move it. -/
theorem FoldedAt.plain {reader after : Reader} {token : Token} {body : Text}
    (lies : FoldedAt reader token body after) (before : Kind) :
    FoldedAt reader { token with kind := plainKind before token.kind } body after := by
  rcases plainKind_cases before token.kind with same | ⟨isKeyword, isName⟩
  · rw [same]
    exact lies
  · have noEnd : token.kind ≠ .eof := by
      intro eof
      rw [eof] at isKeyword
      cases isKeyword
    have nonempty : body ≠ [] := fun empty => noEnd (lies.empty.mpr empty)
    rw [isName]
    exact ⟨lies.passes, lies.start, lies.stop, lies.onNewLine, by simp [nonempty], nofun, nofun⟩

theorem unit_at {fuel : Nat} {reader after : Reader} {token : Token}
    (run : unit fuel reader = .ok (token, after)) : ∃ body, UnitAt reader token body after := by
  induction fuel generalizing reader token after with
  | zero => cases run
  | succ fuel ih =>
      obtain ⟨before, same, here, run⟩ := bind_eq_ok run
      cases here
      obtain ⟨operand, same, here, run⟩ := bind_eq_ok run
      cases here
      obtain ⟨first, middle, read, run⟩ := bind_eq_ok run
      obtain ⟨whole, behind, folded, run⟩ := bind_eq_ok run
      obtain ⟨unit, last, grouped, run⟩ := bind_eq_ok run
      obtain ⟨⟨⟩, noted, follows, run⟩ := bind_eq_ok run
      cases follows
      cases run
      obtain ⟨firstBody, firstAt⟩ := token_at read
      obtain ⟨wholeBody, wholeAt, spelled⟩ := foldOperand_at firstAt folded
      have spelledPlain : ∀ p, plainKind reader.previous whole.kind = .punctuator p →
          wholeBody = p.spelling := by
        intro p isPunctuator
        rcases plainKind_cases reader.previous whole.kind with same | ⟨-, isName⟩
        · exact spelled p (same.symm.trans isPunctuator)
        · rw [isName] at isPunctuator
          cases isPunctuator
      obtain ⟨body, unitAt, closed, kind⟩ :=
        foldGroup_at ih (wholeAt.plain reader.previous) spelledPlain grouped
      refine ⟨body, ⟨⟨unitAt.passes.rest, unitAt.passes.position⟩, unitAt.start, unitAt.stop,
        unitAt.onNewLine, unitAt.empty, unitAt.ended, unitAt.string⟩, closed, ?_, ?_⟩
      · rw [kind]
      · rw [kind]

theorem FoldedAt.behindGap {reader after : Reader} {token : Token} {body : Text}
    (lies : FoldedAt reader token body after) :
    (Trivia.skip reader.rest).rest = body ++ after.rest := by
  have whole := lies.passes.rest
  rw [List.append_assoc] at whole
  exact List.append_cancel_left ((Trivia.skip_append reader.rest).trans whole)

/-- The end of the module is the only empty unit. -/
theorem UnitAt.start_lt_stop {reader after : Reader} {token : Token} {body : Text}
    (lies : UnitAt reader token body after) (noEnd : token.kind ≠ .eof) :
    token.span.start < token.span.stop := by
  have nonempty : body ≠ [] := fun empty => noEnd (lies.empty.mpr empty)
  have some := Text.size_pos nonempty
  rw [lies.start, lies.stop, lies.passes.position, Text.size_append]
  omega

end Relink
