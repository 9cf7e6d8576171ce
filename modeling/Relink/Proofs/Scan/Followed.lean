import Relink.Proofs.Concatenation

/-!
# Texts that go on

A unit that ends with a closing mark is read whatever stands behind it, also where its text ends. So a
request without a semicolon that is all of a text is scanned there as it is in front of a unit on a new
line.
-/

set_option autoImplicit false

namespace Relink

open Scan

variable {depth otherDepth : Nat} {reader middle after : Reader} {token : Token}

theorem Text.Sealed.alike {text : Text} (closed : Text.Sealed text) (more : Text) :
    Text.Alike text (text ++ more) := by
  have alike := Text.alike_append closed.ne_nil closed.ne_point [] more
  rwa [List.append_nil] at alike

/-! ## Actions -/

/-- What ends before a closing mark is found as well if its text goes on. -/
theorem Seam.Follows.followed {α β : Type} {action : Scan α} (other : Nat → Scan β)
    (move : Nat → α → β) {value : α}
    (follows : ∀ seam : Seam, seam.Follows action (other seam.shift) (move seam.shift))
    (run : action reader = .ok (value, after)) (closed : Text.Sealed after.rest) (more : Text) :
    other 0 (reader.followedBy more) = .ok (move 0 value, after.followedBy more) := by
  let seam : Seam := ⟨after.rest, after.rest ++ more, 0, fun empty => absurd empty closed.ne_nil⟩
  obtain ⟨⟨passed, passes⟩, beside⟩ := follows seam reader value after run
  have twins : seam.Twins reader (reader.followedBy more) := by
    refine ⟨⟨passed, passes.rest, ?_, .inr (.inl (closed.alike more))⟩, rfl, rfl, rfl⟩
    show reader.rest ++ more = passed ++ (after.rest ++ more)
    rw [passes.rest, List.append_assoc]
  obtain ⟨twinAfter, run, twinsAfter⟩ := beside _ twins List.suffix_rfl
  rw [twinsAfter.eq_across rfl] at run
  exact run

theorem token_followed {mode : Token.Mode} (run : Scan.token mode reader = .ok (token, after))
    (closed : Text.Sealed after.rest) (more : Text) :
    Scan.token mode (reader.followedBy more) = .ok (token, after.followedBy more) :=
  Seam.Follows.followed (fun _ => Scan.token mode) (fun distance token => token.shift distance)
    (fun _ => .token mode) run closed more

theorem unit_followed (deeper : depth ≤ otherDepth) (read : unit depth reader = .ok (token, after))
    (closed : Text.Sealed after.rest) (more : Text) :
    unit otherDepth (reader.followedBy more) = .ok (token, after.followedBy more) :=
  Seam.Follows.followed (fun _ => unit otherDepth) (fun distance token => token.shift distance)
    (fun _ => .unit deeper) read closed more

/-! ## Units at the end of a text -/

theorem token_followed_sealed {mode : Token.Mode} {passed : Text}
    (run : Scan.token mode reader = .ok (token, after)) (passes : reader.Passes passed after)
    (closed : Text.Sealed passed) (noEnd : token.kind ≠ .eof) (more : Text) :
    Scan.token mode (reader.followedBy more) = .ok (token, after.followedBy more) := by
  obtain ⟨found, lexed, rfl, rfl⟩ := token_eq_ok run
  have nonempty : found.lexeme.whole ≠ [] := fun empty => noEnd ((Token.lex_eof_iff lexed).mpr empty)
  rw [passes.unique (Reader.passes_past lexed)] at closed
  have again : Token.lex mode (found.gap ++ found.lexeme.whole ++ (found.lexeme.rest ++ more)) =
      .ok (found.before (found.lexeme.rest ++ more)) :=
    Token.lex_congr lexed nonempty (.inr (closed.of_append nonempty))
  rw [← List.append_assoc, Token.lex_append lexed] at again
  have run : Scan.token mode (reader.followedBy more) = _ := token_of_lex again
  exact run

/-- Strings and closing brackets are tokens that end with a closing mark. -/
def Kind.isMark (kind : Kind) : Bool := kind == .literal .string || kind.closes?.isSome

theorem Kind.isMark_iff (kind : Kind) :
    kind.isMark = true ↔ kind = .literal .string ∨ kind.closes?.isSome = true := by
  simp [Kind.isMark]

theorem Kind.isAlone_of_isMark {kind : Kind} (mark : kind.isMark = true) : kind.isAlone = true := by
  cases kind with
  | punctuator p => cases p <;> first | rfl | cases mark
  | literal value => cases value <;> first | rfl | cases mark
  | _ => cases mark

theorem plainKind_of_isMark {before kind : Kind} (mark : (plainKind before kind).isMark = true) :
    plainKind before kind = kind := by
  rcases plainKind_cases before kind with same | ⟨-, isName⟩
  · exact same
  · rw [isName] at mark
    cases mark

theorem UnitAt.sealed_of_isMark {body : Text} (lies : UnitAt reader token body after)
    (mark : token.kind.isMark = true) : Text.Sealed body := by
  rcases (Kind.isMark_iff _).mp mark with isString | closes
  · obtain ⟨-, quote, content, isQuote, rfl, -⟩ := lies.string isString
    exact ⟨quote :: content, quote, rfl, by rcases isQuote with rfl | rfl <;> decide⟩
  · exact lies.closed (.inr (.inl closes))

/-- The first token of such a unit is all of it. -/
theorem token_of_mark (read : unit depth reader = .ok (token, after)) (mark : token.kind.isMark = true) :
    ∃ middle, Scan.token reader.mode reader = .ok (token, middle) ∧
      after = { middle with
        operand := operandAfter reader.previous token.kind
        previous := token.kind } := by
  obtain ⟨body, lies⟩ := unit_at read
  obtain ⟨inner, first, middle, whole, behind, last, tokenRun, operandRun, groupRun, isAfter⟩ :=
    unit_run read
  have alone := Kind.isAlone_of_isMark mark
  simp only [Kind.isAlone, Bool.and_eq_true, Option.isNone_iff_eq_none] at alone
  have kind : token.kind = plainKind reader.previous whole.kind := foldGroup_kind groupRun
  rw [kind] at mark
  have plain := plainKind_of_isMark mark
  rw [plain] at kind mark groupRun
  obtain ⟨rfl, rfl⟩ := foldOperand_same operandRun
    (fun template => by rw [template] at mark; cases mark)
    (fun element => by rw [element] at mark; cases mark)
  have noGroup : whole.kind.opens? = none := kind ▸ alone.2
  simp only [foldGroup, noGroup] at groupRun
  cases groupRun
  have notes := lies.previous
  simp only [trace, noGroup] at notes
  exact ⟨_, tokenRun, by rw [isAfter, lies.operand, notes]⟩

/-- A string or a closing bracket is read whatever stands behind it. -/
theorem unit_followed_mark (read : unit depth reader = .ok (token, after))
    (mark : token.kind.isMark = true) (otherDepth : Nat) (more : Text) :
    unit (otherDepth + 1) (reader.followedBy more) = .ok (token, after.followedBy more) := by
  obtain ⟨body, lies⟩ := unit_at read
  obtain ⟨middle, tokenRun, isAfter⟩ := token_of_mark read mark
  have alone := Kind.isAlone_of_isMark mark
  have passes : reader.Passes (reader.gap ++ body) middle := by
    have toAfter := lies.passes
    rw [isAfter] at toAfter
    exact ⟨toAfter.rest, toAfter.position⟩
  have noEnd : token.kind ≠ .eof := fun ended => by
    rw [ended] at mark
    cases mark
  have again := token_followed_sealed tokenRun passes ((lies.sealed_of_isMark mark).append _) noEnd more
  have plain : plainKind reader.previous token.kind = token.kind := by
    unfold plainKind
    split
    · rename_i word isWord
      rw [isWord] at mark
      cases mark
    · rfl
  rw [unit, unitOver_run]
  refine (bind_of_ok again _).trans ?_
  rw [foldUnit_alone _ _ _ _ alone, isAfter]
  show Except.ok ({ token with kind := plainKind reader.previous token.kind }, ({ middle.followedBy more with
    operand := operandAfter reader.previous (plainKind reader.previous token.kind)
    previous := plainKind reader.previous token.kind } : Reader)) = _
  rw [plain]
  rfl

/-! ## Groups at the end of a text -/

theorem group_followed (deeper : depth ≤ otherDepth) {bracket : Bracket} {fuel otherFuel : Nat}
    (enough : fuel ≤ otherFuel) {stop : Span}
    (run : group (unit depth) bracket fuel reader = .ok (stop, after)) (ended : after.rest = [])
    (more : Text) :
    group (unit otherDepth) bracket otherFuel (reader.followedBy more) =
      .ok (stop, after.followedBy more) := by
  induction fuel generalizing reader otherFuel with
  | zero => cases run
  | succ fuel ih =>
      obtain ⟨otherFuel, rfl⟩ := Nat.exists_eq_add_one_of_ne_zero (by omega : otherFuel ≠ 0)
      obtain ⟨token, middle, read, run⟩ := bind_eq_ok run
      simp only [closeOrGoOn] at run
      split at run
      · rename_i isClose
        cases run
        have mark : token.kind.isMark = true :=
          (Kind.isMark_iff _).mpr (.inr (by simp [isClose, Kind.closes?]))
        obtain ⟨less, rfl⟩ := exists_succ_of_unit deeper read
        refine (bind_of_ok (unit_followed_mark read mark less more) _).trans ?_
        rw [closeOrGoOn, if_pos isClose]
        rfl
      · rename_i noClose
        split at run
        · cases run
        rename_i noEnd
        split at run
        · cases run
        rename_i noOther
        obtain ⟨-, passed, passes, closed⟩ := group_stop unit_at run
        have behind : Text.Sealed middle.rest := by
          rw [passes.rest, ended, List.append_nil]
          exact closed
        refine (bind_of_ok (unit_followed deeper read behind more) _).trans ?_
        rw [closeOrGoOn, if_neg noClose, if_neg noEnd, if_neg noOther]
        exact ih (by omega) run

/-- A group that ends with its text is read as well if the text goes on. -/
theorem unit_followed_group (deeper : depth ≤ otherDepth)
    (read : unit depth reader = .ok (token, after)) {bracket : Bracket}
    (opens : token.kind.opens? = some bracket) (ended : after.rest = []) (more : Text) :
    unit otherDepth (reader.followedBy more) = .ok (token, after.followedBy more) := by
  cases depth with
  | zero => cases read
  | succ depth =>
      obtain ⟨otherDepth, rfl⟩ := Nat.exists_eq_add_one_of_ne_zero (by omega : otherDepth ≠ 0)
      have deeper : depth ≤ otherDepth := by omega
      rw [unit, unitOver_run] at read ⊢
      obtain ⟨first, middle, tokenRun, read⟩ := bind_eq_ok read
      obtain ⟨whole, behind, operandRun, read⟩ := bind_eq_ok read
      obtain ⟨folded, last, groupRun, read⟩ := bind_eq_ok read
      obtain ⟨⟨⟩, noted, follows, read⟩ := bind_eq_ok read
      cases follows
      cases read
      have opensPlain : (plainKind reader.previous whole.kind).opens? = some bracket := by
        rw [← opens, foldGroup_kind groupRun]
      have opensWhole : whole.kind.opens? = some bracket :=
        (plainKind_opens? reader.previous whole.kind).symm.trans opensPlain
      obtain ⟨rfl, rfl⟩ := foldOperand_same operandRun
        (fun template => by rw [template] at opensWhole; cases opensWhole)
        (fun element => by rw [element] at opensWhole; cases opensWhole)
      -- The group closes, so the text of its opening bracket ends with a closing mark.
      rw [foldGroup_opening opensPlain] at groupRun
      obtain ⟨⟨⟩, inside, follows, groupRun⟩ := bind_eq_ok groupRun
      cases follows
      obtain ⟨stop, closed, grouped, done⟩ := bind_eq_ok groupRun
      cases done
      obtain ⟨-, passed, passes, sealed⟩ := group_stop unit_at grouped
      have rest : behind.rest = passed := by rw [← List.append_nil passed, ← ended]; exact passes.rest
      have again := token_followed tokenRun (rest ▸ sealed) more
      have groupAgain : foldGroup (unit otherDepth) otherDepth
          { whole with kind := plainKind reader.previous whole.kind } (behind.followedBy more) =
            .ok ({ whole with kind := plainKind reader.previous whole.kind }.upTo stop,
              last.followedBy more) := by
        rw [foldGroup_opening opensPlain]
        exact (bind_of_ok rfl _).trans (bind_of_ok (group_followed deeper deeper grouped ended more) _)
      refine (bind_of_ok again _).trans ?_
      rw [foldUnit, foldOperand_opening opensWhole, pure_bind]
      exact bind_of_ok groupAgain _

/-! ## Requests at the end of a text -/

/-- Units behind which no request goes on: they stand on a new line and are no semicolon and no `with`. -/
structure Token.BeginsLine (next : Token) : Prop where
  onNewLine : next.onNewLine = true
  noSemicolon : next.kind ≠ .punctuator .semicolon
  noWith : next.kind ≠ .keyword .withWord

/-- Where a request ends at the end of its text: behind its specifier, where no operand is due, or behind
its attributes. -/
structure Reader.AtEnd (reader place : Reader) : Prop where
  leads : reader.Leads place
  ended : place.rest = []
  notes : (place.operand = false ∧ place.previous = .literal .string ∧
      reader.rest.getLast? ≠ some '}') ∨
    (place.operand = true ∧ place.previous = .punctuator .braceClose)

/-- A request is all of a text, and it is scanned as it is there in front of a new line. -/
def LeftOpen {α : Type} (otherDepth : Nat) (reader : Reader) (value : α) (other : Scan (α × Token)) :
    Prop :=
  ∃ place, reader.AtEnd place ∧ ∀ more next beyond,
    unit otherDepth (place.followedBy more) = .ok (next, beyond) → next.BeginsLine →
      other (reader.followedBy more) = .ok ((value, next), beyond)

/-- A scan that takes a whole text for a request without a semicolon leaves it open. Where `bare` holds the
text may be over. -/
def Opens (otherDepth : Nat) (bare : Prop) (reader : Reader) (action other : Scan (Statement × Token)) :
    Prop :=
  ∀ statement next after, action reader = .ok ((statement, next), after) →
    statement.isRequest = true → statement.span.stop = reader.finish →
      reader.rest.getLast? ≠ some ';' →
        (Text.Sealed reader.rest ∨ bare ∧ reader.rest = []) ∧ LeftOpen otherDepth reader statement other

theorem getLast?_of_leads (leads : reader.Leads after) (goesOn : after.rest ≠ []) :
    reader.rest.getLast? = after.rest.getLast? := by
  obtain ⟨passed, passes⟩ := leads
  rw [passes.rest, List.getLast?_append_of_ne_nil _ goesOn]

theorem getLast?_ne_of_leads (leads : reader.Leads after) {c : Char}
    (other : reader.rest.getLast? ≠ some c) : after.rest.getLast? ≠ some c := by
  intro last
  refine other ((getLast?_of_leads leads fun empty => ?_).trans last)
  rw [empty] at last
  cases last

theorem Text.Sealed.of_leads (closed : Text.Sealed after.rest) (leads : reader.Leads after) :
    Text.Sealed reader.rest := by
  obtain ⟨passed, passes⟩ := leads
  rw [passes.rest]
  exact closed.append passed

theorem LeftOpen.of_leads {α β : Type} {value : α} {found : β} {front : Scan β}
    {next : β → Scan (α × Token)} (isOpen : LeftOpen otherDepth middle value (next found))
    (leads : reader.Leads middle)
    (last : middle.rest.getLast? ≠ some '}' → reader.rest.getLast? ≠ some '}')
    (run : ∀ more, front (reader.followedBy more) = .ok (found, middle.followedBy more)) :
    LeftOpen otherDepth reader value (front >>= next) := by
  obtain ⟨place, is, goesOn⟩ := isOpen
  refine ⟨place, ⟨leads.trans is.leads, is.ended, ?_⟩, fun more next beyond read begins =>
    (bind_of_ok (run more) _).trans (goesOn more next beyond read begins)⟩
  exact is.notes.imp_left fun ⟨operand, previous, noBrace⟩ => ⟨operand, previous, last noBrace⟩

namespace Opens

variable {bare : Prop}

/-- An action that ends before the request does is found in the longer text. -/
theorem seq {α β : Type} {action : Scan α} (otherAction : Nat → Scan β) (move : Nat → α → β)
    {next : α → Scan (Statement × Token)} {otherNext : β → Scan (Statement × Token)}
    (first : ∀ seam : Seam, seam.Follows action (otherAction seam.shift) (move seam.shift))
    (second : ∀ value middle, action reader = .ok (value, middle) →
      Opens otherDepth False middle (next value) (otherNext (move 0 value))) :
    Opens otherDepth bare reader (action >>= next) (otherAction 0 >>= otherNext) := by
  intro statement token after run isRequest ends unended
  obtain ⟨value, middle, firstRun, run⟩ := bind_eq_ok run
  have leads := (first Seam.atEnd).leads firstRun
  obtain ⟨closed, isOpen⟩ := second value middle firstRun statement token after run isRequest
    (ends.trans leads.finish_eq.symm) (getLast?_ne_of_leads leads unended)
  have closed : Text.Sealed middle.rest := closed.resolve_right fun bare => bare.1
  refine ⟨.inl (closed.of_leads leads), isOpen.of_leads leads (fun last => ?_)
    fun more => Seam.Follows.followed otherAction move first firstRun closed more⟩
  rwa [getLast?_of_leads leads closed.ne_nil]

/-- A unit before the end of the request is read in the longer text, and so is a string at its end. -/
theorem unit (deeper : depth ≤ otherDepth) {next otherNext : Token → Scan (Statement × Token)}
    (rest : ∀ token middle, Scan.unit depth reader = .ok (token, middle) →
      Opens otherDepth (token.kind = .literal .string) middle (next token) (otherNext token)) :
    Opens otherDepth bare reader (Scan.unit depth >>= next) (Scan.unit otherDepth >>= otherNext) := by
  intro statement last after run isRequest ends unended
  obtain ⟨token, middle, read, run⟩ := bind_eq_ok run
  have leads := unit_leads read
  obtain ⟨closed, isOpen⟩ := rest token middle read statement last after run isRequest
    (ends.trans leads.finish_eq.symm) (getLast?_ne_of_leads leads unended)
  rcases closed with closed | ⟨isString, ended⟩
  · refine ⟨.inl (closed.of_leads leads), isOpen.of_leads leads (fun last => ?_)
      fun more => unit_followed deeper read closed more⟩
    rwa [getLast?_of_leads leads closed.ne_nil]
  · have mark : token.kind.isMark = true := (Kind.isMark_iff _).mpr (.inl isString)
    obtain ⟨body, lies⟩ := unit_at read
    have whole : reader.rest = reader.gap ++ body := by
      rw [lies.passes.rest, ended, List.append_nil]
    obtain ⟨less, rfl⟩ := exists_succ_of_unit deeper read
    refine ⟨.inl ?_, isOpen.of_leads leads (fun _ => ?_)
      fun more => unit_followed_mark read mark less more⟩
    · rw [whole]
      exact (lies.sealed_of_isMark mark).append _
    · obtain ⟨-, quote, content, isQuote, rfl, -⟩ := lies.string isString
      rw [whole, ← List.append_assoc, List.getLast?_concat]
      rcases isQuote with rfl | rfl <;> decide

theorem ite {condition : Prop} [Decidable condition] {yes no otherYes otherNo : Scan (Statement × Token)}
    (holds : condition → Opens otherDepth bare reader yes otherYes)
    (fails : ¬ condition → Opens otherDepth bare reader no otherNo) :
    Opens otherDepth bare reader (if condition then yes else no)
      (if condition then otherYes else otherNo) := by
  by_cases decided : condition
  · rw [if_pos decided, if_pos decided]
    exact holds decided
  · rw [if_neg decided, if_neg decided]
    exact fails decided

theorem fail (fault : SyntaxFault) (other : Scan (Statement × Token)) :
    Opens otherDepth bare reader (Scan.fail fault) other :=
  fun _ _ _ run => by cases run

/-- Statements that request nothing are not asked. -/
theorem noRequest (inner : Scan Token) (ending : Scan Ending) (start : Nat)
    (other : Scan (Statement × Token)) :
    Opens otherDepth bare reader
      (ending >>= fun ended => resumeScanned inner (pure (.of none start ended))) other := by
  intro statement next after run isRequest
  rw [← resumeScanned_bind, resumeScanned_of] at run
  obtain ⟨parts, last, -, run⟩ := bind_eq_ok run
  cases run
  cases isRequest

end Opens

/-- Where a text ends without a semicolon nothing stands behind the place where a statement may end. -/
theorem terminator_open {stop value : Nat} {next last : Token}
    (read : unit depth reader = .ok (next, middle)) (here : stop = reader.position)
    (run : resume (unit depth) (terminator stop next) middle = .ok ((value, last), after))
    (ends : value = reader.finish) (unended : reader.rest.getLast? ≠ some ';') :
    value = stop ∧ reader.rest = [] := by
  simp only [terminator, resume_ite, resume_fail] at run
  split at run
  · rename_i isSemicolon
    rw [resume_next] at run
    obtain ⟨token, past, -, run⟩ := bind_eq_ok run
    cases run
    have isKind := (Token.isPunctuator_iff _ _).mp isSemicolon
    obtain ⟨rest, -⟩ := unit_semicolon (Nat.le_refl depth) read isKind
    obtain ⟨body, lies⟩ := unit_at read
    have none : middle.rest = [] := by
      have finish := (unit_leads read).finish_eq
      rw [← finish, lies.stop, Reader.finish] at ends
      exact (Text.size_eq_zero_iff _).mp (by omega)
    rw [rest, none] at unended
    exact absurd List.getLast?_concat unended
  · split at run
    · rw [resume_pending] at run
      cases run
      rw [here, Reader.finish] at ends
      exact ⟨rfl, (Text.size_eq_zero_iff _).mp (by omega)⟩
    · cases run

theorem terminator_beginsLine (inner : Scan Token) (stop : Nat) {next : Token} (begins : next.BeginsLine)
    (reader : Reader) : resume inner (terminator stop next) reader = .ok ((stop, next), reader) := by
  have noSemicolon : next.isPunctuator .semicolon = false := by
    simpa [Token.isPunctuator] using begins.noSemicolon
  simp only [terminator, noSemicolon, Bool.false_eq_true, if_false, begins.onNewLine, or_true, if_true,
    resume_pending]
  rfl

theorem Token.BeginsLine.introduces {next : Token} (begins : next.BeginsLine) :
    introducesAttributes next = false := by
  have noWith : next.isKeyword .withWord = false := by
    simpa [Token.isKeyword] using begins.noWith
  simp [introducesAttributes, noWith, begins.onNewLine]

theorem takesOperand_of_introduces {token : Token} (introduces : introducesAttributes token = true) :
    (trace token.kind).takesOperand = false := by
  simp only [introducesAttributes, Bool.or_eq_true, Bool.and_eq_true, Token.isKeyword, Token.isWord,
    beq_iff_eq] at introduces
  rcases introduces with isWith | ⟨⟨isName, -⟩, -⟩
  · rw [isWith]
    rfl
  · rw [isName]
    rfl

theorem requestEnding_open (deeper : depth ≤ otherDepth) {stop value : Nat} {next : Token}
    (here : stop = reader.position) (dividing : reader.operand = false)
    (behindString : reader.previous = .literal .string)
    (run : resume (unit depth) (requestEnding (unit depth) stop) reader = .ok ((value, next), after))
    (ends : value = reader.finish) (unended : reader.rest.getLast? ≠ some ';') :
    (Text.Sealed reader.rest ∨ reader.rest = []) ∧ LeftOpen otherDepth reader value
      (resume (unit otherDepth) (requestEnding (unit otherDepth) stop)) := by
  simp only [requestEnding, resume_bind, resume_ite] at run ⊢
  obtain ⟨first, middle, read, rest⟩ := bind_eq_ok run
  -- The request ends with the brace of its attributes, or else with the quote of its specifier.
  by_cases introduces : introducesAttributes first = true
  · rw [if_pos introduces] at rest
    obtain ⟨attributes, _, attributesRead, rest⟩ := bind_eq_ok rest
    obtain ⟨⟨⟩, behind, required, ending⟩ := bind_eq_ok rest
    obtain ⟨isBrace, rfl⟩ := require_eq_ok required
    obtain ⟨last, past, lastRead, ending⟩ := bind_eq_ok ending
    have leads := unit_leads read
    have leadsOn := leads.trans (unit_leads attributesRead)
    obtain ⟨body, lies⟩ := unit_at attributesRead
    obtain ⟨rfl, ended⟩ := terminator_open lastRead lies.stop ending (ends.trans leadsOn.finish_eq.symm)
      (getLast?_ne_of_leads leadsOn unended)
    have opens : attributes.kind.opens? = some .brace := by rw [isBrace]; rfl
    have closed : Text.Sealed middle.rest := by
      rw [lies.passes.rest, ended, List.append_nil]
      exact (lies.closed (.inr (.inr (by rw [opens]; rfl)))).append _
    have noOperand : middle.previous.takesOperand = false := by
      rw [(Token.before read).previous]
      exact takesOperand_of_introduces introduces
    refine ⟨.inl (closed.of_leads leads), behind, ⟨leadsOn, ended, .inr ⟨?_, ?_⟩⟩, ?_⟩
    · rw [lies.operand, isBrace, operandAfter, noOperand]
      rfl
    · rw [lies.previous, isBrace]
      rfl
    · intro more next beyond readNext begins
      refine (bind_of_ok (unit_followed deeper read closed more) _).trans ?_
      rw [if_pos introduces]
      refine (bind_of_ok (unit_followed_group deeper attributesRead opens ended more) _).trans ?_
      rw [require, if_pos isBrace, pure_bind]
      refine (bind_of_ok readNext _).trans ?_
      exact terminator_beginsLine _ _ begins _
  · rw [if_neg introduces] at rest
    obtain ⟨rfl, ended⟩ := terminator_open read here rest ends unended
    have noBrace : reader.rest.getLast? ≠ some '}' := by simp [ended]
    refine ⟨.inr ended, reader, ⟨.refl reader, ended, .inl ⟨dividing, behindString, noBrace⟩⟩, ?_⟩
    intro more next beyond readNext begins
    refine (bind_of_ok readNext _).trans ?_
    simp only [begins.introduces, Bool.false_eq_true, if_false]
    exact terminator_beginsLine _ _ begins _

theorem request_opens (deeper : depth ≤ otherDepth) (start : Nat) (form : RequestForm) {specifier : Token}
    (read : unit depth reader = .ok (specifier, middle)) :
    Opens otherDepth (specifier.kind = .literal .string) middle
      (resumeScanned (unit depth) (request (unit depth) start form specifier))
      (resumeScanned (unit otherDepth) (request (unit otherDepth) start form specifier)) := by
  simp only [request, resumeScanned_ite, resumeScanned_fail]
  refine .ite (fun isString => ?_) fun _ => .fail _ _
  simp only [resumeScanned_of]
  obtain ⟨body, lies⟩ := unit_at read
  intro statement next after run _ ends unended
  obtain ⟨⟨stop, last⟩, past, ending, run⟩ := bind_eq_ok run
  cases run
  have operand := lies.operand
  have previous := lies.previous
  rw [isString] at operand previous
  obtain ⟨closed, place, is, goesOn⟩ :=
    requestEnding_open deeper lies.stop operand previous ending ends unended
  refine ⟨closed.imp_right fun ended => ⟨isString, ended⟩, place, is, ?_⟩
  intro more next beyond readNext begins
  exact bind_of_ok (goesOn more next beyond readNext begins) _

theorem requestNext_opens (deeper : depth ≤ otherDepth) (bare : Prop) (reader : Reader) (start : Nat)
    (form : RequestForm) :
    Opens otherDepth bare reader (resumeScanned (unit depth) (requestNext (unit depth) start form))
      (resumeScanned (unit otherDepth) (requestNext (unit otherDepth) start form)) := by
  simp only [requestNext, resumeScanned_bind]
  exact .unit deeper fun specifier middle read => request_opens deeper start form read

theorem importStatement_opens (deeper : depth ≤ otherDepth) {fuel otherFuel : Nat}
    (enough : fuel ≤ otherFuel) (start : Nat) {next : Token}
    (read : unit depth reader = .ok (next, middle)) :
    Opens otherDepth (next.kind = .literal .string) middle
      (resumeScanned (unit depth) (importStatement (unit depth) fuel start next))
      (resumeScanned (unit otherDepth) (importStatement (unit otherDepth) otherFuel start next)) := by
  simp only [importStatement, resumeScanned_ite, resumeScanned_bind]
  refine .ite (fun _ => request_opens deeper start .sideEffect read) fun _ => ?_
  refine .seq (fun distance => importClause (unit otherDepth) otherFuel false (next.shift distance))
    (fun _ => id) (fun seam => importClause_follows deeper enough false next) ?_
  exact fun _ behind _ => requestNext_opens deeper _ behind start .bindings

theorem exportFrom_opens (deeper : depth ≤ otherDepth) (bare : Prop) (reader : Reader) (start : Nat)
    (token : Token) :
    Opens otherDepth bare reader (resumeScanned (unit depth) (exportFrom (unit depth) start token))
      (resumeScanned (unit otherDepth) (exportFrom (unit otherDepth) start token)) := by
  simp only [exportFrom, resumeScanned_ite, resumeScanned_fail]
  exact .ite (fun _ => requestNext_opens deeper bare reader start .reExport) fun _ => .fail _ _

theorem exportAll_opens (deeper : depth ≤ otherDepth) (bare : Prop) (reader : Reader) (start : Nat) :
    Opens otherDepth bare reader (resumeScanned (unit depth) (exportAll (unit depth) start))
      (resumeScanned (unit otherDepth) (exportAll (unit otherDepth) start)) := by
  simp only [exportAll, resumeScanned_ite, resumeScanned_bind, resumeScanned_fail]
  refine .unit deeper fun token middle _ => .ite (fun _ => ?_) fun _ => ?_
  · refine .unit deeper fun name behind _ => .ite (fun _ => ?_) fun _ => .fail _ _
    exact .unit deeper fun after last _ => exportFrom_opens deeper _ last start after
  · exact exportFrom_opens deeper _ middle start token

theorem exportList_opens (deeper : depth ≤ otherDepth) (bare : Prop) (reader : Reader) (start stop : Nat) :
    Opens otherDepth bare reader (resumeScanned (unit depth) (exportList (unit depth) start stop))
      (resumeScanned (unit otherDepth) (exportList (unit otherDepth) start stop)) := by
  simp only [exportList, resumeScanned_ite, resumeScanned_bind]
  refine .unit deeper fun token middle _ => .ite (fun _ => ?_) fun _ => ?_
  · exact requestNext_opens deeper _ middle start .reExport
  · exact .noRequest _ _ _ _

theorem exportStatement_opens (deeper : depth ≤ otherDepth) (bare : Prop) (fuel otherFuel : Nat)
    (nested otherNested : Scan Ending) (reader : Reader) (start : Nat) :
    Opens otherDepth bare reader
      (resumeScanned (unit depth) (exportStatement (unit depth) fuel nested start))
      (resumeScanned (unit otherDepth) (exportStatement (unit otherDepth) otherFuel otherNested start)) := by
  simp only [exportStatement, resumeScanned_ite, resumeScanned_bind]
  refine .unit deeper fun next middle _ => .ite (fun _ => exportAll_opens deeper _ middle start) fun _ => ?_
  refine .ite (fun _ => exportList_opens deeper _ middle start _) fun _ => .ite (fun _ => ?_) fun _ => ?_
  · exact .unit deeper fun value behind _ => .noRequest _ _ _ _
  · exact .ite (fun _ => .fail _ _) fun _ => .noRequest _ _ _ _

/-- A statement that is all of a text and requests a module without a semicolon is scanned as it is there
in front of a new line. -/
theorem statement_opens (deeper : depth ≤ otherDepth) {bound otherBound : Nat}
    (enough : bound ≤ otherBound) (reader : Reader) (first : Token) :
    Opens otherDepth False reader
      (resumeScanned (unit depth) (statement (unit depth) bound first))
      (resumeScanned (unit otherDepth) (statement (unit otherDepth) otherBound first)) := by
  cases bound with
  | zero => exact fun _ _ _ run => by cases run
  | succ bound =>
      obtain ⟨otherBound, rfl⟩ := Nat.exists_eq_add_one_of_ne_zero (by omega : otherBound ≠ 0)
      simp only [statement, statementOver, resumeScanned_ite, resumeScanned_bind]
      refine .ite (fun _ => ?_) fun _ => .ite (fun _ => ?_) fun _ => ?_
      · refine .unit deeper fun next middle read => .ite (fun _ => .noRequest _ _ _ _) fun _ => ?_
        exact importStatement_opens deeper enough _ read
      · exact exportStatement_opens deeper _ _ _ _ _ reader _
      · exact .noRequest _ _ _ _

end Relink
