import Relink.Proofs.Scan.Quoted

/-!
# One statement behind another

A statement lies behind the gap after the border before it and reaches to its own border. Beside
another text behind that border, behind the same gap, it is scanned again, also with another specifier
of the same quotes.
-/

set_option autoImplicit false

namespace Relink

open Scan

variable {depth otherDepth : Nat}

/-- How a statement and the border behind it lie behind the border before it. -/
structure StatementAt (depth : Nat) (border : Reader) (statement : Statement) (next : Token)
    (after : Reader) (body : Text) (last past : Reader) : Prop where
  passes : border.Passes (border.gap ++ body) last
  start : statement.span.start = border.position + border.gap.size
  stop : statement.span.stop = last.position
  nonempty : body ≠ []
  read : unit depth last = .ok (next, past)
  leaves : after = { past with operand := after.operand }
  mark : next.onNewLine = true ∨ next.kind = .eof ∨ Text.Sealed (border.gap ++ body)

/-- Where the specifier of a request stands in the text of its statement. -/
structure QuotedAt (statement : Statement) (body : Text) (request : ModuleRequest) (front : Text)
    (quote : Char) (content back : Text) : Prop where
  requests : statement.request = some request
  isQuote : quote = '\x22' ∨ quote = '\x27'
  body : body = front ++ Token.quoted quote content ++ back
  isContent : Token.IsContent quote content
  specifier : request.specifier = ⟨statement.span.start + front.size + 1,
    statement.span.start + front.size + 1 + content.size⟩

def Statement.grow (statement : Statement) (growth : Nat) : Statement :=
  ⟨statement.request.map fun request =>
      { request with specifier := ⟨request.specifier.start, request.specifier.stop + growth⟩ },
    ⟨statement.span.start, statement.span.stop + growth⟩⟩

@[simp] theorem Statement.grow_zero (statement : Statement) : statement.grow 0 = statement := by
  obtain ⟨request, span⟩ := statement
  cases request <;> rfl

/-- With `otherBody`, which is longer, in the place of `body`, the statement is scanned again at a
distance, whatever stands behind the border, if that goes on alike and the next unit resembles. -/
def Rescans (otherDepth otherBound : Nat) (border : Reader) (operand : Bool) (first : Token)
    (found : Statement) (next : Token) (after : Reader) (body : Text) (last : Reader)
    (growth : Nat) (otherBody : Text) : Prop :=
  ∀ (rest : Text) (distance : Nat) (otherNext : Token) (otherPast : Reader),
    (last.rest = [] → rest = []) →
      Text.Alike last.rest rest ∨ Text.Sealed (border.gap ++ body) →
        unit otherDepth ⟨rest, last.position + (distance + growth), last.operand, last.previous⟩ =
            .ok (otherNext, otherPast) →
          next.Resembles otherNext →
            ∃ otherMiddle, unit otherDepth ⟨border.gap ++ otherBody ++ rest,
                border.position + distance, border.operand, border.previous⟩ =
                  .ok (first.shift distance, otherMiddle) ∧
              resumeScanned (unit otherDepth)
                  (statement (unit otherDepth) otherBound (first.shift distance))
                  { otherMiddle with operand := operand } =
                .ok (((found.grow growth).shift distance, otherNext),
                  { otherPast with operand := after.operand })

section Step

variable (deeper : depth ≤ otherDepth) {bound otherBound : Nat} (enough : bound ≤ otherBound)
  {border past after : Reader} {operand : Bool} {first next : Token} {found : Statement}
  (read : unit depth border = .ok (first, past)) (noEnd : first.kind ≠ .eof)
  (run : resumeScanned (unit depth) (statement (unit depth) bound first)
    { past with operand := operand } = .ok ((found, next), after))

include deeper enough read noEnd run

/-- Every statement lies behind the border before it and is scanned again as it is. -/
theorem plain_step :
    ∃ body last beyond, StatementAt depth border found next after body last beyond ∧
      Rescans otherDepth otherBound border operand first found next after body last 0 body := by
  obtain ⟨firstBody, lies⟩ := unit_at read
  let reader := { past with operand := operand }
  have closes : Closes depth otherDepth first.kind.closesText reader _ _ :=
    statement_closes deeper enough lies.stop
  obtain ⟨passed, last, beyond, is, beside⟩ := closes found next after run
  have starts := (statement_requests deeper enough reader first found next after run).1
  have nonempty : firstBody ≠ [] := fun empty => noEnd (lies.empty.mpr empty)
  have passes : border.Passes (border.gap ++ (firstBody ++ passed)) last := by
    rw [← List.append_assoc]
    exact lies.passes.trans ⟨is.passes.rest, is.passes.position⟩
  refine ⟨firstBody ++ passed, last, beyond,
    ⟨passes, starts.trans lies.start, is.stop, by simp [nonempty], is.read, is.after, ?_⟩, ?_⟩
  · rcases is.mark with newLine | ended | closed | ⟨rfl, closed⟩
    · exact .inl newLine
    · exact .inr (.inl ended)
    · exact .inr (.inr ((closed.append firstBody).append border.gap))
    · rw [List.append_nil]
      exact .inr (.inr ((lies.closed closed).append border.gap))
  · intro rest distance otherNext otherPast ends fits otherRead resembles
    let seam : Seam := ⟨last.rest, rest, distance, ends⟩
    have twins : seam.Twins border _ := Seam.twins_of_passes passes rfl (.inr fits)
    have units : seam.Follows (unit depth) (unit otherDepth) (·.shift seam.shift) := .unit deeper
    have beyondFirst : seam.left <:+ past.rest := ⟨passed, is.passes.rest.symm⟩
    obtain ⟨otherMiddle, otherFirst, twinsMiddle⟩ := (units border first past read).2 _ twins beyondFirst
    refine ⟨otherMiddle, otherFirst, ?_⟩
    rw [Statement.grow_zero]
    exact beside seam _ rfl (twinsMiddle.withOperand operand) otherNext otherPast otherRead resembles

end Step

/-! ## Requests -/

theorem requestOf_moved {start stop growth distance : Nat} {form : RequestForm}
    {specifier other : Token} (room : 1 ≤ specifier.span.stop)
    (span : other.span = ⟨specifier.span.start + distance,
      specifier.span.stop + (distance + growth)⟩) :
    requestOf (start + distance) form other (stop + (distance + growth)) =
      ((requestOf start form specifier stop).grow growth).shift distance := by
  simp only [requestOf, span, Statement.grow, Statement.shift, Span.shift, Option.map_some,
    Statement.mk.injEq, Option.some.injEq, ModuleRequest.mk.injEq, Span.mk.injEq, true_and]
  omega

/-- A request on its way: past `passed` to the specifier, and past `back` to the border. -/
structure RequestAt (depth otherDepth otherBound : Nat) (reader : Reader) (first : Token)
    (found : Statement) (next : Token) (after : Reader) (passed : Text) (quoted : Reader)
    (specifier : Token) (quote : Char) (content : Text) (behind : Reader) (back : Text)
    (last beyond : Reader) (form : RequestForm) : Prop where
  toSpecifier : reader.Passes passed quoted
  isQuote : quote = '\x22' ∨ quote = '\x27'
  isContent : Token.IsContent quote content
  read : unit depth quoted = .ok (specifier, behind)
  specifierAt : UnitAt quoted specifier (Token.quoted quote content) behind
  string : specifier.kind = .literal .string
  found : found = requestOf first.span.start form specifier last.position
  toBorder : behind.Passes back last
  readNext : unit depth last = .ok (next, beyond)
  leaves : after = { beyond with operand := after.operand }
  mark : next.onNewLine = true ∨ next.kind = .eof ∨ Text.Sealed back
  besideSpecifier : ∀ (seam : Seam) twin, seam.left = quoted.rest → seam.Twins reader twin →
    ∀ otherSpecifier otherBehind,
      unit otherDepth (seam.across quoted) = .ok (otherSpecifier, otherBehind) →
        otherSpecifier.kind = .literal .string →
          resumeScanned (unit otherDepth)
              (statement (unit otherDepth) otherBound (first.shift seam.shift)) twin =
            requestRest (unit otherDepth) (first.span.start + seam.shift) form otherSpecifier
              otherBehind
  besideBorder : ∀ (seam : Seam) twin, seam.left = last.rest → seam.Twins behind twin →
    ∀ otherNext otherPast, unit otherDepth (seam.across last) = .ok (otherNext, otherPast) →
      next.Resembles otherNext →
        resume (unit otherDepth)
            (requestEnding (unit otherDepth) (specifier.span.stop + seam.shift)) twin =
          .ok ((last.position + seam.shift, otherNext), { otherPast with operand := after.operand })

theorem request_at (deeper : depth ≤ otherDepth) {bound otherBound : Nat}
    (enough : bound ≤ otherBound) {reader after : Reader} {first next : Token} {found : Statement}
    (run : resumeScanned (unit depth) (statement (unit depth) bound first) reader =
      .ok ((found, next), after)) (requests : found.request.isSome = true) :
    ∃ passed quoted specifier quote content behind back last beyond form,
      RequestAt depth otherDepth otherBound reader first found next after passed quoted specifier
        quote content behind back last beyond form := by
  obtain ⟨-, specified⟩ := statement_requests deeper enough reader first found next after run
  obtain ⟨quoted, behind, form, specifier, is, besideSpecifier⟩ := specified requests
  obtain ⟨passed, toSpecifier⟩ := is.leads
  obtain ⟨body, specifierAt⟩ := unit_at is.read
  obtain ⟨-, quote, content, isQuote, rfl, isContent⟩ := specifierAt.string is.string
  obtain ⟨⟨stop, pending⟩, middle, ending, done⟩ := bind_eq_ok is.rest
  cases done
  have closes : Closes depth otherDepth False behind _ _ :=
    requestEnding_closes deeper specifierAt.stop
  obtain ⟨back, last, beyond, border, besideBorder⟩ := closes stop pending after ending
  have stops : stop = last.position := border.stop
  subst stops
  refine ⟨passed, quoted, specifier, quote, content, behind, back, last, beyond, form, toSpecifier,
    isQuote, isContent, is.read, specifierAt, is.string, rfl, border.passes, border.read,
    border.after, ?_, besideSpecifier, besideBorder⟩
  rcases border.mark with newLine | ended | closed | ⟨-, none⟩
  · exact .inl newLine
  · exact .inr (.inl ended)
  · exact .inr (.inr closed)
  · exact none.elim

section Request

variable {bound otherBound : Nat} {border past after quoted behind last beyond : Reader}
  {operand : Bool} {first next specifier : Token} {found : Statement}
  {firstBody passed content back : Text} {quote : Char} {form : RequestForm}

/-- The text of a request before its specifier. -/
def frontOf (firstBody passed : Text) (quoted : Reader) : Text := firstBody ++ passed ++ quoted.gap

/-- The text of a request. -/
def requestText (firstBody passed : Text) (quoted : Reader) (quote : Char) (content back : Text) :
    Text :=
  frontOf firstBody passed quoted ++ Token.quoted quote content ++ back

theorem quote_size {quote : Char} (isQuote : quote = '\x22' ∨ quote = '\x27') : quote.utf8Size = 1 := by
  rcases isQuote with rfl | rfl <;> rfl

theorem size_quoted {quote : Char} (isQuote : quote = '\x22' ∨ quote = '\x27') (content : Text) :
    (Token.quoted quote content).size = content.size + 2 := by
  simp only [Token.quoted, List.cons_append, Text.size_cons, Text.size_append, Text.size_nil,
    quote_size isQuote]
  omega

variable (lies : UnitAt border first firstBody past)
  (is : RequestAt depth otherDepth otherBound { past with operand := operand } first found next after
    passed quoted specifier quote content behind back last beyond form)

include is

theorem RequestAt.quoted_rest : quoted.rest = quoted.gap ++ (Token.quoted quote content ++ behind.rest) := by
  rw [is.specifierAt.passes.rest, List.append_assoc]

/-- Before the specifier nothing of it is seen but the quote. -/
theorem RequestAt.quoted_alike (otherContent rest : Text) :
    Text.Alike quoted.rest (quoted.gap ++ (Token.quoted quote otherContent ++ rest)) := by
  rw [is.quoted_rest]
  by_cases noGap : quoted.gap = []
  · rw [noGap]
    have noPoint : quote ≠ '.' := by rcases is.isQuote with rfl | rfl <;> decide
    exact ⟨.inl rfl, fun point => absurd (Option.some.inj point) noPoint⟩
  · exact Text.alike_append noGap (Trivia.skip_chars_ne_point quoted.rest) _ _

include lies

theorem RequestAt.passes_quoted :
    border.Passes (border.gap ++ (firstBody ++ passed)) quoted := by
  rw [← List.append_assoc]
  exact lies.passes.trans ⟨is.toSpecifier.rest, is.toSpecifier.position⟩

theorem RequestAt.statementAt :
    StatementAt depth border found next after (requestText firstBody passed quoted quote content back)
      last beyond := by
  have toBorder := ((is.passes_quoted lies).trans is.specifierAt.passes).trans is.toBorder
  have nonempty : requestText firstBody passed quoted quote content back ≠ [] := by
    simp [requestText, Token.quoted]
  refine ⟨?_, ?_, ?_, nonempty, is.readNext, is.leaves, ?_⟩
  · simpa [requestText, frontOf, List.append_assoc] using toBorder
  · rw [is.found]
    exact lies.start
  · rw [is.found]
    rfl
  · rcases is.mark with newLine | ended | closed
    · exact .inl newLine
    · exact .inr (.inl ended)
    · exact .inr (.inr ((closed.append _).append border.gap))

theorem RequestAt.quotedAt :
    ∃ request, QuotedAt found (requestText firstBody passed quoted quote content back) request
      (frontOf firstBody passed quoted) quote content back := by
  refine ⟨_, by rw [is.found]; rfl, is.isQuote, rfl, is.isContent, ?_⟩
  have starts := lies.start
  have toQuoted := (is.passes_quoted lies).position
  have specifierStart := is.specifierAt.start
  have specifierStop := is.specifierAt.stop
  have toBehind := is.specifierAt.passes.position
  have size := size_quoted is.isQuote content
  rw [is.found]
  simp only [requestOf, frontOf, Text.size_append, Span.mk.injEq] at *
  omega

/-- A request is scanned again with whatever string of the same quotes is read in the place of its
specifier. -/
theorem RequestAt.rescans (deeper : depth ≤ otherDepth)
    (read : unit depth border = .ok (first, past)) {growth : Nat} {otherContent : Text}
    (reads : ∀ (rest : Text) (distance : Nat), (last.rest = [] → rest = []) →
      Text.Alike last.rest rest ∨
          Text.Sealed (border.gap ++ requestText firstBody passed quoted quote content back) →
        ∃ otherSpecifier, otherSpecifier.kind = .literal .string ∧
          otherSpecifier.span = ⟨specifier.span.start + distance,
            specifier.span.stop + (distance + growth)⟩ ∧
          unit otherDepth ⟨quoted.gap ++ (Token.quoted quote otherContent ++ (back ++ rest)),
              quoted.position + distance, quoted.operand, quoted.previous⟩ =
            .ok (otherSpecifier, ⟨back ++ rest, behind.position + (distance + growth),
              behind.operand, behind.previous⟩)) :
    Rescans otherDepth otherBound border operand first found next after
      (requestText firstBody passed quoted quote content back) last growth
      (requestText firstBody passed quoted quote otherContent back) := by
  intro rest distance otherNext otherPast ends fits otherRead resembles
  obtain ⟨otherSpecifier, otherString, otherSpan, otherQuoted⟩ := reads rest distance ends fits
  -- The first seam lies before the specifier, of which only the gap and the quote are seen.
  let near : Seam := ⟨quoted.rest, quoted.gap ++ (Token.quoted quote otherContent ++ (back ++ rest)),
    distance, fun empty => by simp [is.quoted_rest, Token.quoted] at empty⟩
  have alike : Text.Alike near.left near.right := is.quoted_alike otherContent (back ++ rest)
  have twins : near.Twins border _ :=
    Seam.twins_of_passes (is.passes_quoted lies) rfl (.inr (.inl alike))
  have units : near.Follows (unit depth) (unit otherDepth) (·.shift near.shift) := .unit deeper
  have beyondFirst : near.left <:+ past.rest := ⟨passed, is.toSpecifier.rest.symm⟩
  obtain ⟨otherMiddle, otherFirst, twinsMiddle⟩ := (units border first past read).2 _ twins beyondFirst
  have toSpecifier := is.besideSpecifier near _ rfl (twinsMiddle.withOperand operand) _ _ otherQuoted
    otherString
  -- The second one lies at the border.
  let far : Seam := ⟨last.rest, rest, distance + growth, ends⟩
  have hides : far.Hides back := by
    rw [requestText, ← List.append_assoc] at fits
    exact .of_append (.inr fits)
  have twinsBehind : far.Twins behind _ := Seam.twins_of_passes is.toBorder rfl hides
  have toBorder := is.besideBorder far _ rfl twinsBehind otherNext otherPast otherRead resembles
  refine ⟨otherMiddle, ?_, ?_⟩
  · simpa [requestText, frontOf, near, List.append_assoc] using otherFirst
  · rw [toSpecifier, requestRest, otherSpan]
    refine (bind_of_ok toBorder _).trans ?_
    rw [is.found, ← requestOf_moved (is.specifierAt.room is.string) otherSpan]
    rfl

theorem RequestAt.rescans_kept (deeper : depth ≤ otherDepth)
    (read : unit depth border = .ok (first, past)) :
    Rescans otherDepth otherBound border operand first found next after
      (requestText firstBody passed quoted quote content back) last 0
      (requestText firstBody passed quoted quote content back) := by
  apply is.rescans lies deeper read
  intro rest distance ends fits
  let seam : Seam := ⟨last.rest, rest, distance, ends⟩
  have toBorder := is.specifierAt.passes.trans is.toBorder
  have hides : seam.Hides (quoted.gap ++ Token.quoted quote content ++ back) := by
    have whole : border.gap ++ requestText firstBody passed quoted quote content back =
        border.gap ++ (firstBody ++ passed) ++ (quoted.gap ++ Token.quoted quote content ++ back) := by
      simp only [requestText, frontOf, List.append_assoc]
    rw [whole] at fits
    exact .of_append (.inr fits)
  have twins : seam.Twins quoted _ := Seam.twins_of_passes toBorder rfl hides
  have units : seam.Follows (unit depth) (unit otherDepth) (·.shift seam.shift) := .unit deeper
  have beyond : seam.left <:+ behind.rest := ⟨back, is.toBorder.rest.symm⟩
  obtain ⟨otherBehind, otherRead, twinsBehind⟩ :=
    (units quoted specifier behind is.read).2 _ twins beyond
  refine ⟨specifier.shift distance, is.string, rfl, ?_⟩
  rw [twinsBehind.eq_of_passes is.toBorder rfl] at otherRead
  simpa [seam, List.append_assoc] using otherRead

theorem RequestAt.rescans_replaced (deeper : depth ≤ otherDepth)
    (read : unit depth border = .ok (first, past)) {otherContent : Text}
    (plain : Token.IsPlain quote otherContent) {growth : Nat}
    (longer : otherContent.size = content.size + growth) :
    Rescans otherDepth otherBound border operand first found next after
      (requestText firstBody passed quoted quote content back) last growth
      (requestText firstBody passed quoted quote otherContent back) := by
  apply is.rescans lies deeper read
  intro rest distance ends fits
  have otherRead := unit_quoted deeper is.read is.specifierAt is.string is.isQuote plain
    (back ++ rest) (quoted.position + distance)
  have specifierStart := is.specifierAt.start
  have specifierStop := is.specifierAt.stop
  have toBehind := is.specifierAt.passes.position
  have size := size_quoted is.isQuote content
  have otherSize := size_quoted is.isQuote otherContent
  rw [Text.size_append] at toBehind
  have start : quoted.position + distance + quoted.gap.size = specifier.span.start + distance := by
    omega
  have stop : specifier.span.start + distance + (Token.quoted quote otherContent).size =
      specifier.span.stop + (distance + growth) := by omega
  simp only [start, stop] at otherRead
  rw [← specifierStop]
  exact ⟨_, rfl, rfl, otherRead⟩

end Request

/-! ## All statements -/

/-- What is found out about one statement: how it lies, that it is scanned again as it is, and if it
is a request where its specifier stands and that it is scanned again with another one. -/
structure StepAt (depth otherDepth otherBound : Nat) (border : Reader) (operand : Bool)
    (first : Token) (found : Statement) (next : Token) (after : Reader) (body : Text)
    (last past : Reader) : Prop extends StatementAt depth border found next after body last past where
  kept : Rescans otherDepth otherBound border operand first found next after body last 0 body
  replaced : ∀ request, found.request = some request → ∃ front quote content back,
    QuotedAt found body request front quote content back ∧
      ∀ growth otherContent, Token.IsPlain quote otherContent →
        otherContent.size = content.size + growth →
          Rescans otherDepth otherBound border operand first found next after body last growth
            (front ++ Token.quoted quote otherContent ++ back)

theorem statement_step (deeper : depth ≤ otherDepth) {bound otherBound : Nat}
    (enough : bound ≤ otherBound) {border past after : Reader} {operand : Bool}
    {first next : Token} {found : Statement} (read : unit depth border = .ok (first, past))
    (noEnd : first.kind ≠ .eof)
    (run : resumeScanned (unit depth) (statement (unit depth) bound first)
      { past with operand := operand } = .ok ((found, next), after)) :
    ∃ body last beyond, StepAt depth otherDepth otherBound border operand first found next after body
      last beyond := by
  cases requests : found.request with
  | none =>
      obtain ⟨body, last, beyond, lies, kept⟩ := plain_step deeper enough read noEnd run
      refine ⟨body, last, beyond, lies, kept, ?_⟩
      intro request isRequest
      rw [requests] at isRequest
      cases isRequest
  | some request =>
      obtain ⟨firstBody, lies⟩ := unit_at read
      obtain ⟨passed, quoted, specifier, quote, content, behind, back, last, beyond, form, is⟩ :=
        request_at deeper enough run (by rw [requests]; rfl)
      refine ⟨_, last, beyond, is.statementAt lies, is.rescans_kept lies deeper read, ?_⟩
      intro other isRequest
      obtain ⟨same, quotedAt⟩ := is.quotedAt lies
      have isSame : same = other := Option.some.inj (quotedAt.requests.symm.trans isRequest)
      subst isSame
      exact ⟨_, quote, content, back, quotedAt, fun growth otherContent plain longer =>
        is.rescans_replaced lies deeper read plain longer⟩

theorem statements_more (inner : Scan Token) (bound fuel : Nat) {first : Token}
    (noEnd : first.kind ≠ .eof) :
    statements inner bound (fuel + 2) (some first) =
      resumeScanned inner (statement inner bound first) >>= fun parts =>
        statements inner bound (fuel + 1) (some parts.2) >>= fun others =>
          pure (parts.1 :: others) := by
  simp only [statements, pendingOr, pure_bind, noEnd, if_false, resumeScanned, bind_assoc]

theorem statements_done (inner : Scan Token) (bound fuel : Nat) {first : Token}
    (ended : first.kind = .eof) : statements inner bound (fuel + 1) (some first) = pure [] := by
  simp only [statements, pendingOr, pure_bind, ended, if_true]

theorem statements_next (inner : Scan Token) (bound fuel : Nat) :
    statements inner bound (fuel + 1) none =
      inner >>= fun first => statements inner bound (fuel + 1) (some first) := by
  simp only [statements, pendingOr, pure_bind]

/-- What the loop comes to: the end, or a statement and the rest. -/
theorem statements_cases {inner : Scan Token} {bound fuel : Nat} {first : Token}
    {reader last : Reader} {found : List Statement}
    (run : statements inner bound fuel (some first) reader = .ok (found, last)) :
    (first.kind = .eof ∧ found = []) ∨
      first.kind ≠ .eof ∧ ∃ less statement next after others, fuel = less + 1 ∧
        resumeScanned inner (Scan.statement inner bound first) reader =
          .ok ((statement, next), after) ∧
        statements inner bound less (some next) after = .ok (others, last) ∧
        found = statement :: others := by
  cases fuel with
  | zero => cases run
  | succ fuel =>
      by_cases ended : first.kind = .eof
      · rw [statements_done _ _ _ ended] at run
        cases run
        exact .inl ⟨ended, rfl⟩
      · refine .inr ⟨ended, ?_⟩
        cases fuel with
        | zero =>
            simp only [statements, pendingOr, pure_bind, ended, if_false] at run
            obtain ⟨scanned, after, -, run⟩ := bind_eq_ok run
            cases run
        | succ fuel =>
            rw [statements_more _ _ _ ended] at run
            obtain ⟨⟨statement, next⟩, after, scanned, run⟩ := bind_eq_ok run
            obtain ⟨others, behind, rest, run⟩ := bind_eq_ok run
            cases run
            exact ⟨fuel + 1, statement, next, after, others, rfl, scanned, rest, rfl⟩

end Relink
