import Relink.Proofs.Placement
import Relink.Proofs.Splitting
import Relink.Proofs.Settling

/-!
# Accounting for statements

Every request of a module is entered into its outcome once: as it is resolved, or as an anomaly. What is
entered for a statement and what the statement becomes follow from the text of that statement alone.
-/

set_option autoImplicit false

namespace Relink

/-! ## Entries -/

/-- What is entered into an outcome for a statement. -/
inductive Entry where
  | resolved (request : ResolvedRequest)
  | odd (anomaly : Anomaly)
deriving DecidableEq, Repr

namespace Entry

def request? : Entry → Option ResolvedRequest
  | .resolved request => some request
  | .odd _ => none

def anomaly? : Entry → Option Anomaly
  | .resolved _ => none
  | .odd anomaly => some anomaly

theorem length_filterMap (entries : List Entry) :
    (entries.filterMap request?).length + (entries.filterMap anomaly?).length = entries.length := by
  induction entries with
  | nil => rfl
  | cons entry rest ih =>
      cases entry with
      | resolved request =>
          simp only [List.filterMap_cons, request?, anomaly?, List.length_cons]
          omega
      | odd anomaly =>
          simp only [List.filterMap_cons, request?, anomaly?, List.length_cons]
          omega

end Entry

section Statement

variable (isFile : Path → Bool) (options : Options) (directory : Path) (text : Text)

/-- The entry of a statement of a text: none unless it is a request. -/
def entryOf (statement : Statement) : Option Entry :=
  statement.request.bind fun request =>
    (text.slice? request.specifier.start request.specifier.stop).map fun raw =>
      if raw.contains '\\' then .odd (.escaped raw)
      else if raw.trim.isEmpty then .odd (.empty statement.span)
      else .resolved ⟨raw.trim, resolutionOf isFile options directory raw.trim⟩

/-- What the text of a statement becomes: a specifier that is replaced keeps the blanks around it, and all
else stays. -/
def respelled (statement : Statement) : Option Text :=
  match statement.request, entryOf isFile options directory text statement with
  | some request, some (.resolved ⟨specifier, .replaced replacement _⟩) => do
    let raw ← text.slice? request.specifier.start request.specifier.stop
    let start := request.specifier.start + raw.leadingBlanks.size
    let front ← text.slice? statement.span.start start
    let back ← text.slice? (start + specifier.size) statement.span.stop
    some (front ++ replacement ++ back)
  | _, _ => text.slice? statement.span.start statement.span.stop

/-- The outcome of a text that is split into `found` accounts for each of its statements. -/
structure Accounted (found : List Statement) (outcome : Outcome) : Prop where
  entered : ∀ statement ∈ found,
    (entryOf isFile options directory text statement).isSome = statement.request.isSome
  requests : outcome.requests =
    (found.filterMap (entryOf isFile options directory text)).filterMap Entry.request?
  anomalies : outcome.anomalies =
    (found.filterMap (entryOf isFile options directory text)).filterMap Entry.anomaly?
  total : outcome.requests.length + outcome.anomalies.length =
    found.countP fun statement => statement.request.isSome
  /-- The new text, or the old one where there is none, is split into what the statements become. -/
  becomes : ∃ others, Statement.split (outcome.text.getD text) = .ok others ∧
    List.Forall₂ (fun statement other => ∃ body,
      respelled isFile options directory text statement = some body ∧
        (outcome.text.getD text).slice? other.span.start other.span.stop = some body) found others
  replaced : outcome.replacedRequests = found.countP fun statement =>
    respelled isFile options directory text statement ≠
      text.slice? statement.span.start statement.span.stop
  verbatim : ∀ statement ∈ found, ∀ anomaly,
    entryOf isFile options directory text statement = some (.odd anomaly) →
      respelled isFile options directory text statement =
        text.slice? statement.span.start statement.span.stop

end Statement

/-! ## Entries of pieces -/

def Treatment.entry? : Treatment → Option Entry
  | .copied => none
  | .resolved request _ => some (.resolved request)
  | .odd anomaly => some (.odd anomaly)

theorem Treatment.request?_eq (treatment : Treatment) :
    treatment.request? = treatment.entry?.bind Entry.request? := by
  cases treatment <;> rfl

theorem Treatment.anomaly?_eq (treatment : Treatment) :
    treatment.anomaly? = treatment.entry?.bind Entry.anomaly? := by
  cases treatment <;> rfl

section Piece

variable {isFile : Path → Bool} {options : Options} {directory : Path} {text before behind : Text}
  {piece : Piece}

theorem entryOf_piece (lies : piece.LiesAt before.size)
    (split : text = before ++ piece.gap ++ piece.body ++ behind) :
    entryOf isFile options directory text piece.statement =
      (piece.treat isFile options directory).value.entry? := by
  cases requests : piece.statement.request with
  | none =>
      rw [piece.treat_copied isFile options directory requests, entryOf, requests]
      rfl
  | some request =>
      obtain ⟨front, quote, content, back, quoted⟩ := lies.quoted request requests
      rw [quoted.treat isFile options directory lies, entryOf, requests, Option.bind_some,
        quoted.slice split lies.span_size, Option.map_some]
      split
      · rfl
      split <;> rfl

theorem entryOf_isSome (lies : piece.LiesAt before.size)
    (split : text = before ++ piece.gap ++ piece.body ++ behind) :
    (entryOf isFile options directory text piece.statement).isSome =
      piece.statement.request.isSome := by
  cases requests : piece.statement.request with
  | none =>
      rw [entryOf, requests]
      rfl
  | some request =>
      obtain ⟨front, quote, content, back, quoted⟩ := lies.quoted request requests
      rw [entryOf, requests, Option.bind_some, quoted.slice split lies.span_size]
      rfl

/-- A piece becomes another text exactly if its specifier is replaced. -/
theorem newBody_ne_iff (lies : piece.LiesAt before.size) :
    newBody (piece, (piece.treat isFile options directory).value) ≠ piece.body ↔
      (piece.treat isFile options directory).value.newText?.isSome = true := by
  cases changed : (piece.treat isFile options directory).value.newText? with
  | none => simp [newBody_kept isFile options directory changed]
  | some newText =>
      obtain ⟨request, front, quote, content, back, replacement, replaced⟩ :=
        lies.replaced isFile options directory changed
      obtain ⟨suffix, isSuffix, rfl⟩ := replaced.replaces.extends_
      have more := Text.size_pos (Specifier.suffix_ne_nil isSuffix)
      simp only [Option.isSome_some, iff_true]
      intro same
      have size := congrArg Text.size same
      rw [replaced.newBody, replaced.quoted.body] at size
      have whole := congrArg Text.size (Text.trim_append content)
      simp only [Text.size_append, size_quoted replaced.quoted.isQuote] at size whole
      omega

theorem respelled_piece (lies : piece.LiesAt before.size)
    (split : text = before ++ piece.gap ++ piece.body ++ behind) :
    respelled isFile options directory text piece.statement =
      some (newBody (piece, (piece.treat isFile options directory).value)) := by
  have same := @treat_newText_isSome isFile options directory piece
  have entry := @entryOf_piece isFile options directory _ _ _ _ lies split
  cases changed : (piece.treat isFile options directory).value.newText? with
  | none =>
      rw [newBody_kept isFile options directory changed, ← slice?_piece lies split, respelled]
      split
      · rename_i replacement candidate _ isReplaced
        -- A request that is replaced has a new text.
        rw [entry] at isReplaced
        rw [changed, Treatment.request?_eq, isReplaced] at same
        exact absurd same Bool.false_ne_true
      · rfl
  | some newText =>
      obtain ⟨request, front, quote, content, back, replacement, replaced⟩ :=
        lies.replaced isFile options directory changed
      obtain ⟨candidate, resolved⟩ := replaced.resolved
      obtain ⟨isFront, isBack⟩ := replaced.quoted.slices split lies.span_size
      rw [replaced.treated, resolved] at entry
      rw [respelled, replaced.quoted.requests, entry, replaced.newBody]
      simp [Treatment.entry?, replaced.quoted.slice split lies.span_size, isFront, isBack, Token.quoted]

end Piece

/-! ## Modules -/

section Module

variable {isFile : Path → Bool} {options : Options} {directory : Path} {text tail : Text}
  {parts : List Piece}

theorem Layout.mem_lies (layout : Layout 0 text parts tail) {piece : Piece} (member : piece ∈ parts) :
    ∃ before behind, text = before ++ piece.gap ++ piece.body ++ behind ∧ piece.LiesAt before.size := by
  obtain ⟨before, behind, split, lies⟩ := layout.at_mem member
  rw [Nat.zero_add] at lies
  exact ⟨before, behind, split, lies⟩

theorem Layout.slice?_mem (layout : Layout 0 text parts tail) {piece : Piece} (member : piece ∈ parts) :
    text.slice? piece.statement.span.start piece.statement.span.stop = some piece.body := by
  obtain ⟨before, behind, split, lies⟩ := layout.mem_lies member
  exact slice?_piece lies split

theorem Layout.respelled_mem (layout : Layout 0 text parts tail) {piece : Piece} (member : piece ∈ parts) :
    respelled isFile options directory text piece.statement =
      some (newBody (piece, (piece.treat isFile options directory).value)) := by
  obtain ⟨before, behind, split, lies⟩ := layout.mem_lies member
  exact respelled_piece lies split

/-- The requests that are counted as replaced are the statements that become another text. -/
theorem Layout.replacedRequests_eq (layout : Layout 0 text parts tail) :
    (Outcome.ofPieces options (treatedPieces isFile options directory parts) tail).replacedRequests =
      (statementsOf parts).countP fun statement => respelled isFile options directory text statement ≠
        text.slice? statement.span.start statement.span.stop := by
  simp only [Outcome.replacedRequests, Outcome.ofPieces, treatedPieces, statementsOf, List.map_map,
    List.countP_filterMap, List.countP_map]
  refine List.countP_congr fun piece member => ?_
  obtain ⟨before, behind, split, lies⟩ := layout.mem_lies member
  have changes := (@newBody_ne_iff isFile options directory before piece lies).symm
  rw [treat_newText_isSome] at changes
  simp only [Function.comp, layout.respelled_mem member, layout.slice?_mem member, decide_eq_true_eq, ne_eq,
    Option.some.injEq]
  rw [← ne_eq, ← changes]
  cases (piece.treat isFile options directory).value.request? <;> rfl

theorem Layout.filterMap_entryOf (layout : Layout 0 text parts tail) :
    (statementsOf parts).filterMap (entryOf isFile options directory text) =
      ((treatedPieces isFile options directory parts).map Prod.snd).filterMap Treatment.entry? := by
  simp only [statementsOf, treatedPieces, List.map_map, List.filterMap_map]
  refine List.filterMap_congr fun piece member => ?_
  obtain ⟨before, behind, split, lies⟩ := layout.mem_lies member
  exact entryOf_piece lies split

theorem settle_bodies (isFirst : Bool) (distance : Nat) (parts : List Piece) :
    List.Forall₂ (fun piece other =>
        other.body = newBody (piece, (piece.treat isFile options directory).value)) parts
      (settle isFile options directory isFirst distance parts) := by
  induction parts generalizing isFirst distance with
  | nil => exact .nil
  | cons piece others ih => exact .cons rfl (ih ..)

/-- The pieces of the text that a module has after it is relinked have the bodies that those of the old one
become. -/
theorem Layout.relinked (layout : Layout 0 text parts tail)
    (split : Statement.split text = .ok (statementsOf parts)) :
    let outcome := Outcome.ofPieces options (treatedPieces isFile options directory parts) tail
    ∃ others, Layout 0 (outcome.text.getD text) others tail ∧
      Statement.split (outcome.text.getD text) = .ok (statementsOf others) ∧
      List.Forall₂ (fun piece other =>
        other.body = newBody (piece, (piece.treat isFile options directory).value)) parts others := by
  intro outcome
  cases changed : outcome.text with
  | none =>
      refine ⟨parts, layout, split, List.forall₂_same.mpr fun piece member => ?_⟩
      have unchanged := @ofPieces_isSome options (treatedPieces isFile options directory parts) tail
      rw [show (Outcome.ofPieces options (treatedPieces isFile options directory parts) tail).text = none
        from changed] at unchanged
      simp only [treatedPieces, List.map_map, List.any_map] at unchanged
      have kept := List.any_eq_false.mp unchanged.symm piece member
      simp only [Function.comp, Option.not_isSome_iff_eq_none] at kept
      exact (newBody_kept isFile options directory kept).symm
  | some out =>
      have whole := ofPieces_text options changed
      obtain ⟨otherLayout, -, -⟩ := @Layout.settles isFile options directory _ _ _ _ layout true 0
      have again := @Layout.splits isFile options directory _ _ _ layout split
      rw [← settle_statements, ← whole] at again
      rw [← whole] at otherLayout
      exact ⟨_, otherLayout, again, settle_bodies true 0 parts⟩

theorem Layout.accounted (layout : Layout 0 text parts tail)
    (split : Statement.split text = .ok (statementsOf parts)) :
    Accounted isFile options directory text (statementsOf parts)
      (Outcome.ofPieces options (treatedPieces isFile options directory parts) tail) := by
  have entries := @Layout.filterMap_entryOf isFile options directory _ _ _ layout
  have entered : ∀ statement ∈ statementsOf parts,
      (entryOf isFile options directory text statement).isSome = statement.request.isSome := by
    intro statement member
    obtain ⟨piece, isPiece, rfl⟩ := List.mem_map.mp member
    obtain ⟨before, behind, split, lies⟩ := layout.mem_lies isPiece
    exact entryOf_isSome lies split
  have requests : (Outcome.ofPieces options (treatedPieces isFile options directory parts) tail).requests =
      ((statementsOf parts).filterMap (entryOf isFile options directory text)).filterMap
        Entry.request? := by
    rw [entries, List.filterMap_filterMap]
    exact congrArg (List.filterMap · _) (funext Treatment.request?_eq)
  have anomalies : (Outcome.ofPieces options (treatedPieces isFile options directory parts) tail).anomalies =
      ((statementsOf parts).filterMap (entryOf isFile options directory text)).filterMap
        Entry.anomaly? := by
    rw [entries, List.filterMap_filterMap]
    exact congrArg (List.filterMap · _) (funext Treatment.anomaly?_eq)
  refine ⟨entered, requests, anomalies, ?_, ?_, ?_, ?_⟩
  · rw [requests, anomalies, Entry.length_filterMap, List.length_filterMap_eq_countP]
    exact List.countP_congr fun statement member => by rw [entered statement member]
  · obtain ⟨others, otherLayout, again, bodies⟩ := @Layout.relinked isFile options directory _ _ _ layout split
    refine ⟨_, again, ?_⟩
    rw [statementsOf, statementsOf, List.forall₂_map_left_iff, List.forall₂_map_right_iff]
    have becomes := fun piece (member : piece ∈ parts) =>
      @Layout.respelled_mem isFile options directory _ _ _ layout piece member
    have stand := (List.forall₂_and_left _ _).mpr ⟨fun other (member : other ∈ others) =>
      otherLayout.slice?_mem member, bodies.flip⟩
    refine ((List.forall₂_and_left _ _).mpr ⟨becomes, stand.flip⟩).imp ?_
    rintro piece other ⟨becomes, stands, body⟩
    exact ⟨_, becomes, body ▸ stands⟩
  · exact layout.replacedRequests_eq
  · intro statement member anomaly odd
    rw [respelled, odd]
    split
    · rename_i isReplaced
      cases isReplaced
    · rfl

end Module

/-- Every request of a text that can be split is entered into the outcome once, in source order, whatever
the other statements are. It is an anomaly if its specifier is escaped or blank, and its statement stays as it
is; otherwise it is resolved by itself. The requests that are replaced are the statements that change. -/
theorem relinkText_accounts (isFile : Path → Bool) (options : Options) (file : Path) {text : Text}
    {found : List Statement} (split : Statement.split text = .ok found) :
    ∃ relinking, relinkText isFile options file text = .ok relinking ∧
      Accounted isFile options (file.parent?.getD ⟨[]⟩) text found relinking.outcome := by
  obtain ⟨parts, tail, layout, rfl⟩ := layout_of_split split
  refine ⟨relinkStatements isFile options file text (statementsOf parts), ?_, ?_⟩
  · rw [relinkText, split]
    rfl
  · rw [relinkStatements_outcome isFile options file layout]
    exact layout.accounted split

/-- A request that gets an extension between two that cannot be handled, and a statement without one. -/
def mixedText : Text := "import ' ';import './b';import 'a\\n';x".toList

def mixedStatements : List Statement :=
  [⟨some ⟨.sideEffect, ⟨8, 9⟩⟩, ⟨0, 11⟩⟩, ⟨some ⟨.sideEffect, ⟨19, 22⟩⟩, ⟨11, 24⟩⟩,
    ⟨some ⟨.sideEffect, ⟨32, 35⟩⟩, ⟨24, 37⟩⟩, ⟨none, ⟨37, 38⟩⟩]

theorem relinkText_accounts_mixed :
    Statement.split mixedText = .ok mixedStatements ∧
      ∃ relinking, relinkText (fun _ => true) (.standard .mjs) ⟨"m.mjs".toList⟩ mixedText = .ok relinking ∧
        Accounted (fun _ => true) (.standard .mjs) ((Path.mk "m.mjs".toList).parent?.getD ⟨[]⟩) mixedText
          mixedStatements relinking.outcome :=
  have split : Statement.split mixedText = .ok mixedStatements := by decide +kernel
  ⟨split, relinkText_accounts (fun _ => true) (.standard .mjs) ⟨"m.mjs".toList⟩ split⟩

end Relink
