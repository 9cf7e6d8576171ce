import Relink.Proofs.Scan.Preamble
import Relink.Proofs.Splice

/-!
# Outcomes of modules

A module fails to be relinked only where it cannot be split. Otherwise it gets a new text if a specifier
is replaced: its old text with the suffixes of specifiers and with line breaks put in.
-/

set_option autoImplicit false

namespace Relink

/-! ## Requests and insertions -/

/-- What is put in behind the specifier of a request. -/
def ResolvedRequest.insertion? (request : ResolvedRequest) : Option Insertion :=
  request.resolution.replacement?.map (.suffix request.specifier)

section Piece

variable {isFile : Path → Bool} {options : Options} {directory : Path}

theorem treat_newText_isSome (piece : Piece) :
    (piece.treat isFile options directory).value.newText?.isSome =
      (piece.treat isFile options directory).value.request?.any (·.resolution.isReplaced) := by
  unfold Piece.treat
  split
  · rfl
  split
  · rfl
  · simp only [Probed.map, Treatment.newText?, Treatment.request?, Option.isSome_map, Option.any_some]
    cases (Resolution.ofSpecifier isFile options directory _).value <;> rfl

theorem suffixIn_request {text before behind : Text} {piece : Piece} (lies : piece.LiesAt before.size)
    (split : text = before ++ piece.gap ++ piece.body ++ behind) :
    (suffixIn isFile options directory text piece.statement).map Prod.snd =
      ((piece.treat isFile options directory).value.request?.bind
        ResolvedRequest.insertion?).toList := by
  have same := @treat_newText_isSome isFile options directory piece
  cases changed : (piece.treat isFile options directory).value.newText? with
  | none =>
      rw [suffixIn_kept lies split changed]
      rw [changed] at same
      cases requested : (piece.treat isFile options directory).value.request? with
      | none => rfl
      | some request =>
          rw [requested] at same
          have kept : request.resolution.isReplaced = false := same.symm
          simp only [Option.bind_some, ResolvedRequest.insertion?]
          cases resolution : request.resolution with
          | replaced replacement candidate =>
              rw [resolution] at kept
              cases kept
          | _ => rfl
  | some newText =>
      obtain ⟨request, front, quote, content, back, replacement, replaced⟩ :=
        lies.replaced isFile options directory changed
      obtain ⟨candidate, resolved⟩ := replaced.resolved
      rw [suffixIn_replaced lies split replaced, replaced.treated, resolved]
      rfl

end Piece

/-! ## Outcomes -/

section Module

variable {isFile : Path → Bool} {options : Options} {directory : Path}

theorem filter_breakBefore (previous : Option Nat) (start : Nat) :
    (breakBefore options previous start).filter (·.2.isSuffix) = [] := by
  unfold breakBefore
  split <;> rfl

theorem filter_suffixIn (text : Text) (statement : Statement) :
    (suffixIn isFile options directory text statement).filter (·.2.isSuffix) =
      suffixIn isFile options directory text statement := by
  unfold suffixIn
  split
  · rfl
  split
  · rfl
  split
  · rfl
  split <;> rfl

abbrev requestsOf (treated : List (Piece × Treatment)) : List ResolvedRequest :=
  (treated.map Prod.snd).filterMap Treatment.request?

theorem filterMap_requestsOf_cons (entry : Piece × Treatment) (rest : List (Piece × Treatment))
    {β : Type} (f : ResolvedRequest → Option β) :
    (requestsOf (entry :: rest)).filterMap f =
      (entry.2.request?.bind f).toList ++ (requestsOf rest).filterMap f := by
  cases request : entry.2.request? with
  | none => simp [requestsOf, request]
  | some value =>
      cases result : f value with
      | none => simp [requestsOf, request, result]
      | some _ => simp [requestsOf, request, result]

/-- The suffixes that are put in are those of the requests, in their order. -/
theorem Layout.insertions_suffix {offset : Nat} {rest tail : Text} {parts : List Piece}
    (layout : Layout offset rest parts tail) {text before : Text} (split : text = before ++ rest)
    (size : before.size = offset) (previous : Option Nat) :
    ((insertions isFile options directory text previous (statementsOf parts)).filter
        (·.2.isSuffix)).map Prod.snd =
      (requestsOf (treatedPieces isFile options directory parts)).filterMap
        ResolvedRequest.insertion? := by
  induction layout generalizing before previous with
  | nil => rfl
  | @cons offset piece rest tail others lies layout ih =>
      subst size
      have goesOn : text = before ++ piece.gap ++ piece.body ++ rest := by
        rw [split]
        simp only [List.append_assoc]
      have later := ih goesOn (by rw [Text.size_append, Text.size_append])
        (some piece.statement.span.stop)
      have own := @suffixIn_request isFile options directory _ _ _ _ lies goesOn
      rw [show treatedPieces isFile options directory (piece :: others) =
          (piece, (piece.treat isFile options directory).value) ::
            treatedPieces isFile options directory others from rfl, filterMap_requestsOf_cons,
        ← own, ← later]
      simp only [statementsOf, List.map_cons, insertions, List.filter_append, filter_breakBefore,
        filter_suffixIn, List.map_append, List.nil_append]

theorem ofPieces_isSome (treated : List (Piece × Treatment)) (tail : Text) :
    (Outcome.ofPieces options treated tail).text.isSome =
      (treated.map Prod.snd).any (·.newText?.isSome) := by
  simp only [Outcome.ofPieces]
  cases changed : (treated.map Prod.snd).any (·.newText?.isSome) <;> rfl

/-- A module gets a new text exactly if a specifier of it is replaced. -/
theorem ofPieces_changed (parts : List Piece) (tail : Text) :
    let outcome := Outcome.ofPieces options (treatedPieces isFile options directory parts) tail
    outcome.text.isSome = true ↔ 0 < outcome.replacedRequests := by
  intro outcome
  have changed : outcome.text.isSome = true ↔
      ∃ piece ∈ parts, (piece.treat isFile options directory).value.newText?.isSome = true := by
    rw [ofPieces_isSome]
    simp [treatedPieces]
  have replaced : 0 < outcome.replacedRequests ↔
      ∃ piece ∈ parts, ((piece.treat isFile options directory).value.request?.any
        (·.resolution.isReplaced)) = true := by
    simp only [outcome, Outcome.ofPieces, treatedPieces, Outcome.replacedRequests,
      List.countP_pos_iff, List.mem_filterMap, List.mem_map, Option.any_eq_true]
    constructor
    · rintro ⟨request, ⟨treatment, ⟨entry, ⟨piece, member, rfl⟩, rfl⟩, isRequest⟩, isReplaced⟩
      exact ⟨piece, member, request, isRequest, isReplaced⟩
    · rintro ⟨piece, member, request, isRequest, isReplaced⟩
      exact ⟨request, ⟨_, ⟨_, ⟨piece, member, rfl⟩, rfl⟩, isRequest⟩, isReplaced⟩
  rw [changed, replaced]
  simp only [treat_newText_isSome]

theorem mem_insertions {text : Text} {previous : Option Nat} {found : List Statement}
    {offset : Nat} {specifier replacement : Text}
    (member : (offset, .suffix specifier replacement) ∈
      insertions isFile options directory text previous found) :
    ∃ suffix ∈ Specifier.suffixes options.extension.spelling specifier,
      replacement = specifier ++ suffix := by
  induction found generalizing previous with
  | nil => cases member
  | cons statement others ih =>
      simp only [insertions, List.mem_append] at member
      rcases member with (isBreak | own) | later
      · unfold breakBefore at isBreak
        split at isBreak <;> simp at isBreak
      · unfold suffixIn at own
        split at own
        · cases own
        split at own
        · cases own
        split at own
        · cases own
        split at own
        · rename_i resolved
          cases List.mem_singleton.mp own
          exact (Resolution.replaces_of_ofSpecifier resolved).extends_
        · cases own
      · exact ih later

end Module

/-! ## Modules -/

section Relinked

variable (isFile : Path → Bool) (options : Options) (file : Path) (text : Text)

abbrev moduleInsertions (found : List Statement) : List (Nat × Insertion) :=
  insertions isFile options (file.parent?.getD ⟨[]⟩) text none found

/-- An outcome of a module with the statements `found`: its new text, if any, is the old one with the
suffixes of the specifiers that are replaced and with line breaks put in, from which it is found again. -/
structure Spliced (found : List Statement) (outcome : Outcome) : Prop where
  changed : outcome.text.isSome = true ↔ 0 < outcome.replacedRequests
  requests : ((moduleInsertions isFile options file text found).filter (·.2.isSuffix)).map Prod.snd =
    outcome.requests.filterMap ResolvedRequest.insertion?
  extended : ∀ offset specifier replacement,
    (offset, .suffix specifier replacement) ∈ moduleInsertions isFile options file text found →
      ∃ suffix ∈ Specifier.suffixes options.extension.spelling specifier,
        suffix ≠ [] ∧ replacement = specifier ++ suffix
  inserted : ∀ out, outcome.text = some out →
    Inserts 0 (moduleInsertions isFile options file text found) text out
  recovered : ∀ out other, outcome.text = some out →
    Inserts 0 (moduleInsertions isFile options file text found) other out → other = text

variable {text}

theorem relinkStatements_outcome {parts : List Piece} {tail : Text} (layout : Layout 0 text parts tail) :
    (relinkStatements isFile options file text (statementsOf parts)).outcome =
      .ofPieces options (treatedPieces isFile options (file.parent?.getD ⟨[]⟩) parts) tail := by
  simp only [relinkStatements, layout.pieces, treatedPieces, List.map_map]
  rfl

theorem ofPieces_text {treated : List (Piece × Treatment)} {tail out : Text}
    (is : (Outcome.ofPieces options treated tail).text = some out) :
    out = reassemble options true treated ++ tail := by
  simp only [Outcome.ofPieces, Option.ite_none_right_eq_some, Option.some.injEq] at is
  exact is.2.symm

theorem Layout.spliced {parts : List Piece} {tail : Text} (layout : Layout 0 text parts tail) :
    Spliced isFile options file text (statementsOf parts)
      (relinkStatements isFile options file text (statementsOf parts)).outcome := by
  have inserted : ∀ out,
      (relinkStatements isFile options file text (statementsOf parts)).outcome.text = some out →
        Inserts 0 (moduleInsertions isFile options file text (statementsOf parts)) text out := by
    intro out is
    rw [relinkStatements_outcome isFile options file layout] at is
    rw [ofPieces_text options is]
    exact layout.inserts (List.nil_append text).symm Text.size_nil rfl
  refine ⟨?_, ?_, ?_, inserted, ?_⟩
  · rw [relinkStatements_outcome isFile options file layout]
    exact ofPieces_changed parts tail
  · rw [relinkStatements_outcome isFile options file layout]
    exact layout.insertions_suffix (List.nil_append text).symm Text.size_nil none
  · intro offset specifier replacement member
    obtain ⟨suffix, isSuffix, rfl⟩ := mem_insertions member
    exact ⟨suffix, isSuffix, Specifier.suffix_ne_nil isSuffix, rfl⟩
  · intro out other is again
    exact again.text_unique (inserted out is)

theorem insertions_minify (directory : Path) (previous : Option Nat) (found : List Statement) :
    insertions isFile { options with minify := true } directory text previous found =
      (insertions isFile { options with minify := false } directory text previous found).filter
        (·.2.isSuffix) := by
  induction found generalizing previous with
  | nil => rfl
  | cons statement others ih =>
      have none_ : breakBefore { options with minify := true } previous statement.span.start = [] := by
        simp [breakBefore]
      have same : suffixIn isFile { options with minify := true } directory text statement =
        suffixIn isFile { options with minify := false } directory text statement := rfl
      simp only [insertions, List.filter_append, filter_breakBefore, filter_suffixIn, none_, same, ih]

/-- How the outcomes of a module differ with and without line breaks. -/
structure SplicedAlike (found : List Statement) (dense loose : Outcome) : Prop where
  requests : dense.requests = loose.requests
  anomalies : dense.anomalies = loose.anomalies
  insertions : moduleInsertions isFile { options with minify := true } file text found =
    (moduleInsertions isFile { options with minify := false } file text found).filter (·.2.isSuffix)
  changed : dense.text.isSome = loose.text.isSome
  texts : ∀ short long, dense.text = some short → loose.text = some long →
    ∃ breaks, (∀ entry ∈ breaks, entry.2 = .lineBreak) ∧ Inserts 0 breaks short long

theorem Layout.splicedAlike {parts : List Piece} {tail : Text} (layout : Layout 0 text parts tail) :
    @SplicedAlike isFile options file text (statementsOf parts)
      (relinkStatements isFile { options with minify := true } file text (statementsOf parts)).outcome
      (relinkStatements isFile { options with minify := false } file text
        (statementsOf parts)).outcome := by
  have filtered := @insertions_minify isFile options text (file.parent?.getD ⟨[]⟩) none
    (statementsOf parts)
  refine ⟨rfl, rfl, filtered, ?_, ?_⟩
  · rw [relinkStatements_outcome isFile _ file layout, relinkStatements_outcome isFile _ file layout,
      ofPieces_isSome, ofPieces_isSome]
    rfl
  · intro short long isShort isLong
    have dense := (layout.spliced isFile { options with minify := true } file).inserted short isShort
    have loose := (layout.spliced isFile { options with minify := false } file).inserted long isLong
    obtain ⟨alone, inserts, breaksFrom⟩ := loose.suffixes_alone
    unfold moduleInsertions at dense inserts
    rw [filtered] at dense
    rw [dense.out_unique inserts]
    exact breaksFrom 0

/-- A module is not relinked exactly if it cannot be split. Otherwise nothing becomes of its text but
that suffixes and line breaks are put in. -/
theorem relinkText_splices (text : Text) :
    match Statement.split text with
    | .error fault =>
      relinkText isFile options file text = .error fault ∧
        ∀ (Files : Type) [ModuleFiles Files] (files : Files),
          ModuleFiles.read files file = .ok text →
            (relinkModule options files file).result = .error (.unparsable file fault)
    | .ok found =>
      ∃ relinking, relinkText isFile options file text = .ok relinking ∧
        Spliced isFile options file text found relinking.outcome ∧
        ∃ dense loose, relinkText isFile { options with minify := true } file text = .ok dense ∧
          relinkText isFile { options with minify := false } file text = .ok loose ∧
          @SplicedAlike isFile options file text found dense.outcome loose.outcome := by
  cases split : Statement.split text with
  | error fault =>
      refine ⟨by rw [relinkText, split]; rfl, fun Files _ files isText => ?_⟩
      have failed : relinkText (ModuleFiles.isFile files) options file text = .error fault := by
        rw [relinkText, split]
        rfl
      simp only [relinkModule, isText, failed]
  | ok found =>
      obtain ⟨parts, tail, layout, rfl⟩ := layout_of_split split
      have relinked : ∀ options, relinkText isFile options file text =
          .ok (relinkStatements isFile options file text (statementsOf parts)) := by
        intro options
        rw [relinkText, split]
        rfl
      exact ⟨_, relinked options, layout.spliced isFile options file, _, _, relinked _, relinked _,
        layout.splicedAlike isFile options file⟩

end Relinked

end Relink
