import Relink.Proofs.Outcome

/-!
# Relinking a new text

In the new text of a module, every replaced specifier is already resolved, and every other request is
resolved as it was. So a second relinking changes nothing.
-/

set_option autoImplicit false

namespace Relink

/-- What a resolved request is in the new text: its replacement is in its place. -/
def ResolvedRequest.settled (request : ResolvedRequest) : ResolvedRequest :=
  match request.resolution with
  | .replaced replacement _ => ⟨replacement, .alreadyResolved⟩
  | _ => request

theorem ResolvedRequest.settled_of_kept {request : ResolvedRequest}
    (kept : request.resolution.isReplaced = false) : request.settled = request := by
  unfold settled
  cases resolution : request.resolution with
  | replaced =>
      rw [resolution] at kept
      cases kept
  | _ => rfl

theorem ResolvedRequest.map_settled {requests : List ResolvedRequest}
    (kept : ∀ request ∈ requests, request.resolution.isReplaced = false) :
    requests.map settled = requests := by
  rw [List.map_congr_left fun request member => settled_of_kept (kept request member),
    List.map_id']

/-! ## Requests of the new text -/

section Quoted

variable {statement : Statement} {body front content back : Text} {request : ModuleRequest}
  {quote : Char}

theorem QuotedAt.shift (quoted : QuotedAt statement body request front quote content back)
    (distance : Nat) :
    QuotedAt (statement.shift distance) body
      { request with specifier := request.specifier.shift distance } front quote content back where
  requests := by simp only [Statement.shift, quoted.requests, Option.map_some]
  isQuote := quoted.isQuote
  body := quoted.body
  isContent := quoted.isContent
  specifier := by
    rw [quoted.specifier]
    simp only [Statement.shift, Span.shift, Span.mk.injEq]
    omega

theorem QuotedAt.grow (quoted : QuotedAt statement body request front quote content back)
    {otherContent : Text} (is : Token.IsContent quote otherContent) {growth : Nat}
    (size : otherContent.size = content.size + growth) :
    QuotedAt (statement.grow growth) (front ++ Token.quoted quote otherContent ++ back)
      { request with specifier :=
          ⟨request.specifier.start, request.specifier.stop + growth⟩ } front quote otherContent back where
  requests := by simp only [Statement.grow, quoted.requests, Option.map_some]
  isQuote := quoted.isQuote
  body := rfl
  isContent := is
  specifier := by
    rw [quoted.specifier]
    simp only [Statement.grow, Span.mk.injEq, true_and]
    omega

end Quoted

theorem Token.IsPlain.isContent {quote : Char} {content : Text} (plain : IsPlain quote content) :
    IsContent quote content := by
  have absent : ∀ d, (∀ c ∈ content, c ≠ d) → content.contains d = false := by
    intro d none
    cases present : content.contains d with
    | false => rfl
    | true => exact absurd rfl (none d (List.contains_iff_mem.mp present))
  have noEscape := absent '\\' fun c member => (plain c member).1
  constructor
  · rw [hasUnescaped_eq_contains noEscape]
    exact absent quote fun c member => (plain c member).2.2
  · rw [hasUnescaped_eq_contains noEscape]
    exact absent '\n' fun c member => (plain c member).2.1

theorem Token.IsPlain.noEscape {quote : Char} {content : Text} (plain : IsPlain quote content) :
    content.contains '\\' = false := by
  cases present : content.contains '\\' with
  | false => rfl
  | true => exact absurd rfl (plain _ (List.contains_iff_mem.mp present)).1

/-! ## Pieces of the new text -/

section Settle

variable (isFile : Path → Bool) (options : Options) (directory : Path)

/-- A piece as it stands in the new text, `distance` behind, after `gap`. -/
def Piece.settle (gap : Text) (distance : Nat) (piece : Piece) : Piece :=
  let entry := (piece, (piece.treat isFile options directory).value)
  ⟨gap, newBody entry, (piece.statement.grow (growth entry)).shift distance⟩

/-- The pieces of the new text of pieces, where `distance` is how much was put before them. -/
def settle : Bool → Nat → List Piece → List Piece
  | _, _, [] => []
  | isFirst, distance, piece :: others =>
    let space := lineBreak options isFirst piece.gap
    let here := distance + space.size
    piece.settle isFile options directory (space ++ piece.gap) here ::
      settle false (here + growth (piece, (piece.treat isFile options directory).value)) others

/-- The piece in the place of one whose request, if there is one, is settled. -/
structure Piece.Settles (offset : Nat) (piece new : Piece) : Prop where
  lies : new.LiesAt offset
  unchanged : (new.treat isFile options directory).value.newText? = none
  request : (new.treat isFile options directory).value.request? =
    (piece.treat isFile options directory).value.request?.map ResolvedRequest.settled

variable {isFile options directory} {offset otherOffset distance : Nat} {piece : Piece} {gap : Text}

theorem Piece.settle_kept (kept : (piece.treat isFile options directory).value.newText? = none) :
    piece.settle isFile options directory gap distance =
      ⟨gap, piece.body, piece.statement.shift distance⟩ := by
  have same := newBody_kept isFile options directory kept
  have noGrowth : growth (piece, (piece.treat isFile options directory).value) = 0 := by
    simp only [growth, same, Nat.sub_self]
  rw [settle, same, noGrowth, Statement.grow_zero]

theorem treat_settled (kept : (piece.treat isFile options directory).value.newText? = none) :
    (piece.treat isFile options directory).value.request?.map ResolvedRequest.settled =
      (piece.treat isFile options directory).value.request? := by
  have same := @treat_newText_isSome isFile options directory piece
  cases requested : (piece.treat isFile options directory).value.request? with
  | none => rfl
  | some request =>
      rw [kept, requested] at same
      rw [Option.map_some, ResolvedRequest.settled_of_kept same.symm]

theorem Piece.LiesAt.settles_kept (lies : piece.LiesAt offset)
    (place : otherOffset + gap.size = offset + piece.gap.size + distance)
    (kept : (piece.treat isFile options directory).value.newText? = none) :
    piece.Settles isFile options directory otherOffset
      (piece.settle isFile options directory gap distance) := by
  rw [settle_kept kept]
  have otherLies : LiesAt otherOffset ⟨gap, piece.body, piece.statement.shift distance⟩ := by
    refine ⟨?_, lies.nonempty, ?_⟩
    · simp only [Statement.shift, Span.shift, lies.span, Span.mk.injEq]
      omega
    · intro request isRequest
      obtain ⟨own, requests, -⟩ := Option.map_eq_some_iff.mp isRequest
      obtain ⟨front, quote, content, back, quoted⟩ := lies.quoted own requests
      have moved := quoted.shift distance
      rw [moved.requests] at isRequest
      cases isRequest
      exact ⟨front, quote, content, back, moved⟩
  suffices same :
      (Piece.treat isFile options directory
        ⟨gap, piece.body, piece.statement.shift distance⟩).value.newText? = none ∧
      (Piece.treat isFile options directory
        ⟨gap, piece.body, piece.statement.shift distance⟩).value.request? =
          (piece.treat isFile options directory).value.request? by
    exact ⟨otherLies, same.1, same.2.trans (treat_settled kept).symm⟩
  cases requests : piece.statement.request with
  | none =>
      have others : (piece.statement.shift distance).request = none := by
        simp only [Statement.shift, requests, Option.map_none]
      rw [piece.treat_copied isFile options directory requests,
        Piece.treat_copied isFile options directory others]
      exact ⟨rfl, rfl⟩
  | some request =>
      obtain ⟨front, quote, content, back, quoted⟩ := lies.quoted request requests
      have treated := quoted.treat isFile options directory lies
      have again := (quoted.shift distance).treat isFile options directory otherLies
      rw [treated] at kept ⊢
      rw [again]
      by_cases escaped : content.contains '\\' = true
      · rw [if_pos escaped, if_pos escaped]
        exact ⟨rfl, rfl⟩
      by_cases empty : content.trim.isEmpty = true
      · rw [if_neg escaped, if_neg escaped, if_pos empty, if_pos empty]
        exact ⟨rfl, rfl⟩
      · rw [if_neg escaped, if_neg empty] at kept ⊢
        rw [if_neg escaped, if_neg empty]
        exact ⟨kept, rfl⟩

section Replaced

variable {request : ModuleRequest} {front content back replacement : Text} {quote : Char} (lies : piece.LiesAt offset)

include lies

/-- Where a specifier that is replaced stands in the new text. -/
theorem Piece.Replaced.quoted_settle
    (replaced : piece.Replaced isFile options directory request front quote content back replacement) (gap : Text)
    (distance : Nat) :
    ∃ settled, QuotedAt (piece.settle isFile options directory gap distance).statement
      (piece.settle isFile options directory gap distance).body settled front quote
      (content.leadingBlanks ++ replacement ++ content.trailingBlanks) back := by
  have body := replaced.newBody
  have longer := size_sublist ((lies.respecified isFile options directory).sublist lies)
  have ownSize := congrArg Text.size replaced.quoted.body
  have newSize := congrArg Text.size body
  simp only [Text.size_append, size_quoted replaced.quoted.isQuote] at ownSize newSize
  have size : (content.leadingBlanks ++ replacement ++ content.trailingBlanks).size =
      content.size + growth (piece, (piece.treat isFile options directory).value) := by
    simp only [growth, Text.size_append]
    omega
  have quoted := (replaced.quoted.grow replaced.isPlain.isContent size).shift distance
  rw [← body] at quoted
  exact ⟨_, quoted⟩

/-- The piece in the place of one that has a request. -/
theorem Piece.LiesAt.settle_quoted (place : otherOffset + gap.size = offset + piece.gap.size + distance)
    {settled : ModuleRequest} {newContent : Text}
    (quoted : QuotedAt (piece.settle isFile options directory gap distance).statement
      (piece.settle isFile options directory gap distance).body settled front quote newContent back) :
    (piece.settle isFile options directory gap distance).LiesAt otherOffset := by
  have sublist := (lies.respecified isFile options directory).sublist lies
  have longer := size_sublist sublist
  constructor
  · simp only [settle, Statement.shift, Statement.grow, Span.shift, lies.span, growth, Span.mk.injEq]
    omega
  · intro nothing
    have nothing : newBody (piece, (piece.treat isFile options directory).value) = [] := nothing
    rw [nothing] at sublist
    exact lies.nonempty (List.sublist_nil.mp sublist)
  · intro other isRequest
    cases quoted.requests.symm.trans isRequest
    exact ⟨front, quote, newContent, back, quoted⟩

/-- In the place of a request that is replaced stands one that is already resolved. -/
theorem Piece.LiesAt.settles_replaced (place : otherOffset + gap.size = offset + piece.gap.size + distance)
    (replaced : piece.Replaced isFile options directory request front quote content back replacement) :
    piece.Settles isFile options directory otherOffset
      (piece.settle isFile options directory gap distance) := by
  obtain ⟨settled, quoted⟩ := Piece.Replaced.quoted_settle lies replaced gap distance
  have otherLies := lies.settle_quoted place quoted
  obtain ⟨suffix, isSuffix, extends_⟩ := replaced.replaces.extends_
  have nonempty : replacement ≠ [] := by
    rw [extends_]
    exact fun nothing => Specifier.suffix_ne_nil isSuffix (List.append_eq_nil_iff.mp nothing).2
  have trim : (content.leadingBlanks ++ replacement ++ content.trailingBlanks).trim = replacement :=
    Text.trim_padded content.leadingBlanks_all content.trailingBlanks_all replaced.isTrimmed nonempty
  have notEmpty : ¬ replacement.isEmpty = true := by rwa [List.isEmpty_iff]
  have resolved := replaced.replaces.alreadyResolved isFile directory
  have treated := QuotedAt.treat isFile options directory quoted otherLies
  rw [if_neg (by rw [replaced.isPlain.noEscape]; exact Bool.false_ne_true), trim, if_neg notEmpty,
    resolutionOf, resolved] at treated
  obtain ⟨candidate, wasReplaced⟩ := replaced.resolved
  refine ⟨otherLies, ?_, ?_⟩
  · rw [treated]
    rfl
  · rw [treated, replaced.treated, wasReplaced]
    rfl

end Replaced

theorem Piece.LiesAt.settles (lies : piece.LiesAt offset)
    (place : otherOffset + gap.size = offset + piece.gap.size + distance) :
    piece.Settles isFile options directory otherOffset
      (piece.settle isFile options directory gap distance) := by
  cases changed : (piece.treat isFile options directory).value.newText? with
  | none => exact lies.settles_kept place changed
  | some newText =>
      obtain ⟨request, front, quote, content, back, replacement, replaced⟩ :=
        lies.replaced isFile options directory changed
      exact lies.settles_replaced place replaced

/-! ## Layout of the new text -/

theorem settle_statements (isFirst : Bool) (distance : Nat) (parts : List Piece) :
    statementsOf (settle isFile options directory isFirst distance parts) =
      relocate options isFirst distance (treatedPieces isFile options directory parts) := by
  induction parts generalizing isFirst distance with
  | nil => rfl
  | cons piece others ih =>
      have later := ih false (distance + (lineBreak options isFirst piece.gap).size +
        growth (piece, (piece.treat isFile options directory).value))
      simp only [statementsOf, settle, Piece.settle, List.map_cons, treatedPieces, relocate] at later ⊢
      rw [later]

/-- The pieces of a text and those of the text put together again lie alike, and every request is
settled. -/
theorem Layout.settles {rest tail : Text} {parts : List Piece}
    (layout : Layout offset rest parts tail) (isFirst : Bool) (distance : Nat) :
    Layout (offset + distance)
        (reassemble options isFirst (treatedPieces isFile options directory parts) ++ tail)
        (settle isFile options directory isFirst distance parts) tail ∧
      (∀ piece ∈ settle isFile options directory isFirst distance parts,
        (piece.treat isFile options directory).value.newText? = none) ∧
      requestsOf (treatedPieces isFile options directory
          (settle isFile options directory isFirst distance parts)) =
        (requestsOf (treatedPieces isFile options directory parts)).map ResolvedRequest.settled := by
  induction layout generalizing isFirst distance with
  | nil offset tail =>
      refine ⟨.nil _ tail, ?_, rfl⟩
      intro piece member
      cases member
  | @cons offset piece rest tail others lies layout ih =>
      let space := lineBreak options isFirst piece.gap
      let grown := growth (piece, (piece.treat isFile options directory).value)
      obtain ⟨laterLayout, unchanged, requests⟩ := ih false (distance + space.size + grown)
      have settles : piece.Settles isFile options directory (offset + distance)
          (piece.settle isFile options directory (space ++ piece.gap) (distance + space.size)) := by
        apply lies.settles
        rw [Text.size_append]
        omega
      have longer := size_sublist ((lies.respecified isFile options directory).sublist lies)
      refine ⟨?_, ?_, ?_⟩
      · have next : offset + piece.gap.size + piece.body.size + (distance + space.size + grown) =
            offset + distance + (space ++ piece.gap).size +
              (newBody (piece, (piece.treat isFile options directory).value)).size := by
          simp only [Text.size_append, grown, growth]
          omega
        rw [next] at laterLayout
        have whole := Layout.cons settles.lies laterLayout
        simpa only [treatedPieces, List.map_cons, reassemble, List.append_assoc, Piece.settle, settle,
          space, grown, newBody] using whole
      · intro new member
        rcases List.mem_cons.mp member with rfl | later
        · exact settles.unchanged
        · exact unchanged new later
      · have own := settles.request
        simp only [requestsOf, treatedPieces, settle, List.map_cons, List.filterMap_cons] at requests ⊢
        rw [own]
        cases (piece.treat isFile options directory).value.request? with
        | none => exact requests
        | some request => exact congrArg (request.settled :: ·) requests

end Settle

/-! ## Modules -/

theorem ofPieces_unchanged {isFile : Path → Bool} {options : Options} {directory : Path}
    {parts : List Piece}
    (unchanged : ∀ piece ∈ parts, (piece.treat isFile options directory).value.newText? = none)
    (tail : Text) :
    (Outcome.ofPieces options (treatedPieces isFile options directory parts) tail).text = none := by
  apply Option.not_isSome_iff_eq_none.mp
  rw [ofPieces_isSome]
  simp only [treatedPieces, List.map_map, List.any_map, List.any_eq_true]
  rintro ⟨piece, member, changed⟩
  simp only [Function.comp, unchanged piece member] at changed
  cases changed

theorem ofPieces_kept {isFile : Path → Bool} {options : Options} {directory : Path}
    {parts : List Piece} {tail : Text}
    (kept : (Outcome.ofPieces options (treatedPieces isFile options directory parts) tail).text = none) :
    ∀ request ∈ (Outcome.ofPieces options (treatedPieces isFile options directory parts) tail).requests,
      request.resolution.isReplaced = false := by
  have changed := @ofPieces_changed isFile options directory parts tail
  simp only [kept, Option.isSome_none, Bool.false_eq_true, false_iff, Nat.not_lt,
    Nat.le_zero_eq, Outcome.replacedRequests, List.countP_eq_zero] at changed
  intro request member
  exact Bool.eq_false_iff.mpr (changed request member)

abbrev outcomeOf (isFile : Path → Bool) (options : Options) (file : Path) (text : Text) :
    Except SyntaxFault Outcome :=
  (relinkText isFile options file text).map (·.outcome)

section Module

variable {isFile : Path → Bool} {options : Options} {file : Path} {text : Text} {outcome : Outcome}

theorem outcomeOf_split {found : List Statement} (split : Statement.split text = .ok found) :
    outcomeOf isFile options file text =
      .ok (relinkStatements isFile options file text found).outcome := by
  rw [outcomeOf, relinkText, split]
  rfl

theorem outcomeOf_error {fault : SyntaxFault} (split : Statement.split text = .error fault) :
    outcomeOf isFile options file text = .error fault := by
  rw [outcomeOf, relinkText, split]
  rfl

theorem outcomeOf_eq_ok (is : outcomeOf isFile options file text = .ok outcome) :
    ∃ found, Statement.split text = .ok found ∧
      outcome = (relinkStatements isFile options file text found).outcome := by
  cases split : Statement.split text with
  | error fault =>
      rw [outcomeOf_error split] at is
      cases is
  | ok found =>
      rw [outcomeOf_split split] at is
      exact ⟨found, rfl, (Except.ok.inj is).symm⟩

theorem outcomeOf_resolved (is : outcomeOf isFile options file text = .ok outcome)
    {request : ResolvedRequest} (member : request ∈ outcome.requests) :
    request.resolution =
      resolutionOf isFile options (file.parent?.getD ⟨[]⟩) request.specifier := by
  obtain ⟨found, -, rfl⟩ := outcomeOf_eq_ok is
  simp only [relinkStatements, Outcome.ofPieces, List.mem_filterMap, List.mem_map,
    List.map_map] at member
  obtain ⟨treatment, ⟨piece, -, rfl⟩, isRequest⟩ := member
  simp only [Function.comp, Piece.treat] at isRequest
  split at isRequest
  · cases isRequest
  split at isRequest
  · cases isRequest
  · cases isRequest
    rfl

/-- In the text that a module has after it is relinked nothing is left to be relinked. -/
theorem outcomeOf_settled (is : outcomeOf isFile options file text = .ok outcome) :
    ∃ again, outcomeOf isFile options file (outcome.text.getD text) = .ok again ∧
      again.text = none ∧ again.requests = outcome.requests.map ResolvedRequest.settled := by
  obtain ⟨found, split, rfl⟩ := outcomeOf_eq_ok is
  obtain ⟨parts, tail, layout, rfl⟩ := layout_of_split split
  rw [relinkStatements_outcome isFile options file layout] at is ⊢
  cases changed : (Outcome.ofPieces options
      (treatedPieces isFile options (file.parent?.getD ⟨[]⟩) parts) tail).text with
  | none =>
      exact ⟨_, is, changed, (ResolvedRequest.map_settled (ofPieces_kept changed)).symm⟩
  | some out =>
      obtain ⟨otherLayout, unchanged, requests⟩ :=
        @Layout.settles isFile options (file.parent?.getD ⟨[]⟩) _ _ _ _ layout true 0
      have again := @Layout.splits isFile options (file.parent?.getD ⟨[]⟩) _ _ _ layout split
      rw [← settle_statements, ← ofPieces_text options changed] at again
      rw [← ofPieces_text options changed] at otherLayout
      refine ⟨_, outcomeOf_split again, ?_⟩
      rw [Option.getD_some, relinkStatements_outcome isFile options file otherLayout]
      exact ⟨ofPieces_unchanged unchanged tail, requests⟩

theorem outcomeOf_kept (is : outcomeOf isFile options file text = .ok outcome)
    (kept : outcome.text = none) :
    ∀ request ∈ outcome.requests, request.resolution.isReplaced = false := by
  obtain ⟨found, split, rfl⟩ := outcomeOf_eq_ok is
  obtain ⟨parts, tail, layout, rfl⟩ := layout_of_split split
  rw [relinkStatements_outcome isFile options file layout] at kept ⊢
  exact ofPieces_kept kept

/-- What becomes of a module depends on nothing of its path but the files that specifiers lead to. -/
theorem outcomeOf_congr {other : Path} (alike : ∀ specifier,
    isFile ((file.parent?.getD ⟨[]⟩).follow specifier) =
      isFile ((other.parent?.getD ⟨[]⟩).follow specifier)) :
    outcomeOf isFile options file text = outcomeOf isFile options other text := by
  cases split : Statement.split text with
  | error fault => rw [outcomeOf_error split, outcomeOf_error split]
  | ok found =>
      have treat : ∀ piece : Piece,
          (piece.treat isFile options (file.parent?.getD ⟨[]⟩)).value =
            (piece.treat isFile options (other.parent?.getD ⟨[]⟩)).value := by
        intro piece
        unfold Piece.treat
        split
        · rfl
        split
        · rfl
        · simp only [Probed.map, Resolution.ofSpecifier_congr alike]
      rw [outcomeOf_split split, outcomeOf_split split]
      simp only [relinkStatements, List.map_map, Function.comp_def, treat]

end Module

end Relink
