import Relink.Proofs.Request
import Relink.Proofs.Scan.Faults

/-!
# Placement of statements

The statements of a module lie one behind the other on character boundaries, each specifier within
quotes in its statement. So nothing that relinking cuts out of a text is cut within a character or
from the wrong side, and of the anomalies only those of the specifiers' own making occur.
-/

set_option autoImplicit false

namespace Relink

/-! ## Placement -/

/-- A specifier stands between two quotes of one kind, of which none is unescaped in it. -/
structure SpecifierPlaced (text : Text) (statement specifier : Span) : Prop where
  behindStart : statement.start < specifier.start
  ordered : specifier.start ≤ specifier.stop
  beforeStop : specifier.stop < statement.stop
  start : text.IsBoundary specifier.start
  stop : text.IsBoundary specifier.stop
  quotes : ∃ quote content, (quote = '\x22' ∨ quote = '\x27') ∧
    text.slice? (specifier.start - 1) specifier.start = some [quote] ∧
    text.slice? specifier.start specifier.stop = some content ∧
    text.slice? specifier.stop (specifier.stop + 1) = some [quote] ∧
    Token.hasUnescaped quote content = false

/-- A statement that is not empty lies on character boundaries, its specifier within it. -/
structure StatementPlaced (text : Text) (statement : Statement) : Prop where
  nonempty : statement.span.start < statement.span.stop
  start : text.IsBoundary statement.span.start
  stop : text.IsBoundary statement.span.stop
  specifier : ∀ request, statement.request = some request →
    SpecifierPlaced text statement.span request.specifier

/-- The statements of a module, in order and disjoint. -/
structure Placed (text : Text) (found : List Statement) : Prop where
  each : ∀ statement ∈ found, StatementPlaced text statement
  ordered : found.Pairwise fun former latter => former.span.stop ≤ latter.span.start

theorem Layout.ordered {offset : Nat} {text tail : Text} {parts : List Piece}
    (layout : Layout offset text parts tail) :
    (statementsOf parts).Pairwise fun former latter => former.span.stop ≤ latter.span.start := by
  induction layout with
  | nil => exact .nil
  | @cons offset first rest tail others lies layout ih =>
      refine List.pairwise_cons.mpr ⟨?_, ih⟩
      intro statement member
      obtain ⟨piece, inOthers, rfl⟩ := List.mem_map.mp member
      obtain ⟨before, behind, -, later⟩ := layout.at_mem inOthers
      rw [lies.span, later.span]
      simp only
      omega

theorem QuotedAt.placed {text before behind : Text} {piece : Piece} {request : ModuleRequest}
    {front content back : Text} {quote : Char}
    (quoted : QuotedAt piece.statement piece.body request front quote content back)
    (split : text = before ++ piece.body ++ behind)
    (span : piece.statement.span = ⟨before.size, before.size + piece.body.size⟩) :
    SpecifierPlaced text piece.statement.span request.specifier := by
  have inside := quoted.slice split span
  have one := quote_size quoted.isQuote
  have size := congrArg Text.size quoted.body
  have specifier := quoted.specifier
  simp only [Token.quoted, Text.size_append, Text.size_cons, Text.size_nil, one] at size
  rw [span] at specifier ⊢
  simp only at specifier
  rw [specifier] at inside ⊢
  have parts : text = before ++ front ++ [quote] ++ content ++ [quote] ++ (back ++ behind) := by
    rw [split, quoted.body, Token.quoted]
    simp only [List.append_assoc, List.cons_append, List.nil_append]
  refine ⟨?_, ?_, ?_, ?_, ?_, quote, content, quoted.isQuote, ?_, inside, ?_,
    quoted.isContent.noQuote⟩
  · simp only
    omega
  · simp only
    omega
  · simp only
    omega
  · refine Text.isBoundary_append (before ++ front ++ [quote])
      (content ++ [quote] ++ (back ++ behind)) (by simp only [parts, List.append_assoc]) ?_
    simp [one, Nat.add_assoc]
  · refine Text.isBoundary_append (before ++ front ++ [quote] ++ content)
      ([quote] ++ (back ++ behind)) (by simp only [parts, List.append_assoc]) ?_
    simp [one, Nat.add_assoc]
  · refine Text.slice?_of_append (before ++ front) [quote] (content ++ [quote] ++ (back ++ behind))
      (by simp only [parts, List.append_assoc]) ?_ ?_ <;> simp [one, Nat.add_assoc]
  · refine Text.slice?_of_append (before ++ front ++ [quote] ++ content) [quote] (back ++ behind)
      parts ?_ ?_ <;> simp [one, Nat.add_assoc]

theorem Layout.placed {text tail : Text} {parts : List Piece} (layout : Layout 0 text parts tail) :
    Placed text (statementsOf parts) where
  ordered := layout.ordered
  each := by
    intro statement member
    obtain ⟨piece, isPiece, rfl⟩ := List.mem_map.mp member
    obtain ⟨before, behind, split, lies⟩ := layout.at_mem isPiece
    have span := lies.span
    rw [Nat.zero_add, ← Text.size_append] at span
    have positive := Text.size_pos lies.nonempty
    constructor
    · rw [span]
      simp only
      omega
    · rw [span]
      exact Text.isBoundary_append (before ++ piece.gap) (piece.body ++ behind)
        (by rw [split, List.append_assoc]) rfl
    · rw [span]
      exact Text.isBoundary_append (before ++ piece.gap ++ piece.body) behind split
        (Text.size_append _ _).symm
    · intro request isRequest
      obtain ⟨front, quote, content, back, quoted⟩ := lies.quoted request isRequest
      exact quoted.placed split span

/-! ## Slices -/

/-- The pieces of a text from byte `cursor` on and what stands behind them, if every slice that is
taken for them begins and ends on character boundaries in order. -/
def slices? (text : Text) (cursor : Nat) : List Statement → Option (List Piece × Text)
  | [] => (text.slice? cursor text.size).map fun tail => ([], tail)
  | statement :: others =>
    match text.slice? cursor statement.span.start,
      text.slice? statement.span.start statement.span.stop,
      slices? text statement.span.stop others with
    | some gap, some body, some (pieces, tail) => some (⟨gap, body, statement⟩ :: pieces, tail)
    | _, _, _ => none

/-- Every slice that relinking takes of a text is there: those of the statements, and those around
each specifier that is found to be handled. -/
structure Sliced (text : Text) (found : List Statement) : Prop where
  pieces : slices? text 0 found = some (pieces 0 text found)
  requests : ∀ piece ∈ (Relink.pieces 0 text found).1, ∀ request,
    piece.statement.request = some request → ∀ parts,
      piece.requestText request.specifier = .ok parts →
        text.slice? piece.statement.span.start
            (request.specifier.start + parts.leading.size) = some (parts.front ++ parts.leading) ∧
          text.slice? (request.specifier.start + parts.leading.size + parts.specifier.size)
            piece.statement.span.stop = some (parts.trailing ++ parts.back)

theorem Layout.slices? {offset : Nat} {rest tail : Text} {parts : List Piece}
    (layout : Layout offset rest parts tail) {text before : Text} (split : text = before ++ rest)
    (size : offset = before.size) :
    Relink.slices? text offset (statementsOf parts) = some (parts, tail) := by
  induction layout generalizing before with
  | nil offset tail =>
      have slice : text.slice? offset text.size = some tail := by
        refine Text.slice?_of_append before tail [] (by rw [split, List.append_nil]) size ?_
        rw [split, Text.size_append]
      simp only [statementsOf, List.map_nil, Relink.slices?, slice, Option.map_some]
  | @cons offset piece rest tail others lies layout ih =>
      have gap : text.slice? offset piece.statement.span.start = some piece.gap := by
        refine Text.slice?_of_append before piece.gap (piece.body ++ rest) ?_ size ?_
        · rw [split]
          simp only [List.append_assoc]
        · rw [lies.span, size]
      have body : text.slice? piece.statement.span.start piece.statement.span.stop =
          some piece.body := by
        refine Text.slice?_of_append (before ++ piece.gap) piece.body rest ?_ ?_ ?_
        · rw [split]
          simp only [List.append_assoc]
        · rw [lies.span, size, Text.size_append]
        · rw [lies.span, size, Text.size_append]
      have goesOn : text = before ++ piece.gap ++ piece.body ++ rest := by
        rw [split]
        simp only [List.append_assoc]
      have stop : piece.statement.span.stop = offset + piece.gap.size + piece.body.size := by
        rw [lies.span]
      have others' := ih goesOn (by rw [size, Text.size_append, Text.size_append])
      rw [← stop] at others'
      simp only [statementsOf, List.map_cons, Relink.slices?, gap, body]
      rw [show others.map (·.statement) = statementsOf others from rfl, others']

theorem QuotedAt.slices {text before behind : Text} {piece : Piece} {request : ModuleRequest}
    {front content back : Text} {quote : Char}
    (quoted : QuotedAt piece.statement piece.body request front quote content back)
    (split : text = before ++ piece.body ++ behind)
    (span : piece.statement.span = ⟨before.size, before.size + piece.body.size⟩) :
    text.slice? piece.statement.span.start
        (request.specifier.start + content.leadingBlanks.size) =
          some (front ++ [quote] ++ content.leadingBlanks) ∧
      text.slice? (request.specifier.start + content.leadingBlanks.size + content.trim.size)
        piece.statement.span.stop = some (content.trailingBlanks ++ quote :: back) := by
  have one := quote_size quoted.isQuote
  have body : piece.body = front ++ [quote] ++
      (content.leadingBlanks ++ content.trim ++ content.trailingBlanks) ++ quote :: back := by
    rw [quoted.body, Text.trim_append, Token.quoted]
    simp only [List.append_assoc, List.cons_append, List.nil_append]
  have size := congrArg Text.size body
  simp only [Text.size_append, Text.size_cons, Text.size_nil, one] at size
  rw [quoted.specifier, span]
  simp only
  constructor
  · refine Text.slice?_of_append before (front ++ [quote] ++ content.leadingBlanks)
      (content.trim ++ content.trailingBlanks ++ quote :: back ++ behind) ?_ rfl ?_
    · rw [split, body]
      simp only [List.append_assoc]
    · simp [one]
      omega
  · refine Text.slice?_of_append (before ++ front ++ [quote] ++ content.leadingBlanks ++ content.trim)
      (content.trailingBlanks ++ quote :: back) behind ?_ ?_ ?_
    · rw [split, body]
      simp only [List.append_assoc]
    · simp [one]
      omega
    · simp [one]
      omega

theorem Layout.sliced {text tail : Text} {parts : List Piece} (layout : Layout 0 text parts tail) :
    Sliced text (statementsOf parts) where
  pieces := by
    rw [layout.pieces]
    exact layout.slices? (List.nil_append text).symm Text.size_nil.symm
  requests := by
    intro piece member request isRequest taken isTaken
    rw [layout.pieces] at member
    obtain ⟨before, behind, split, lies⟩ := layout.at_mem member
    obtain ⟨front, quote, content, back, quoted⟩ := lies.quoted request isRequest
    rw [quoted.requestText lies] at isTaken
    split at isTaken
    · cases isTaken
    split at isTaken
    · cases isTaken
    · cases isTaken
      have span := lies.span
      rw [Nat.zero_add, ← Text.size_append] at span
      exact quoted.slices split span

/-! ## Anomalies -/

/-- An anomaly of a specifier that lies wrong in its statement or on its characters. -/
def Anomaly.isMisplaced : Anomaly → Bool
  | .outOfBounds _ _ => true
  | .notCharBoundary _ => true
  | .escaped _ => false
  | .empty _ => false

theorem Piece.LiesAt.treat_anomaly {offset : Nat} {piece : Piece} (lies : piece.LiesAt offset)
    (isFile : Path → Bool) (options : Options) (directory : Path) {anomaly : Anomaly}
    (odd : (piece.treat isFile options directory).value.anomaly? = some anomaly) :
    anomaly.isMisplaced = false := by
  cases requests : piece.statement.request with
  | none =>
      rw [piece.treat_copied isFile options directory requests] at odd
      cases odd
  | some request =>
      obtain ⟨front, quote, content, back, quoted⟩ := lies.quoted request requests
      rw [quoted.treat isFile options directory lies] at odd
      split at odd
      · cases odd
        rfl
      split at odd
      · cases odd
        rfl
      · cases odd

theorem Layout.anomalies {text tail : Text} {parts : List Piece} (layout : Layout 0 text parts tail)
    (isFile : Path → Bool) (options : Options) (file : Path) :
    ∀ anomaly ∈ (relinkStatements isFile options file text (statementsOf parts)).outcome.anomalies,
      anomaly.isMisplaced = false := by
  intro anomaly member
  simp only [relinkStatements, Outcome.ofPieces, layout.pieces, List.mem_filterMap, List.mem_map,
    List.map_map] at member
  obtain ⟨treatment, ⟨piece, isPiece, rfl⟩, odd⟩ := member
  obtain ⟨before, behind, -, lies⟩ := layout.at_mem isPiece
  exact lies.treat_anomaly isFile options _ odd

/-! ## Modules -/

/-- The statements that are found in a module are placed so that every slice of relinking is there
and no anomaly comes of a misplaced specifier; a fault lies within the text. -/
theorem split_placed (isFile : Path → Bool) (options : Options) (file : Path) (text : Text) :
    match Statement.split text with
    | .ok found =>
      Placed text found ∧ Sliced text found ∧
        ∃ relinking, relinkText isFile options file text = .ok relinking ∧
          ∀ anomaly ∈ relinking.outcome.anomalies, anomaly.isMisplaced = false
    | .error fault => fault.span.start ≤ fault.span.stop ∧ fault.span.stop ≤ text.size := by
  cases split : Statement.split text with
  | error fault => exact fault_within split
  | ok found =>
      obtain ⟨parts, tail, layout, rfl⟩ := layout_of_split split
      have relinked : relinkText isFile options file text =
          .ok (relinkStatements isFile options file text (statementsOf parts)) := by
        rw [relinkText, split]
        rfl
      exact ⟨layout.placed, layout.sliced, _, relinked, layout.anomalies isFile options file⟩

end Relink
