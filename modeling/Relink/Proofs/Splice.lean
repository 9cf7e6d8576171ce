import Relink.Proofs.Insertion
import Relink.Proofs.Treatment

/-!
# The new text of a module

Relinking puts two kinds of things into a text: the suffix of each specifier that is replaced, and line
breaks between statements that touch. Where they go follows from the text and its statements alone.
-/

set_option autoImplicit false

namespace Relink

/-! ## Insertions of a module -/

section Insertions

variable (isFile : Path → Bool) (options : Options) (directory : Path) (text : Text)

/-- The line break before a statement that begins where the one before it ends. -/
def breakBefore (previous : Option Nat) (start : Nat) : List (Nat × Insertion) :=
  if previous = some start ∧ options.minify = false then [(start, .lineBreak)] else []

/-- The suffix of the specifier of a statement, behind what is left of it when it is trimmed. -/
def suffixIn (statement : Statement) : List (Nat × Insertion) :=
  match statement.request with
  | none => []
  | some request =>
    match text.slice? request.specifier.start request.specifier.stop with
    | none => []
    | some raw =>
      if raw.contains '\\' then []
      else
        match resolutionOf isFile options directory raw.trim with
        | .replaced replacement _ =>
          [(request.specifier.start + raw.leadingBlanks.size + raw.trim.size,
            .suffix raw.trim replacement)]
        | _ => []

/-- What is put into a text for its statements, where `previous` is the end of the one before. -/
def insertions : Option Nat → List Statement → List (Nat × Insertion)
  | _, [] => []
  | previous, statement :: others =>
    breakBefore options previous statement.span.start ++
      suffixIn isFile options directory text statement ++
      insertions (some statement.span.stop) others

end Insertions

/-! ## Insertions of a piece -/

section Piece

variable {isFile : Path → Bool} {options : Options} {directory : Path} {text before behind : Text}
  {piece : Piece}

theorem suffixIn_of_slice {request : ModuleRequest} {content : Text}
    (requests : piece.statement.request = some request)
    (slice : text.slice? request.specifier.start request.specifier.stop = some content) :
    suffixIn isFile options directory text piece.statement =
      if content.contains '\\' then []
      else
        match resolutionOf isFile options directory content.trim with
        | .replaced replacement _ =>
          [(request.specifier.start + content.leadingBlanks.size + content.trim.size,
            .suffix content.trim replacement)]
        | _ => [] := by
  simp only [suffixIn, requests, slice]

theorem suffixIn_kept (lies : piece.LiesAt before.size)
    (split : text = before ++ piece.gap ++ piece.body ++ behind)
    (kept : (piece.treat isFile options directory).value.newText? = none) :
    suffixIn isFile options directory text piece.statement = [] := by
  cases requests : piece.statement.request with
  | none => simp only [suffixIn, requests]
  | some request =>
      obtain ⟨front, quote, content, back, quoted⟩ := lies.quoted request requests
      rw [suffixIn_of_slice requests (quoted.slice split (lies.span_size))]
      rw [quoted.treat isFile options directory lies] at kept
      by_cases escaped : content.contains '\\' = true
      · exact if_pos escaped
      rw [if_neg escaped] at kept ⊢
      by_cases empty : content.trim.isEmpty = true
      · -- A blank specifier is not resolved, which is no replacement either.
        rw [List.isEmpty_iff.mp empty]
        rfl
      · rw [if_neg empty] at kept
        cases resolved : resolutionOf isFile options directory content.trim with
        | replaced replacement candidate =>
            rw [resolved] at kept
            cases kept
        | _ => rfl

theorem suffixIn_replaced {request : ModuleRequest} {front content back replacement : Text}
    {quote : Char} (lies : piece.LiesAt before.size)
    (split : text = before ++ piece.gap ++ piece.body ++ behind)
    (replaced : piece.Replaced isFile options directory request front quote content back replacement) :
    suffixIn isFile options directory text piece.statement =
      [(piece.statement.span.start + (front ++ [quote] ++ content.leadingBlanks ++ content.trim).size,
        .suffix content.trim replacement)] := by
  have slice := replaced.quoted.slice split lies.span_size
  obtain ⟨candidate, resolved⟩ := replaced.resolved
  have place : request.specifier.start + content.leadingBlanks.size + content.trim.size =
      piece.statement.span.start +
        (front ++ [quote] ++ content.leadingBlanks ++ content.trim).size := by
    rw [replaced.quoted.specifier]
    simp [quote_size replaced.quoted.isQuote]
    omega
  rw [suffixIn_of_slice replaced.quoted.requests slice,
    if_neg (by rw [replaced.noEscape]; exact Bool.false_ne_true), resolved, ← place]

/-- A piece becomes its new text by its insertion, if what follows does so. -/
theorem body_inserts (lies : piece.LiesAt before.size)
    (split : text = before ++ piece.gap ++ piece.body ++ behind) {later : List (Nat × Insertion)}
    {out : Text} (inserts : Inserts (before.size + piece.gap.size + piece.body.size) later behind out) :
    Inserts (before.size + piece.gap.size)
      (suffixIn isFile options directory text piece.statement ++ later) (piece.body ++ behind)
      (newBody (piece, (piece.treat isFile options directory).value) ++ out) := by
  cases changed : (piece.treat isFile options directory).value.newText? with
  | none =>
      rw [suffixIn_kept lies split changed, newBody_kept isFile options directory changed]
      exact inserts.keep piece.body
  | some newText =>
      obtain ⟨request, front, quote, content, back, replacement, replaced⟩ :=
        lies.replaced isFile options directory changed
      obtain ⟨suffix, -, rfl⟩ := replaced.replaces.extends_
      let kept := front ++ [quote] ++ content.leadingBlanks ++ content.trim
      let more := content.trailingBlanks ++ quote :: back
      have body : piece.body = kept ++ more := by
        rw [replaced.quoted.body]
        conv =>
          lhs
          rw [← Text.trim_append content]
        simp [kept, more, Token.quoted]
      have start : piece.statement.span.start = before.size + piece.gap.size := by rw [lies.span]
      rw [body, Text.size_append, ← Nat.add_assoc] at inserts
      have all := Inserts.insert kept (.suffix content.trim (content.trim ++ suffix))
        (inserts.keep more)
      rw [suffixIn_replaced lies split replaced, replaced.newBody, body, start]
      simpa [kept, more, Insertion.text, Token.quoted] using all

end Piece

/-! ## The text of a module -/

/-- Pieces with what becomes of them in a module of `directory`. -/
def treatedPieces (isFile : Path → Bool) (options : Options) (directory : Path)
    (parts : List Piece) : List (Piece × Treatment) :=
  parts.map fun piece => (piece, (piece.treat isFile options directory).value)

section Module

variable {isFile : Path → Bool} {options : Options} {directory : Path}

theorem treatedPieces_covers (parts : List Piece) :
    (treatedPieces isFile options directory parts).map Prod.fst = parts := by
  simp [treatedPieces, Function.comp_def]

/-- A line break is put in where a piece has no gap and is not the first one. -/
theorem breakBefore_inserts {offset : Nat} {isFirst : Bool} {previous : Option Nat}
    (follows : previous = if isFirst then none else some offset) (gap : Text)
    {later : List (Nat × Insertion)} {text out : Text}
    (inserts : Inserts (offset + gap.size) later text out) :
    Inserts offset (breakBefore options previous (offset + gap.size) ++ later) (gap ++ text)
      (lineBreak options isFirst gap ++ gap ++ out) := by
  by_cases nothing : gap = []
  · subst nothing
    have asBreak : breakBefore options previous (offset + Text.size []) =
        if (!isFirst && !options.minify) = true then [(offset, Insertion.lineBreak)] else [] := by
      cases isFirst <;> simp [breakBefore, follows]
    rw [asBreak]
    simp only [lineBreak, List.isEmpty_nil, Bool.and_true, List.append_nil, List.nil_append]
    split
    · exact .here .lineBreak inserts
    · exact inserts
  · have noTouch : ¬ (previous = some (offset + gap.size) ∧ options.minify = false) := by
      have positive := Text.size_pos nothing
      rintro ⟨touches, -⟩
      rw [follows] at touches
      split at touches
      · cases touches
      · have same := Option.some.inj touches
        omega
    have noBreak : lineBreak options isFirst gap = [] := by simp [lineBreak, nothing]
    rw [breakBefore, if_neg noTouch, noBreak]
    exact inserts.keep gap

/-- Where its pieces are put together again, a text has the insertions of its statements. -/
theorem Layout.inserts {offset : Nat} {rest tail : Text} {parts : List Piece}
    (layout : Layout offset rest parts tail) {text before : Text} (split : text = before ++ rest)
    (size : before.size = offset) {isFirst : Bool} {previous : Option Nat}
    (follows : previous = if isFirst then none else some offset) :
    Inserts offset (insertions isFile options directory text previous (statementsOf parts)) rest
      (reassemble options isFirst (treatedPieces isFile options directory parts) ++ tail) := by
  induction layout generalizing before isFirst previous with
  | nil offset tail => exact .done offset tail
  | @cons offset piece rest tail others lies layout ih =>
      subst size
      have start : piece.statement.span.start = before.size + piece.gap.size := by rw [lies.span]
      have stop : piece.statement.span.stop =
          before.size + piece.gap.size + piece.body.size := by rw [lies.span]
      have goesOn : text = before ++ piece.gap ++ piece.body ++ rest := by
        rw [split]
        simp only [List.append_assoc]
      have later : Inserts (before.size + piece.gap.size + piece.body.size)
          (insertions isFile options directory text (some piece.statement.span.stop)
            (statementsOf others)) rest
          (reassemble options false (treatedPieces isFile options directory others) ++ tail) :=
        ih goesOn (by rw [Text.size_append, Text.size_append]) (by rw [stop]; rfl)
      have body := @body_inserts isFile options directory _ _ _ _ lies goesOn _ _ later
      have whole := @breakBefore_inserts options _ _ _ follows piece.gap _ _ _ body
      simp only [statementsOf, List.map_cons, insertions, treatedPieces, reassemble, start,
        List.append_assoc] at whole ⊢
      exact whole

/-- Where its pieces are put together again, a module is split into its statements, moved. -/
theorem Layout.splits {text tail : Text} {parts : List Piece} (layout : Layout 0 text parts tail)
    (split : Statement.split text = .ok (statementsOf parts)) :
    Statement.split
        (reassemble options true (treatedPieces isFile options directory parts) ++ tail) =
      .ok (relocate options true 0 (treatedPieces isFile options directory parts)) := by
  have covers : (treatedPieces isFile options directory parts).map Prod.fst =
      (Relink.pieces 0 text (statementsOf parts)).1 := by
    rw [layout.pieces]
    exact treatedPieces_covers parts
  have respecified : ∀ entry ∈ treatedPieces isFile options directory parts, Respecified entry := by
    intro entry member
    obtain ⟨piece, isPiece, rfl⟩ := List.mem_map.mp member
    obtain ⟨before, behind, -, lies⟩ := layout.at_mem isPiece
    exact lies.respecified isFile options directory
  have again := split_reassemble split options covers respecified
  rwa [layout.pieces] at again

end Module

end Relink
