import Mathlib.Data.List.Forall2
import Relink.Proofs.Outcome

/-!
# Splitting a new text

The new text of a module is split into the statements of the old one, with the replacements between the
quotes of the specifiers that were replaced. Neither the suffixes nor the line breaks change where a
statement begins or ends.
-/

set_option autoImplicit false

namespace Relink

section Correspondence

variable (isFile : Path → Bool) (options : Options) (directory : Path) (text out : Text)

/-- A statement of the old text and the one in its place in the new text. -/
inductive Corresponds (old new : Statement) : Prop where
  /-- No specifier is replaced: the statement only stands elsewhere. -/
  | kept (distance : Nat) (body : Text) :
      new = old.shift distance →
        text.slice? old.span.start old.span.stop = some body →
          out.slice? new.span.start new.span.stop = some body →
            suffixIn isFile options directory text old = [] → Corresponds old new
  /-- The specifier is replaced: all else in the text of the statement stays. -/
  | replaced (form : RequestForm) (specifier otherSpecifier : Span) (front : Text) (quote : Char)
      (content back replacement : Text) (candidate : Candidate) :
      old.request = some ⟨form, specifier⟩ →
        new.request = some ⟨form, otherSpecifier⟩ →
          text.slice? old.span.start old.span.stop =
              some (front ++ Token.quoted quote content ++ back) →
            text.slice? specifier.start specifier.stop = some content →
              resolutionOf isFile options directory content.trim = .replaced replacement candidate →
                out.slice? new.span.start new.span.stop =
                    some (front ++ Token.quoted quote
                      (content.leadingBlanks ++ replacement ++ content.trailingBlanks) ++ back) →
                  out.slice? otherSpecifier.start otherSpecifier.stop =
                      some (content.leadingBlanks ++ replacement ++ content.trailingBlanks) →
                    specifier.start - old.span.start = front.size + 1 →
                      otherSpecifier.start - new.span.start = front.size + 1 →
                        Corresponds old new

end Correspondence

section Module

variable {isFile : Path → Bool} {options : Options} {directory : Path} {text out : Text}

section Piece

variable {before behind otherBefore otherBehind : Text} {piece : Piece} {distance : Nat}

theorem slice?_piece (lies : piece.LiesAt before.size)
    (split : text = before ++ piece.gap ++ piece.body ++ behind) :
    text.slice? piece.statement.span.start piece.statement.span.stop = some piece.body := by
  rw [lies.span_size]
  exact Text.slice?_of_append (before ++ piece.gap) piece.body behind split rfl rfl

theorem corresponds_of_kept (lies : piece.LiesAt before.size)
    (split : text = before ++ piece.gap ++ piece.body ++ behind)
    (otherSplit : out = otherBefore ++ piece.body ++ otherBehind)
    (place : otherBefore.size = piece.statement.span.start + distance)
    (kept : (piece.treat isFile options directory).value.newText? = none) :
    Corresponds isFile options directory text out piece.statement
      (piece.statement.shift distance) := by
  refine .kept distance piece.body rfl (slice?_piece lies split) ?_ (suffixIn_kept lies split kept)
  refine Text.slice?_of_append otherBefore piece.body otherBehind otherSplit place.symm ?_
  simp only [Statement.shift, Span.shift, place, lies.span_size]
  omega

theorem corresponds_of_replaced {request : ModuleRequest} {front content back replacement : Text}
    {quote : Char} (lies : piece.LiesAt before.size)
    (split : text = before ++ piece.gap ++ piece.body ++ behind)
    (replaced : piece.Replaced isFile options directory request front quote content back replacement)
    {grown : Nat}
    (isGrown : (content.leadingBlanks ++ replacement ++ content.trailingBlanks).size =
      content.size + grown)
    (otherSplit : out = otherBefore ++ (front ++ Token.quoted quote
      (content.leadingBlanks ++ replacement ++ content.trailingBlanks) ++ back) ++ otherBehind)
    (place : otherBefore.size = piece.statement.span.start + distance) :
    Corresponds isFile options directory text out piece.statement
      ((piece.statement.grow grown).shift distance) := by
  obtain ⟨candidate, resolved⟩ := replaced.resolved
  have own := slice?_piece lies split
  have one := quote_size replaced.quoted.isQuote
  have requests := replaced.quoted.requests
  have specifierAt := replaced.quoted.specifier
  have size := congrArg Text.size replaced.quoted.body
  rw [replaced.quoted.body] at own
  simp only [Text.size_append, size_quoted replaced.quoted.isQuote] at size
  have span := lies.span_size
  have stop : piece.statement.span.stop = piece.statement.span.start + piece.body.size := by
    rw [span]
  obtain ⟨form, specifier⟩ := request
  simp only at specifierAt
  refine .replaced form specifier
    ⟨specifier.start + distance, specifier.stop + grown + distance⟩ front quote content back
    replacement candidate requests ?_ own (replaced.quoted.slice split span) resolved ?_ ?_ ?_ ?_
  · simp only [Statement.shift, Statement.grow, requests, Span.shift, Option.map_some]
  · refine Text.slice?_of_append otherBefore _ otherBehind otherSplit place.symm ?_
    simp only [Text.size_append, size_quoted replaced.quoted.isQuote] at isGrown ⊢
    simp only [Statement.shift, Statement.grow, Span.shift]
    omega
  · refine Text.slice?_of_append (otherBefore ++ front ++ [quote]) _
      (quote :: back ++ otherBehind) ?_ ?_ ?_
    · rw [otherSplit, Token.quoted]
      simp only [List.append_assoc, List.cons_append, List.nil_append]
    · rw [specifierAt]
      simp [one]
      omega
    · rw [isGrown, specifierAt]
      simp [one]
      omega
  · rw [specifierAt]
    simp only
    omega
  · rw [specifierAt]
    simp only [Statement.shift, Statement.grow, Span.shift]
    omega

/-- A treated statement corresponds to the one it becomes, wherever its text then stands. -/
theorem corresponds_of_piece (lies : piece.LiesAt before.size)
    (split : text = before ++ piece.gap ++ piece.body ++ behind)
    (otherSplit : out = otherBefore ++
      newBody (piece, (piece.treat isFile options directory).value) ++ otherBehind)
    (place : otherBefore.size = piece.statement.span.start + distance) :
    Corresponds isFile options directory text out piece.statement
      ((piece.statement.grow (growth (piece, (piece.treat isFile options directory).value))).shift
        distance) := by
  cases changed : (piece.treat isFile options directory).value.newText? with
  | none =>
      have same := newBody_kept isFile options directory changed
      have noGrowth : growth (piece, (piece.treat isFile options directory).value) = 0 := by
        simp only [growth, same, Nat.sub_self]
      rw [same] at otherSplit
      rw [noGrowth, Statement.grow_zero]
      exact corresponds_of_kept lies split otherSplit place changed
  | some newText =>
      obtain ⟨request, front, quote, content, back, replacement, replaced⟩ :=
        lies.replaced isFile options directory changed
      have longer := size_sublist replaced.sublist
      have size := congrArg Text.size replaced.quoted.body
      have newSize := congrArg Text.size replaced.newBody
      simp only [Text.size_append, size_quoted replaced.quoted.isQuote] at size newSize longer
      rw [replaced.newBody] at otherSplit
      refine corresponds_of_replaced lies split replaced ?_ otherSplit place
      simp only [growth, Text.size_append]
      omega

end Piece

/-- The statements of a text correspond to those that they become where it is put together again. -/
theorem Layout.correspond {offset : Nat} {rest tail : Text} {parts : List Piece}
    (layout : Layout offset rest parts tail) {before otherBefore : Text} (split : text = before ++ rest)
    (size : before.size = offset) {isFirst : Bool} {distance : Nat}
    (otherSplit : out = otherBefore ++
      (reassemble options isFirst (treatedPieces isFile options directory parts) ++ tail))
    (place : otherBefore.size = offset + distance) :
    List.Forall₂ (Corresponds isFile options directory text out) (statementsOf parts)
      (relocate options isFirst distance (treatedPieces isFile options directory parts)) := by
  induction layout generalizing before otherBefore isFirst distance with
  | nil => exact .nil
  | @cons offset piece rest tail others lies layout ih =>
      subst size
      let entry := (piece, (piece.treat isFile options directory).value)
      let space := lineBreak options isFirst piece.gap
      have start : piece.statement.span.start = before.size + piece.gap.size := by rw [lies.span]
      have goesOn : text = before ++ piece.gap ++ piece.body ++ rest := by
        rw [split]
        simp only [List.append_assoc]
      have otherGoesOn : out = otherBefore ++ space ++ piece.gap ++ newBody entry ++
          (reassemble options false (treatedPieces isFile options directory others) ++ tail) := by
        rw [otherSplit]
        simp only [treatedPieces, List.map_cons, reassemble, List.append_assoc, space, entry, newBody]
      have longer := size_sublist ((lies.respecified isFile options directory).sublist lies)
      refine .cons (corresponds_of_piece lies goesOn otherGoesOn ?_) (ih goesOn ?_ otherGoesOn ?_)
      · simp only [Text.size_append, space]
        omega
      · rw [Text.size_append, Text.size_append]
      · simp only [Text.size_append, space, entry, growth] at longer ⊢
        omega

end Module

/-! ## Modules -/

/-- The new text of a module is split into statements that correspond to those of the old one. -/
theorem relinkText_resplits (isFile : Path → Bool) (options : Options) (file : Path)
    (text out : Text) {relinking : Relinking}
    (relinked : relinkText isFile options file text = .ok relinking)
    (changed : relinking.outcome.text = some out) :
    ∃ found others, Statement.split text = .ok found ∧ Statement.split out = .ok others ∧
      List.Forall₂ (Corresponds isFile options (file.parent?.getD ⟨[]⟩) text out) found others := by
  cases split : Statement.split text with
  | error fault =>
      rw [relinkText, split] at relinked
      cases relinked
  | ok found =>
      rw [relinkText, split] at relinked
      cases relinked
      obtain ⟨parts, tail, layout, rfl⟩ := layout_of_split split
      rw [relinkStatements_outcome isFile options file layout] at changed
      have whole := ofPieces_text options changed
      have again := @Layout.splits isFile options (file.parent?.getD ⟨[]⟩) _ _ _ layout split
      rw [← whole] at again
      refine ⟨_, _, rfl, again, ?_⟩
      exact layout.correspond (List.nil_append text).symm Text.size_nil whole Text.size_nil

/-- A request that gets an extension, with a statement that touches it. -/
theorem relinkText_resplits_touching :
    ∃ relinking, relinkText (fun _ => true) (.standard .mjs) ⟨"m.mjs".toList⟩
        "import './b';let a".toList = .ok relinking ∧
      relinking.outcome.text = some "import './b.mjs';\nlet a".toList ∧
      ∃ found others, Statement.split "import './b';let a".toList = .ok found ∧
        Statement.split "import './b.mjs';\nlet a".toList = .ok others ∧
        List.Forall₂ (Corresponds (fun _ => true) (.standard .mjs)
          ((Path.mk "m.mjs".toList).parent?.getD ⟨[]⟩) "import './b';let a".toList
          "import './b.mjs';\nlet a".toList) found others := by
  have changed : (relinkText (fun _ => true) (.standard .mjs) ⟨"m.mjs".toList⟩
      "import './b';let a".toList).toOption.bind (·.outcome.text) =
        some "import './b.mjs';\nlet a".toList := by
    decide +kernel
  cases relinked : relinkText (fun _ => true) (.standard .mjs) ⟨"m.mjs".toList⟩
      "import './b';let a".toList with
  | error fault =>
      rw [relinked] at changed
      cases changed
  | ok relinking =>
      rw [relinked] at changed
      exact ⟨relinking, rfl, changed, relinkText_resplits (fun _ => true) (.standard .mjs)
        ⟨"m.mjs".toList⟩ "import './b';let a".toList "import './b.mjs';\nlet a".toList relinked
        changed⟩

end Relink
