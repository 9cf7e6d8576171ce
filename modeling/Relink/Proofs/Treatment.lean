import Relink.Proofs.Request
import Relink.Proofs.Resolution
import Relink.Proofs.Scan.Rescan

/-!
# Treatment of requests

A request whose specifier is neither blank nor escaped is resolved. Where it is replaced, it gets a
longer string of the same quotes, which is read as a string again.
-/

set_option autoImplicit false

namespace Relink

/-! ## Plain contents -/

theorem Token.hasUnescaped_eq_contains {content : Text} (plain : content.contains '\\' = false)
    (mark : Char) : hasUnescaped mark content = content.contains mark := by
  induction content with
  | nil => rfl
  | cons c rest ih =>
      simp only [List.contains_cons, Bool.or_eq_false_iff, beq_eq_false_iff_ne] at plain
      rw [hasUnescaped_cons (Ne.symm plain.1), ih plain.2, List.contains_cons, Bool.beq_comm]

/-- A content without a backslash means itself. -/
theorem Token.IsContent.isPlain {quote : Char} {content : Text} (is : IsContent quote content)
    (plain : content.contains '\\' = false) : IsPlain quote content := by
  have noQuote := is.noQuote
  have noBreak := is.noBreak
  rw [hasUnescaped_eq_contains plain] at noQuote noBreak
  intro c member
  have unlike : ∀ d, content.contains d = false → c ≠ d := by
    rintro d missing rfl
    rw [List.contains_iff_mem.mpr member] at missing
    cases missing
  exact ⟨unlike _ plain, unlike _ noBreak, unlike _ noQuote⟩

theorem Token.isPlain_of_all {quote : Char} {content : Text}
    (all : (content.all fun c => c != '\\' && c != '\n' && c != quote) = true) :
    IsPlain quote content := by
  intro c member
  have plain := List.all_eq_true.mp all c member
  simp only [Bool.and_eq_true, bne_iff_ne] at plain
  exact ⟨plain.1.1, plain.1.2, plain.2⟩

theorem Specifier.isPlain_suffix {quote : Char} (isQuote : quote = '\x22' ∨ quote = '\x27')
    {extension : ModuleExtension} {specifier suffix : Text}
    (isSuffix : suffix ∈ suffixes extension.spelling specifier) : Token.IsPlain quote suffix := by
  apply Token.isPlain_of_all
  rcases isQuote with rfl | rfl <;> cases extension <;>
    rcases suffix_cases isSuffix with rfl | rfl | rfl <;> rfl

/-- A specifier does not end with a blank once it got something. -/
theorem Specifier.stops_suffix {extension : ModuleExtension} {specifier suffix : Text}
    (isSuffix : suffix ∈ suffixes extension.spelling specifier) :
    Token.Stops isBlank suffix.reverse := by
  intro c last
  rcases suffix_cases isSuffix with rfl | rfl | rfl <;> cases extension <;> cases last <;> rfl

/-! ## Treated pieces -/

section Treat

variable {offset : Nat} {piece : Piece} {request : ModuleRequest} {front content back : Text}
  {quote : Char} (isFile : Path → Bool) (options : Options) (directory : Path)

/-- The specifier of the request of a piece is replaced. -/
structure Piece.Replaced (piece : Piece) (request : ModuleRequest) (front : Text) (quote : Char)
    (content back replacement : Text) : Prop where
  quoted : QuotedAt piece.statement piece.body request front quote content back
  noEscape : content.contains '\\' = false
  resolved : ∃ candidate, resolutionOf isFile options directory content.trim =
    .replaced replacement candidate
  treated : (piece.treat isFile options directory).value =
    .resolved ⟨content.trim, resolutionOf isFile options directory content.trim⟩
      (some (front ++
        Token.quoted quote (content.leadingBlanks ++ replacement ++ content.trailingBlanks) ++ back))

theorem QuotedAt.replaced (quoted : QuotedAt piece.statement piece.body request front quote content back)
    (lies : piece.LiesAt offset) {newText : Text}
    (changed : (piece.treat isFile options directory).value.newText? = some newText) :
    ∃ replacement, piece.Replaced isFile options directory request front quote content back
      replacement := by
  have treated := quoted.treat isFile options directory lies
  by_cases escaped : content.contains '\\' = true
  · rw [treated, if_pos escaped] at changed
    cases changed
  by_cases empty : content.trim.isEmpty = true
  · rw [treated, if_neg escaped, if_pos empty] at changed
    cases changed
  rw [if_neg escaped, if_neg empty] at treated
  cases resolved : resolutionOf isFile options directory content.trim with
  | replaced replacement candidate =>
      refine ⟨replacement, quoted, Bool.eq_false_iff.mpr escaped, ⟨candidate, resolved⟩, ?_⟩
      rw [treated, resolved]
      simp [Resolution.replacement?, RequestText.withSpecifier, RequestText.of_eq, Token.quoted]
  | _ =>
      rw [treated, resolved] at changed
      cases changed

theorem Piece.LiesAt.replaced (lies : piece.LiesAt offset) {newText : Text}
    (changed : (piece.treat isFile options directory).value.newText? = some newText) :
    ∃ request front quote content back replacement,
      piece.Replaced isFile options directory request front quote content back replacement := by
  cases requests : piece.statement.request with
  | none =>
      rw [piece.treat_copied isFile options directory requests] at changed
      cases changed
  | some request =>
      obtain ⟨front, quote, content, back, quoted⟩ := lies.quoted request requests
      obtain ⟨replacement, replaced⟩ := quoted.replaced isFile options directory lies changed
      exact ⟨request, front, quote, content, back, replacement, replaced⟩

variable {isFile options directory} {replacement : Text}

theorem Piece.Replaced.replaces
    (replaced : piece.Replaced isFile options directory request front quote content back replacement) :
    Resolution.Replaces isFile options directory content.trim replacement := by
  obtain ⟨candidate, resolved⟩ := replaced.resolved
  exact Resolution.replaces_of_ofSpecifier resolved

theorem Piece.Replaced.isTrimmed
    (replaced : piece.Replaced isFile options directory request front quote content back replacement) :
    replacement.IsTrimmed := by
  obtain ⟨suffix, isSuffix, rfl⟩ := replaced.replaces.extends_
  exact content.isTrimmed_trim.append (Specifier.ne_nil_of_isLocal replaced.replaces.isLocal)
    (Specifier.stops_suffix isSuffix) (Specifier.suffix_ne_nil isSuffix)

theorem Piece.Replaced.newBody
    (replaced : piece.Replaced isFile options directory request front quote content back replacement) :
    newBody (piece, (piece.treat isFile options directory).value) =
      front ++ Token.quoted quote (content.leadingBlanks ++ replacement ++ content.trailingBlanks) ++
        back := by
  simp only [Relink.newBody, replaced.treated]
  rfl

/-- The new content means itself, as the old one does. -/
theorem Piece.Replaced.isPlain
    (replaced : piece.Replaced isFile options directory request front quote content back replacement) :
    Token.IsPlain quote (content.leadingBlanks ++ replacement ++ content.trailingBlanks) := by
  have plain := replaced.quoted.isContent.isPlain replaced.noEscape
  obtain ⟨suffix, isSuffix, rfl⟩ := replaced.replaces.extends_
  have more := Specifier.isPlain_suffix replaced.quoted.isQuote isSuffix
  rw [← Text.trim_append content] at plain
  intro c member
  simp only [List.mem_append] at member
  rcases member with (leading | own | new) | trailing
  · exact plain c (by simp [leading])
  · exact plain c (by simp [own])
  · exact more c new
  · exact plain c (by simp [trailing])

theorem Piece.Replaced.sublist
    (replaced : piece.Replaced isFile options directory request front quote content back replacement) :
    content.Sublist (content.leadingBlanks ++ replacement ++ content.trailingBlanks) := by
  obtain ⟨suffix, isSuffix, rfl⟩ := replaced.replaces.extends_
  have within : (content.leadingBlanks ++ content.trim ++ content.trailingBlanks).Sublist
      (content.leadingBlanks ++ (content.trim ++ suffix) ++ content.trailingBlanks) :=
    ((List.Sublist.refl _).append (List.sublist_append_left ..)).append (.refl _)
  rwa [Text.trim_append] at within

variable (isFile options directory)

/-- Whatever becomes of a piece, it is scanned as it was, but for the specifier. -/
theorem Piece.LiesAt.respecified (lies : piece.LiesAt offset) :
    Respecified (piece, (piece.treat isFile options directory).value) := by
  intro newText changed
  obtain ⟨request, _, _, _, _, _, replaced⟩ := lies.replaced isFile options directory changed
  refine ⟨request, replaced.quoted.requests, fun front quote content back quoted => ?_⟩
  obtain ⟨replacement, replaced⟩ := quoted.replaced isFile options directory lies changed
  rw [replaced.treated] at changed
  exact ⟨_, replaced.isPlain, replaced.sublist, (Option.some.inj changed).symm⟩

theorem newBody_kept (kept : (piece.treat isFile options directory).value.newText? = none) :
    newBody (piece, (piece.treat isFile options directory).value) = piece.body := by
  simp only [newBody, kept, Option.getD_none]

end Treat

end Relink
