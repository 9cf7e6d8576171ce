import Relink.Proofs.Scan.Layout
import Relink.Proofs.Text.Trim

/-!
# Requests of pieces

The specifier of a request lies within the quotes of its statement, so a request is taken apart
unless its specifier holds a backslash or is blank.
-/

set_option autoImplicit false

namespace Relink

/-! ## Taking a request apart -/

namespace RequestText

theorem of_eq (front raw back : Text) :
    of front raw back = ⟨front, raw.leadingBlanks, raw.trim, raw.trailingBlanks, back⟩ := rfl

end RequestText

variable {offset : Nat} {piece : Piece} {request : ModuleRequest} {front content back : Text}
  {quote : Char}

theorem QuotedAt.slice {text before behind : Text}
    (quoted : QuotedAt piece.statement piece.body request front quote content back)
    (split : text = before ++ piece.body ++ behind)
    (span : piece.statement.span = ⟨before.size, before.size + piece.body.size⟩) :
    text.slice? request.specifier.start request.specifier.stop = some content := by
  have one := quote_size quoted.isQuote
  rw [quoted.specifier, span]
  refine Text.slice?_of_append (before ++ front ++ [quote]) content (quote :: back ++ behind) ?_ ?_ ?_
  · rw [split, quoted.body, Token.quoted]
    simp only [List.append_assoc, List.cons_append, List.nil_append]
  · simp [one, Nat.add_assoc]
  · simp [one, Nat.add_assoc]

theorem QuotedAt.around? (quoted : QuotedAt piece.statement piece.body request front quote content back) :
    piece.around? request.specifier = some (front ++ [quote], content, quote :: back) := by
  have one := quote_size quoted.isQuote
  have open_ : (front ++ [quote]).size = front.size + 1 := by simp [one]
  have start : request.specifier.start - piece.statement.span.start = (front ++ [quote]).size := by
    rw [quoted.specifier]
    simp only
    omega
  have stop : request.specifier.stop - piece.statement.span.start =
      (front ++ [quote] ++ content).size := by
    rw [quoted.specifier, Text.size_append]
    simp only
    omega
  have body : piece.body = front ++ [quote] ++ content ++ quote :: back := by
    rw [quoted.body, Token.quoted]
    simp only [List.append_assoc, List.cons_append, List.nil_append]
  simp only [Piece.around?, start, stop, body]
  have slice := Text.slice?_append (front ++ [quote]) content (quote :: back)
  rw [← Text.size_append] at slice
  rw [slice, Option.map_some, Text.cut_size_append, List.append_assoc (front ++ [quote]),
    Text.cut_size_append]

theorem QuotedAt.requestText
    (quoted : QuotedAt piece.statement piece.body request front quote content back)
    (lies : piece.LiesAt offset) :
    piece.requestText request.specifier =
      if content.contains '\\' then .error (.escaped content)
      else if content.trim.isEmpty then .error (.empty piece.statement.span)
      else .ok (.of (front ++ [quote]) content (quote :: back)) := by
  have size := congrArg Text.size quoted.body
  have span := lies.span
  simp only [Token.quoted, Text.size_append, Text.size_cons, Text.size_nil,
    quote_size quoted.isQuote] at size
  have within : (!piece.statement.span.contains request.specifier ||
      decide (request.specifier.stop < request.specifier.start)) = false := by
    rw [quoted.specifier, span]
    simp [Span.contains]
    omega
  rw [Piece.requestText, within, quoted.around?]
  rfl

/-! ## What becomes of a piece -/

section Treat

variable (isFile : Path → Bool) (options : Options) (directory : Path)

theorem Piece.treat_copied (other : piece.statement.request = none) :
    (piece.treat isFile options directory).value = .copied := by
  rw [Piece.treat, other]
  rfl

abbrev resolutionOf (specifier : Text) : Resolution :=
  (Resolution.ofSpecifier isFile options directory specifier).value

theorem QuotedAt.treat (quoted : QuotedAt piece.statement piece.body request front quote content back)
    (lies : piece.LiesAt offset) :
    (piece.treat isFile options directory).value =
      if content.contains '\\' then .odd (.escaped content)
      else if content.trim.isEmpty then .odd (.empty piece.statement.span)
      else .resolved ⟨content.trim, resolutionOf isFile options directory content.trim⟩
        ((resolutionOf isFile options directory content.trim).replacement?.map
          (RequestText.of (front ++ [quote]) content (quote :: back)).withSpecifier) := by
  rw [Piece.treat, quoted.requests]
  simp only [quoted.requestText lies]
  by_cases escaped : content.contains '\\' = true
  · rw [if_pos escaped, if_pos escaped]
    rfl
  by_cases empty : content.trim.isEmpty = true
  · rw [if_neg escaped, if_neg escaped, if_pos empty, if_pos empty]
    rfl
  · rw [if_neg escaped, if_neg escaped, if_neg empty, if_neg empty]
    rfl

end Treat

end Relink
