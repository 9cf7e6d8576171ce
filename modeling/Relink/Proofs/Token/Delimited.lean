import Relink.Proofs.Token.Run

/-!
# Delimited tokens

Strings, regular expressions and template parts end with a delimiter of their own. What stands behind
it does not matter to them, the flags of a regular expression excepted.
-/

set_option autoImplicit false

namespace Relink.Token

/-! ## Strings, regular expressions and templates -/

theorem prepend_eq_ok {α : Type} {chars whole : Text} {read : Except Fault (Text × α)} {found : α}
    (result : prepend chars read = .ok (whole, found)) :
    ∃ inner, read = .ok (inner, found) ∧ whole = chars ++ inner := by
  cases read with
  | error fault => cases result
  | ok parts =>
      obtain ⟨inner, value⟩ := parts
      cases result
      exact ⟨inner, rfl, rfl⟩

@[simp] theorem prepend_ok {α : Type} (chars inner : Text) (found : α) :
    prepend chars (.ok (inner, found)) = .ok (chars ++ inner, found) := rfl

/-- Whether a mark occurs that no backslash takes along. -/
def hasUnescaped (mark : Char) : Text → Bool
  | [] => false
  | '\\' :: [] => false
  | '\\' :: _ :: rest => hasUnescaped mark rest
  | c :: rest => c == mark || hasUnescaped mark rest

/-- What may stand between two quotes: a quote or a line feed only behind a backslash. -/
structure IsContent (quote : Char) (content : Text) : Prop where
  noQuote : hasUnescaped quote content = false
  noBreak : hasUnescaped '\n' content = false

theorem not_escape {c : Char} {rest : Text} (notLast : c = '\\' → rest = [] → False)
    (notPair : ∀ d after, c = '\\' → rest = d :: after → False) : c ≠ '\\' := by
  intro escape
  cases rest with
  | nil => exact notLast escape rfl
  | cons d after => exact notPair d after escape rfl

theorem stringBody_cons {quote c : Char} (notEscape : c ≠ '\\') (rest : Text) :
    stringBody quote (c :: rest) =
      if c = '\n' then .error .lineBreakInString
      else if c = quote then .ok ([c], rest)
      else prepend [c] (stringBody quote rest) := by
  cases rest <;> simp [stringBody, notEscape]

theorem hasUnescaped_cons {mark c : Char} (notEscape : c ≠ '\\') (rest : Text) :
    hasUnescaped mark (c :: rest) = (c == mark || hasUnescaped mark rest) := by
  cases rest <;> simp [hasUnescaped, notEscape]

/-- A string ends with its quote, of which none stands unescaped before, and nothing behind it
matters. -/
theorem stringBody_extent {quote : Char} {text chars rest : Text}
    (found : stringBody quote text = .ok (chars, rest)) :
    chars ++ rest = text ∧
      (∃ content, chars = content ++ [quote] ∧ IsContent quote content) ∧
      ∀ other : Text, stringBody quote (chars ++ other) = .ok (chars, other) := by
  fun_induction stringBody quote text generalizing chars rest with
  | case1 => cases found
  | case2 => cases found
  | case3 c after ih =>
      obtain ⟨inner, body, rfl⟩ := prepend_eq_ok found
      obtain ⟨split, ⟨content, rfl, clean⟩, congr⟩ := ih body
      refine ⟨by simp [← split], ⟨'\\' :: c :: content, rfl, clean.noQuote, clean.noBreak⟩, ?_⟩
      · intro other
        have again := congr other
        simp only [List.append_assoc, List.cons_append, List.nil_append] at again ⊢
        simp [stringBody, again]
  | case4 => cases found
  | case5 after notLast notPair notBreak =>
      cases found
      refine ⟨rfl, ⟨[], rfl, rfl, rfl⟩, ?_⟩
      intro other
      simp [stringBody_cons (not_escape notLast notPair), notBreak]
  | case6 c after notLast notPair notBreak notQuote ih =>
      have notEscape := not_escape notLast notPair
      obtain ⟨inner, body, rfl⟩ := prepend_eq_ok found
      obtain ⟨split, ⟨content, rfl, clean⟩, congr⟩ := ih body
      refine ⟨by simp [← split], ⟨c :: content, rfl, ?_, ?_⟩, ?_⟩
      · simp [hasUnescaped_cons notEscape, notQuote, clean.noQuote]
      · simp [hasUnescaped_cons notEscape, notBreak, clean.noBreak]
      · intro other
        have again := congr other
        simp only [List.append_assoc, List.cons_append, List.nil_append] at again ⊢
        simp [stringBody_cons notEscape, notBreak, notQuote, again]

/-- The inside of a string as it is written: a backslash takes the next character along, and neither a quote
nor a line feed stands there without one. -/
inductive IsInside (quote : Char) : Text → Prop where
  | nil : IsInside quote []
  | escaped {c : Char} {rest : Text} : IsInside quote rest → IsInside quote ('\\' :: c :: rest)
  | plain {c : Char} {rest : Text} : c ≠ '\\' → c ≠ '\n' → c ≠ quote → IsInside quote rest →
      IsInside quote (c :: rest)

theorem stringBody_inside {quote : Char} {content : Text} (notEscape : quote ≠ '\\')
    (notBreak : quote ≠ '\n') (inside : IsInside quote content) (rest : Text) :
    stringBody quote (content ++ quote :: rest) = .ok (content ++ [quote], rest) := by
  induction inside with
  | nil => simp [stringBody_cons notEscape, notBreak]
  | escaped _ ih => simp [stringBody, ih]
  | plain noEscape noBreak noQuote _ ih => simp [stringBody_cons noEscape, noBreak, noQuote, ih]

theorem regexBody_cons {c : Char} (inClass : Bool) (notEscape : c ≠ '\\') (rest : Text) :
    regexBody inClass (c :: rest) =
      if c = '\n' then .error .lineBreakInRegex
      else if c = '/' ∧ inClass = false then .ok ([c], rest)
      else prepend [c]
        (regexBody (if c = '[' then true else if c = ']' then false else inClass) rest) := by
  cases rest <;> simp [regexBody, notEscape]

theorem regexBody_extent {inClass : Bool} {text chars rest : Text}
    (found : regexBody inClass text = .ok (chars, rest)) :
    chars ++ rest = text ∧ (∃ body, chars = body ++ ['/']) ∧
      ∀ other : Text, regexBody inClass (chars ++ other) = .ok (chars, other) := by
  fun_induction regexBody inClass text generalizing chars rest with
  | case1 => cases found
  | case2 => cases found
  | case3 inClass c after ih =>
      obtain ⟨inner, body, rfl⟩ := prepend_eq_ok found
      obtain ⟨split, ⟨content, rfl⟩, congr⟩ := ih body
      refine ⟨by simp [← split], ⟨'\\' :: c :: content, rfl⟩, ?_⟩
      intro other
      have again := congr other
      simp only [List.append_assoc, List.cons_append, List.nil_append] at again ⊢
      simp [regexBody, again]
  | case4 => cases found
  | case5 inClass c after notLast notPair notBreak closes =>
      cases found
      obtain ⟨rfl, rfl⟩ := closes
      refine ⟨rfl, ⟨[], rfl⟩, ?_⟩
      intro other
      simp [regexBody_cons false (not_escape notLast notPair)]
  | case6 inClass c after notLast notPair notBreak goesOn ih =>
      have notEscape := not_escape notLast notPair
      obtain ⟨inner, body, rfl⟩ := prepend_eq_ok found
      obtain ⟨split, ⟨content, rfl⟩, congr⟩ := ih body
      refine ⟨by simp [← split], ⟨c :: content, rfl⟩, ?_⟩
      intro other
      have again := congr other
      simp only [List.append_assoc, List.cons_append, List.nil_append] at again ⊢
      rw [regexBody_cons inClass notEscape, if_neg notBreak, if_neg goesOn, again]
      rfl

theorem regex_extent {text chars rest : Text} (found : regex text = .ok (chars, rest)) :
    chars ++ rest = text ∧ chars ≠ [] ∧ ¬ Text.Sealed chars ∧
      ∀ other : Text, Text.EndsLike rest other → regex (chars ++ other) = .ok (chars, other) := by
  cases bodyFound : regexBody false text with
  | error fault => simp [regex, bodyFound] at found
  | ok parts =>
      obtain ⟨body, behind⟩ := parts
      obtain ⟨bodySplit, ⟨content, rfl⟩, bodyCongr⟩ := regexBody_extent bodyFound
      simp only [regex, bodyFound, spanWhile, Except.ok.injEq, Prod.mk.injEq] at found
      obtain ⟨rfl, rfl⟩ := found
      have flagsSplit := List.takeWhile_append_dropWhile (p := isWordPart) (l := behind)
      refine ⟨by rw [List.append_assoc, flagsSplit, bodySplit], by simp, ?_, ?_⟩
      · intro closed
        rw [List.append_assoc] at closed
        have flagsUnsealed := unsealed_cons (c := '/') (by decide)
          (unsealed_takeWhile isWordPart_limits behind)
        exact flagsUnsealed.not_sealed (closed.of_append (by simp))
      · intro other same
        have flagsAgain := (spanWhile_extent isWordPart_limits behind).again other same
        rw [List.append_assoc, regex, bodyCongr]
        simp only [flagsAgain]

theorem templatePart_cons {c : Char} {rest : Text} (notEnd : c ≠ '\x60') (notEscape : c ≠ '\\')
    (noSubstitution : c = '$' → rest.head? ≠ some '{') :
    templatePart (c :: rest) = prepend [c] (templatePart rest) := by
  cases rest with
  | nil => simp [templatePart, notEscape]
  | cons d after =>
      by_cases dollar : c = '$'
      · have notBrace : d ≠ '{' := by simpa using noSubstitution dollar
        simp [templatePart, notEscape, notBrace]
      · simp [templatePart, notEscape, dollar]

/-- The characters of a template part, with the delimiter that ends it. -/
theorem templatePart_extent {text chars closing rest : Text} {ending : Literal}
    (found : templatePart text = .ok (chars, ending, closing, rest)) :
    chars ++ closing ++ rest = text ∧ closing ≠ [] ∧
      (ending = .template ∧ closing = ['\x60'] ∨ ending = .templateHead) ∧
      ∀ other : Text,
        templatePart (chars ++ closing ++ other) = .ok (chars, ending, closing, other) := by
  fun_induction templatePart text generalizing chars closing ending rest with
  | case1 => cases found
  | case2 after =>
      cases found
      exact ⟨rfl, by simp, .inl ⟨rfl, rfl⟩, fun other => rfl⟩
  | case3 after =>
      cases found
      exact ⟨rfl, by simp, .inr rfl, fun other => rfl⟩
  | case4 => cases found
  | case5 c after ih =>
      obtain ⟨inner, part, rfl⟩ := prepend_eq_ok found
      obtain ⟨split, nonempty, marks, congr⟩ := ih part
      refine ⟨by simp [← split], nonempty, marks, ?_⟩
      intro other
      have again := congr other
      simp only [List.append_assoc, List.cons_append, List.nil_append] at again ⊢
      simp [templatePart, again]
  | case6 c after notEnd notHead notLast notPair ih =>
      have notEscape := not_escape notLast notPair
      obtain ⟨inner, part, rfl⟩ := prepend_eq_ok found
      obtain ⟨split, nonempty, marks, congr⟩ := ih part
      refine ⟨by simp [← split], nonempty, marks, ?_⟩
      intro other
      have again := congr other
      have sameFirst : ((inner ++ closing) ++ other).head? = after.head? := by
        rw [← split]
        cases shape : inner ++ closing with
        | nil => exact absurd (List.append_eq_nil_iff.mp shape).2 nonempty
        | cons d front => rfl
      have noSubstitution : c = '$' → ((inner ++ closing) ++ other).head? ≠ some '{' := by
        intro dollar brace
        obtain ⟨rest, shape⟩ := eq_cons_of_head? (sameFirst.symm.trans brace)
        exact notHead rest dollar shape
      have next := templatePart_cons notEnd notEscape noSubstitution
      rw [again] at next
      exact next

end Relink.Token
