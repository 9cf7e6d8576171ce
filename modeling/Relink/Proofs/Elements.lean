import Relink.Proofs.Bracketing
import Relink.Proofs.Scan.Markup

/-!
# Elements as values

An element that is assigned is passed over whole, whatever text stands between its tags, as long as none of
it begins with an equals sign directly behind a tag.
-/

set_option autoImplicit false

namespace Relink

open Scan

/-- Where an operand is due an element is one unit. -/
theorem unit_markup (element : Markup) {depth position : Nat} {previous : Kind} {rest : Text}
    (deep : element.tail.length ≤ depth) (unmixed : Unmixed element.text)
    (apart : Token.Apart .chevronRight rest) :
    ∃ token last, unit (depth + 1) ⟨element.text ++ rest, position, true, previous⟩ = .ok (token, last) ∧
      token.kind = .jsx ∧ token.onNewLine = false ∧ last.rest = rest ∧
        last.position = position + element.text.size := by
  let reader : Reader := ⟨element.text ++ rest, position, true, previous⟩
  let found : Token.Lexed := ⟨[], false, .plain (.punctuator .chevronLeft) ['<'] (element.tail ++ rest)⟩
  have lexed : Token.lex reader.mode reader.rest = .ok found := by
    have solid : Trivia.Solid ('<' :: (element.tail ++ rest)) :=
      Token.IsTagMark.left.solid (element.tail ++ rest)
    have read := Token.IsTagMark.left.read .operand (element.apart_left rest)
    show Token.lex .operand ('<' :: (element.tail ++ rest)) = _
    rw [Token.lex, show Trivia.skip _ = _ from solid]
    exact congrArg (Except.map _) read
  have unmixedTail : Unmixed element.tail := unmixed.part (List.suffix_cons _ _).isInfix
  have place : (reader.past found).rest = element.tail ++ rest := rfl
  obtain ⟨whole, after, passed, passes⟩ :=
    element.reads (substitution (unit depth) depth) (reader.tokenOf found) deep place unmixedTail apart
  obtain rfl := element_eq passed
  let whole : Token := ⟨.jsx, ⟨position, after.position⟩, ['<'], false⟩
  have size : after.position = position + element.text.size := by
    have one : Char.utf8Size '<' = 1 := by decide
    rw [passes.position, Markup.text, Text.size_cons, one, ← Nat.add_assoc]
    rfl
  have folds : foldUnit (unit depth) depth previous true (reader.tokenOf found) (reader.past found) =
      .ok (whole, { after with operand := false, previous := .jsx }) :=
    (bind_of_ok passed _).trans rfl
  refine ⟨whole, { after with operand := false, previous := .jsx }, ?_, rfl, rfl, passes.behind place, size⟩
  rw [unit, unitOver_run]
  exact (bind_of_ok (token_of_lex lexed) _).trans folds

/-- An element is a value as a whole. -/
theorem split_element (element : Markup) (unmixed : Unmixed element.text) :
    Statement.split ("x = ".toList ++ element.text ++ ";".toList) =
      .ok [.other ⟨0, Text.size ("x = ".toList ++ element.text ++ ";".toList)⟩] := by
  have apart : Token.Apart .chevronRight [';'] := apart_right (by decide) (by decide)
  have deep : element.tail.length ≤ (element.text ++ ";".toList).length + 5 := by
    have length : element.text.length = element.tail.length + 1 := rfl
    rw [List.length_append]
    omega
  rw [List.append_assoc, size_assigned]
  obtain ⟨token, behind, read, isElement, noBreak, rest, position⟩ :=
    @unit_markup element _ 4 (.punctuator .equals) _ deep unmixed apart
  obtain ⟨final, whole, ended⟩ :=
    simple_value read (by rw [isElement]; rfl) noBreak rest
  obtain ⟨next, past, readEnd, isEnd⟩ :=
    @unit_end ((element.text ++ ";".toList).length + 6) (Nat.succ_pos _) final (ended ▸ .nil)
  refine split_assigned_iff.mpr ⟨next, past, ?_, isEnd⟩
  have finish : (Reader.atValue (element.text ++ ";".toList)).finish = behind.position + 1 := by
    have one : Text.size ";".toList = 1 := by decide
    rw [position, Reader.finish, Text.size_append, one]
    rfl
  rw [finish]
  exact (bind_of_ok whole _).trans (bind_of_ok readEnd _)

/-- Elements within an element, with quotes, slashes and a comment mark between the tags. -/
def nestedMarkup : Markup :=
  .pair ⟨'d', "iv".toList, rfl, rfl, by decide⟩
    (.plain ⟨" it's // a = b\n".toList, rfl⟩
      (.element (.single ⟨'b', "r".toList, rfl, rfl, by decide⟩)
        (.element (.pair ⟨'p', [], rfl, rfl, by decide⟩ (.plain ⟨"/*".toList, rfl⟩ .nil)) .nil)))

theorem split_element_nested : Unmixed nestedMarkup.text ∧
    Statement.split ("x = ".toList ++ nestedMarkup.text ++ ";".toList) =
      .ok [.other ⟨0, Text.size ("x = ".toList ++ nestedMarkup.text ++ ";".toList)⟩] := by
  have unmixed : Unmixed nestedMarkup.text := by
    unfold Unmixed
    decide
  exact ⟨unmixed, split_element nestedMarkup unmixed⟩

/-- An equals sign directly behind a tag is read with the `>` of the tag. -/
example : (Statement.split "x = <a>=</a>;".toList).isOk = false := by decide +kernel

end Relink
