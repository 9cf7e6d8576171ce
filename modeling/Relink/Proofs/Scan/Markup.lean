import Relink.Proofs.Scan.Spelling

/-!
# Elements as they are written

Trees of elements with plain text between their tags, and how they are passed over. A `>` is read together
with an equals sign behind it, so a tree in which text begins with one behind a tag is none.
-/

set_option autoImplicit false

namespace Relink

/-! ## Trees -/

/-- An identifier of ASCII characters that may name a tag. The words of the literals are reserved. -/
structure TagName where
  first : Char
  others : Text
  starts : Token.isWordStart first = true
  parts : others.all Token.isWordPart = true
  unreserved : first :: others ∉ ["true".toList, "false".toList, "null".toList]

def TagName.text (name : TagName) : Text := name.first :: name.others

/-- Characters that stand for themselves between tags, whatever is nested there. -/
def isPlainText (c : Char) : Bool := c != '{' && c != '}' && c != '<' && c != '>'

/-- Text without braces and marks of tags. -/
structure PlainText where
  text : Text
  plain : text.all isPlainText = true

mutual

/-- An element: one tag, or two tags and what stands between them. -/
inductive Markup where
  | single (name : TagName)
  | pair (name : TagName) (content : Enclosed)

/-- What stands between two tags. -/
inductive Enclosed where
  | nil
  | plain (first : PlainText) (others : Enclosed)
  | element (first : Markup) (others : Enclosed)

end

mutual

/-- An element as it is written, from behind its first character on. -/
def Markup.tail : Markup → Text
  | .single name => name.text ++ "/>".toList
  | .pair name content => name.text ++ '>' :: (content.text ++ ("</".toList ++ (name.text ++ ['>'])))

/-- How the content of an element is written. -/
def Enclosed.text : Enclosed → Text
  | .nil => []
  | .plain first others => first.text ++ others.text
  | .element first others => '<' :: (first.tail ++ others.text)

end

/-- How an element is written. -/
def Markup.text (element : Markup) : Text := '<' :: element.tail

open Scan

/-! ## Tokens of tags -/

namespace Token

/-- Where a tag begins and ends. -/
inductive IsTagMark : Punctuator → Prop where
  | left : IsTagMark .chevronLeft
  | leftSlash : IsTagMark .chevronLeftSlash
  | right : IsTagMark .chevronRight

theorem IsTagMark.read {p : Punctuator} (isMark : IsTagMark p) (mode : Mode) {rest : Text}
    (apart : Apart p rest) :
    Lexeme.read mode (p.spelling ++ rest) = .ok (.plain (.punctuator p) p.spelling rest) := by
  refine punctuator_read ?_ apart ?_
  · rintro ⟨d, more, same, -⟩
    cases isMark <;> cases same
  · cases isMark <;> exact ⟨_, _, rfl, by cases mode <;> rfl⟩

theorem IsTagMark.solid {p : Punctuator} (isMark : IsTagMark p) (rest : Text) :
    Trivia.Solid (p.spelling ++ rest) := by
  cases isMark <;> exact Trivia.solid_cons rfl fun slash => absurd slash (by decide)

end Token

/-- How a token of a tag is read. -/
structure TagRead (reader : Reader) (kind : Kind) (chars : Text) (token : Token) (after : Reader) :
    Prop where
  run : tagToken reader = .ok (token, after)
  passes : reader.Passes chars after
  isKind : token.kind = kind
  lexeme : token.lexeme = chars

theorem TagRead.of_read {reader : Reader} {kind : Kind} {chars rest : Text}
    (split : reader.rest = chars ++ rest) (solid : Trivia.Solid (chars ++ rest))
    (read : Token.Lexeme.read .tag (chars ++ rest) = .ok (.plain kind chars rest)) (noEnd : kind ≠ .eof) :
    ∃ token after, TagRead reader kind chars token after := by
  have lexed : Token.lex .tag reader.rest = .ok ⟨[], false, .plain kind chars rest⟩ := by
    rw [split, Token.lex, show Trivia.skip _ = _ from solid]
    simp only [read, Except.map]
  have passes := Reader.passes_past lexed
  rw [Token.Lexeme.whole_plain, List.nil_append] at passes
  let found : Token.Lexed := ⟨[], false, .plain kind chars rest⟩
  refine ⟨reader.tokenOf found, reader.past found, ?_, passes, rfl, rfl⟩
  refine (bind_of_ok (token_of_lex lexed) _).trans ?_
  exact congrFun (if_neg noEnd) _

theorem Reader.Passes.behind {reader after : Reader} {passed rest : Text} (passes : reader.Passes passed after)
    (split : reader.rest = passed ++ rest) : after.rest = rest :=
  List.append_cancel_left (passes.rest.symm.trans split)

theorem tagMark_read {reader : Reader} {p : Punctuator} (isMark : Token.IsTagMark p) {rest : Text}
    (split : reader.rest = p.spelling ++ rest) (apart : Token.Apart p rest) :
    ∃ token after, TagRead reader (.punctuator p) p.spelling token after :=
  TagRead.of_read split (isMark.solid rest) (isMark.read .tag apart) nofun

/-! ## Names -/

namespace TagName

variable (name : TagName)

theorem all_isWordPart : name.text.all Token.isWordPart = true := by
  have first : Token.isWordPart name.first = true := by simp [Token.isWordPart, name.starts]
  simp [text, first, name.parts]

theorem reserved {kind : Kind} (reserved : Token.reservedKind? name.text = some kind) :
    kind.isKeyword = true := by
  have plain := name.unreserved
  simp only [List.mem_cons, List.not_mem_nil, or_false, not_or] at plain
  obtain ⟨noTrue, noFalse, noNull⟩ := plain
  simp only [Token.reservedKind?, text, noTrue, noFalse, noNull, if_false] at reserved
  obtain ⟨word, -, rfl⟩ := Option.map_eq_some_iff.mp reserved
  rfl

/-- A name is read as a word: an identifier, or a keyword, which names a tag as well. -/
theorem word {rest : Text} (stops : Token.Stops (Token.isNamePart true) rest) :
    ∃ kind, (kind = .identifier ∨ kind.isKeyword = true) ∧
      Token.word true (name.text ++ rest) = (kind, name.text, rest) := by
  obtain ⟨taken, dropped⟩ := stops.wordPart.span_append name.all_isWordPart
  cases isReserved : Token.reservedKind? name.text with
  | some kind =>
      refine ⟨kind, .inr (name.reserved isReserved), ?_⟩
      simp only [Token.word, taken, isReserved, dropped]
  | none =>
      have parts : name.text.all (Token.isNamePart true) = true := by
        refine List.all_eq_true.mpr fun c member => Token.isNamePart_of_isWordPart ?_
        exact List.all_eq_true.mp name.all_isWordPart c member
      obtain ⟨takenName, droppedName⟩ := stops.span_append parts
      refine ⟨.identifier, .inl rfl, ?_⟩
      simp only [Token.word, taken, isReserved, takenName, droppedName]

theorem read {reader : Reader} {rest : Text} (split : reader.rest = name.text ++ rest)
    (stops : Token.Stops (Token.isNamePart true) rest) :
    ∃ kind token after, (kind = .identifier ∨ kind.isKeyword = true) ∧
      TagRead reader kind name.text token after := by
  have starts : (Token.isWordStart name.first || Token.isForeign name.first) = true := by
    simp [name.starts]
  obtain ⟨kind, isName, found⟩ := name.word stops
  have isRead : Token.Lexeme.read .tag (name.text ++ rest) = .ok (.plain kind name.text rest) := by
    have whole : name.text ++ rest = name.first :: (name.others ++ rest) := rfl
    rw [whole] at found ⊢
    rw [Token.Lexeme.read]
    simp only [starts, if_true, found, BEq.rfl]
  have noEnd : kind ≠ .eof := by
    rintro rfl
    rcases isName with same | same <;> cases same
  obtain ⟨token, after, is⟩ := TagRead.of_read split (Token.solid_wordStart starts (name.others ++ rest))
    isRead noEnd
  exact ⟨kind, token, after, isName, is⟩

/-- A name is read with the mark of the tag behind it. -/
theorem elementName {reader after : Reader} {token next : Token} {kind : Kind} {p : Punctuator}
    {front : Reader} (is : TagRead front kind name.text token reader)
    (isName : kind = .identifier ∨ kind.isKeyword = true)
    (mark : TagRead reader (.punctuator p) p.spelling next after)
    (noPart : p ≠ .dot ∧ p ≠ .colon) (fuel : Nat) :
    tagName (fuel + 1) token reader = .ok ((name.text, next), after) := by
  have noFragment : token.isPunctuator .chevronRight = false := by
    refine Bool.eq_false_iff.mpr fun isMark => ?_
    rw [Token.isPunctuator_iff, is.isKind] at isMark
    rw [isMark] at isName
    rcases isName with same | same <;> cases same
  have ends : (next.isPunctuator .dot || next.isPunctuator .colon) = false := by
    simp [Token.isPunctuator, mark.isKind, noPart.1, noPart.2]
  simp only [tagName, noFragment, Bool.false_eq_true, if_false, Scan.elementName, is.isKind, isName, if_true]
  refine (bind_of_ok mark.run _).trans ?_
  simp only [ends, Bool.false_eq_true, if_false, is.lexeme]
  rfl

end TagName

/-! ## Text -/

theorem isElementText_of_isPlainText {c : Char} (plain : isPlainText c = true) : isElementText c = true := by
  simp only [isPlainText, Bool.and_eq_true] at plain
  simp only [isElementText, Bool.and_eq_true]
  exact ⟨plain.1.1.1, plain.1.2⟩

theorem elementText_run {reader : Reader} {chars rest : Text} (split : reader.rest = chars ++ '<' :: rest)
    (plain : chars.all isPlainText = true) (opening : Nat) :
    ∃ after, elementText opening reader = .ok ((), after) ∧ reader.Passes chars after := by
  have stops : Token.Stops isElementText ('<' :: rest) := by simp [Token.Stops, isElementText]
  have all : chars.all isElementText = true :=
    List.all_eq_true.mpr fun c member =>
      isElementText_of_isPlainText (List.all_eq_true.mp plain c member)
  obtain ⟨taken, dropped⟩ := stops.span_append all
  refine ⟨reader.advance chars ('<' :: rest), ?_, split, rfl⟩
  simp only [elementText, split, taken, dropped]
  rfl

/-! ## Tags -/

theorem apart_right {rest : Text} (noRight : rest.head? ≠ some '>') (noEquals : rest.head? ≠ some '=') :
    Token.Apart .chevronRight rest := by
  have only : (Token.continuations .chevronRight).all (fun d => d == '>' || d == '=') = true := by
    decide +kernel
  intro d first continued
  have either : d = '>' ∨ d = '=' := by simpa using List.all_eq_true.mp only d continued
  rcases either with rfl | rfl
  · exact noRight first
  · exact noEquals first

theorem TagName.apart_left (name : TagName) (rest : Text) :
    Token.Apart .chevronLeft (name.text ++ rest) := by
  have only : (Token.continuations .chevronLeft).all (fun d => !Token.isWordStart d) = true := by
    decide +kernel
  rintro _ ⟨⟩ continued
  have noStart := List.all_eq_true.mp only _ continued
  rw [name.starts] at noStart
  cases noStart

/-- A name and the mark behind it are read as the front of a tag. -/
theorem TagName.front (name : TagName) {reader : Reader} {p : Punctuator} {rest : Text}
    (split : reader.rest = name.text ++ (p.spelling ++ rest))
    (stops : Token.Stops (Token.isNamePart true) (p.spelling ++ rest)) (noPart : p ≠ .dot ∧ p ≠ .colon)
    (mark : ∀ place : Reader, place.rest = p.spelling ++ rest →
      ∃ next after, TagRead place (.punctuator p) p.spelling next after) (fuel : Nat) :
    ∃ token middle next after, tagToken reader = .ok (token, middle) ∧
      tagName (fuel + 1) token middle = .ok ((name.text, next), after) ∧
      next.kind = .punctuator p ∧ reader.Passes (name.text ++ p.spelling) after := by
  obtain ⟨kind, token, middle, isName, is⟩ := name.read split stops
  obtain ⟨next, after, isMark⟩ := mark middle (is.passes.behind split)
  exact ⟨token, middle, next, after, is.run, name.elementName is isName isMark noPart fuel, isMark.isKind,
    is.passes.trans isMark.passes⟩

theorem tagRight_read {rest : Text} (apart : Token.Apart .chevronRight rest) (place : Reader)
    (split : place.rest = Punctuator.chevronRight.spelling ++ rest) :
    ∃ next after, TagRead place (.punctuator .chevronRight) Punctuator.chevronRight.spelling next after :=
  tagMark_read .right split apart

/-- The slash of a tag that is closed where it is opened. -/
theorem tagSlash_read (rest : Text) (place : Reader)
    (split : place.rest = Punctuator.slash.spelling ++ '>' :: rest) :
    ∃ next after, TagRead place (.punctuator .slash) Punctuator.slash.spelling next after := by
  have solid : Trivia.Solid ('/' :: '>' :: rest) :=
    Trivia.solid_cons rfl fun _ => ⟨by simp, by simp⟩
  exact TagRead.of_read split solid rfl nofun

/-- A closing tag of the same name. -/
theorem TagName.closes (name : TagName) {reader : Reader} {rest : Text}
    (split : reader.rest = name.text ++ '>' :: rest) (apart : Token.Apart .chevronRight rest)
    (opening : Token) (fuel : Nat) :
    ∃ stop after, closingTag name.text (fuel + 1) opening reader = .ok (stop, after) ∧
      reader.Passes (name.text ++ ['>']) after := by
  have stops : Token.Stops (Token.isNamePart true) ('>' :: rest) := by
    rintro _ ⟨⟩
    decide
  obtain ⟨token, middle, next, after, run, named, isRight, passes⟩ :=
    name.front (p := .chevronRight) split stops ⟨nofun, nofun⟩ (tagRight_read apart) fuel
  refine ⟨next.span, after, ?_, passes⟩
  refine (bind_of_ok run _).trans ((bind_of_ok named _).trans ?_)
  simp only [require, isRight, if_true, pure_bind]
  rfl

/-! ## Trees -/

/-- No `>` has an equals sign directly behind it. -/
def Unmixed (text : Text) : Prop := ¬ ['>', '='] <:+: text

theorem Unmixed.part {text part : Text} (unmixed : Unmixed text) (within : part <:+: text) : Unmixed part :=
  fun mixed => unmixed (mixed.trans within)

theorem Markup.tail_ends (element : Markup) : ∃ front, element.tail = front ++ ['>'] := by
  cases element with
  | single name => exact ⟨name.text ++ ['/'], by simp [Markup.tail]⟩
  | pair name content =>
      exact ⟨name.text ++ '>' :: (content.text ++ ("</".toList ++ name.text)), by simp [Markup.tail]⟩

/-- The `<` of an element is read alone. -/
theorem Markup.apart_left (element : Markup) (rest : Text) :
    Token.Apart .chevronLeft (element.tail ++ rest) := by
  cases element with
  | single name => simpa [Markup.tail] using name.apart_left ("/>".toList ++ rest)
  | pair name content =>
      rw [Markup.tail, List.append_assoc]
      exact name.apart_left _

theorem Enclosed.head?_ne : (content : Enclosed) → content.text.head? ≠ some '>'
  | .nil => nofun
  | .element first others => by simp [Enclosed.text]
  | .plain first others => by
      have plain := first.plain
      rw [Enclosed.text]
      cases shape : first.text with
      | nil => exact Enclosed.head?_ne others
      | cons c chars =>
          rw [shape, List.all_cons, Bool.and_eq_true] at plain
          rintro ⟨⟩
          exact absurd plain.1 (by decide)

/-- The `>` before the content of an element is read alone. -/
theorem Enclosed.apart {content : Enclosed} (unmixed : Unmixed ('>' :: content.text)) (behind : Text) :
    Token.Apart .chevronRight (content.text ++ '<' :: behind) := by
  cases shape : content.text with
  | nil => exact apart_right nofun nofun
  | cons c chars =>
      have noRight := content.head?_ne
      rw [shape] at noRight unmixed
      refine apart_right noRight fun isEquals => unmixed ?_
      cases isEquals
      exact ⟨[], chars, rfl⟩

/-- An element is passed over whole, within bounds on the steps. -/
def Markup.Reads (element : Markup) : Prop :=
  ∀ (substitution : Scan Unit) {fuel : Nat} {reader : Reader} {rest : Text} (opening : Token),
    element.tail.length ≤ fuel → reader.rest = element.tail ++ rest → Unmixed element.tail →
      Token.Apart .chevronRight rest →
        ∃ token after, Scan.element substitution fuel opening reader = .ok (token, after) ∧
          reader.Passes element.tail after

/-- The content of an element is passed over behind any text and through its closing tag. -/
def Enclosed.Reads (content : Enclosed) : Prop :=
  ∀ (substitution : Scan Unit) {inner fuel : Nat} (opening : Nat) {reader : Reader} {chars rest : Text}
    (name : TagName), content.text.length ≤ inner → content.text.length + 1 < fuel →
      chars.all isPlainText = true →
        reader.rest = chars ++ (content.text ++ ("</".toList ++ (name.text ++ '>' :: rest))) →
          Unmixed content.text → Token.Apart .chevronRight rest →
            ∃ stop after, children substitution (Scan.element substitution inner) name.text opening fuel
                reader = .ok (stop, after) ∧
              reader.Passes (chars ++ (content.text ++ ("</".toList ++ (name.text ++ ['>'])))) after

theorem Markup.length_tail_pos (element : Markup) : 0 < element.tail.length := by
  obtain ⟨front, ends⟩ := element.tail_ends
  rw [ends, List.length_append]
  exact Nat.succ_pos _

theorem Markup.reads_single (name : TagName) : (Markup.single name).Reads := by
  intro substitution fuel reader rest opening enough split unmixed apart
  obtain ⟨fuel, rfl⟩ : ∃ less, fuel = less + 1 :=
    Nat.exists_eq_add_one_of_ne_zero (by have := Markup.length_tail_pos (.single name); omega)
  have split : reader.rest = name.text ++ (Punctuator.slash.spelling ++ '>' :: rest) := by
    rw [split, Markup.tail, List.append_assoc]
    rfl
  have stops : Token.Stops (Token.isNamePart true) ('/' :: '>' :: rest) := by
    rintro _ ⟨⟩
    decide
  obtain ⟨token, middle, next, behind, run, named, isSlash, passes⟩ :=
    name.front (p := .slash) split stops ⟨nofun, nofun⟩ (tagSlash_read rest) fuel
  rw [← List.append_assoc] at split
  obtain ⟨close, after, isRight⟩ := tagRight_read apart behind (passes.behind split)
  have ends : attributes substitution (Scan.element substitution fuel) (fuel + 1) next behind =
      .ok (.selfClosed close.span, after) := by
    simp only [attributes, Token.isPunctuator, isSlash]
    refine (bind_of_ok isRight.run _).trans ?_
    simp only [require, isRight.isKind, if_true, pure_bind]
    rfl
  refine ⟨{ opening.upTo close.span with kind := .jsx }, after, ?_, ?_⟩
  · refine (bind_of_ok run _).trans ((bind_of_ok named _).trans ?_)
    exact (bind_of_ok (bind_of_ok ends _) _).trans rfl
  · have whole := passes.trans isRight.passes
    rw [List.append_assoc] at whole
    exact whole

theorem Markup.reads_pair (name : TagName) {content : Enclosed} (reads : content.Reads) :
    (Markup.pair name content).Reads := by
  intro substitution fuel reader rest opening enough split unmixed apart
  obtain ⟨fuel, rfl⟩ : ∃ less, fuel = less + 1 :=
    Nat.exists_eq_add_one_of_ne_zero (by have := Markup.length_tail_pos (.pair name content); omega)
  have shorter : content.text.length + 1 < fuel + 1 := by
    simp only [Markup.tail, List.length_append, List.length_cons] at enough
    omega
  let ending : Text := '/' :: (name.text ++ '>' :: rest)
  have split : reader.rest =
      name.text ++ (Punctuator.chevronRight.spelling ++ (content.text ++ '<' :: ending)) := by
    rw [split, Markup.tail]
    simp [ending, Punctuator.spelling]
  have stops : Token.Stops (Token.isNamePart true) ('>' :: (content.text ++ '<' :: ending)) := by
    rintro _ ⟨⟩
    decide
  have unmixedContent : Unmixed ('>' :: content.text) :=
    unmixed.part ⟨name.text, "</".toList ++ (name.text ++ ['>']), by simp [Markup.tail]⟩
  -- The opening tag is read up to its `>`, and the content from there through the closing tag.
  obtain ⟨token, middle, next, behind, run, named, isRight, passes⟩ :=
    name.front (p := .chevronRight) split stops ⟨nofun, nofun⟩
      (tagRight_read (Enclosed.apart unmixedContent ending)) fuel
  rw [← List.append_assoc] at split
  have deep : content.text.length ≤ fuel := by omega
  have splitContent : behind.rest =
      [] ++ (content.text ++ ("</".toList ++ (name.text ++ '>' :: rest))) := passes.behind split
  obtain ⟨stop, after, closed, inside⟩ := reads substitution opening.span.start name deep shorter rfl
    splitContent (unmixedContent.part (List.suffix_cons _ _).isInfix) apart
  have opened : attributes substitution (Scan.element substitution fuel) (fuel + 1) next behind =
      .ok (.opened, behind) := by
    simp only [attributes, Token.isPunctuator, isRight]
    rfl
  refine ⟨{ opening.upTo stop with kind := .jsx }, after, ?_, ?_⟩
  · refine (bind_of_ok run _).trans ((bind_of_ok named _).trans ?_)
    refine (bind_of_ok ?_ _).trans rfl
    exact (bind_of_ok opened _).trans closed
  · have whole := passes.trans inside
    simpa [Markup.tail, Punctuator.spelling] using whole

theorem Enclosed.reads_nil : Enclosed.nil.Reads := by
  intro substitution inner fuel opening reader chars rest name deep enough plain split unmixed apart
  obtain ⟨fuel, rfl⟩ : ∃ less, fuel = less + 2 := Nat.exists_eq_add_of_le' enough
  obtain ⟨middle, passed, passes⟩ := elementText_run split plain opening
  have apartName : Token.Apart .chevronLeftSlash (name.text ++ '>' :: rest) := by
    have none : Token.continuations .chevronLeftSlash = [] := by decide +kernel
    intro d first continued
    rw [none] at continued
    cases continued
  obtain ⟨child, behind, isLeft⟩ := tagMark_read .leftSlash (passes.behind split) apartName
  have splitName := isLeft.passes.behind (passes.behind split)
  obtain ⟨stop, after, closed, passesName⟩ := name.closes splitName apart child fuel
  refine ⟨stop, after, ?_, passes.trans (isLeft.passes.trans passesName)⟩
  refine (bind_of_ok passed _).trans ((bind_of_ok isLeft.run _).trans ?_)
  simp only [Token.isPunctuator, isLeft.isKind]
  exact closed

theorem Enclosed.reads_plain (first : PlainText) {others : Enclosed} (reads : others.Reads) :
    (Enclosed.plain first others).Reads := by
  intro substitution inner fuel opening reader chars rest name deep enough plain split unmixed apart
  rw [Enclosed.text, List.length_append] at deep enough
  rw [Enclosed.text] at unmixed
  rw [Enclosed.text, List.append_assoc, ← List.append_assoc chars] at split ⊢
  have both : (chars ++ first.text).all isPlainText = true := by
    rw [List.all_append, plain, first.plain]
    rfl
  exact reads substitution opening name (by omega) (by omega) both split
    (unmixed.part (List.suffix_append _ _).isInfix) apart

theorem Enclosed.reads_element {first : Markup} {others : Enclosed} (readsFirst : first.Reads)
    (reads : others.Reads) : (Enclosed.element first others).Reads := by
  intro substitution inner fuel opening reader chars rest name deep enough plain split unmixed apart
  obtain ⟨fuel, rfl⟩ : ∃ less, fuel = less + 1 := Nat.exists_eq_add_of_le' (by omega)
  have some := first.length_tail_pos
  rw [Enclosed.text] at split unmixed ⊢
  rw [Enclosed.text, List.length_cons, List.length_append] at deep enough
  have deepFirst : first.tail.length ≤ inner := by omega
  have deepOthers : others.text.length ≤ inner := by omega
  have shorter : others.text.length + 1 < fuel := by omega
  let ending : Text := '/' :: (name.text ++ '>' :: rest)
  have splitFirst : reader.rest = chars ++ '<' :: (first.tail ++ (others.text ++ '<' :: ending)) := by
    rw [split]
    simp [ending]
  -- The text before the element is passed over, then its `<`, then the element, and then what is left.
  obtain ⟨middle, passed, passes⟩ := elementText_run splitFirst plain opening
  obtain ⟨front, ends⟩ := first.tail_ends
  have unmixedOthers : Unmixed ('>' :: others.text) := unmixed.part ⟨'<' :: front, [], by simp [ends]⟩
  have unmixedFirst : Unmixed first.tail := unmixed.part ⟨['<'], others.text, by simp⟩
  obtain ⟨child, inside, isLeft⟩ := tagMark_read .left (passes.behind splitFirst) (first.apart_left _)
  have splitTail := isLeft.passes.behind (passes.behind splitFirst)
  obtain ⟨token, behind, element, passesFirst⟩ :=
    readsFirst substitution child deepFirst splitTail unmixedFirst (Enclosed.apart unmixedOthers ending)
  have splitOthers : behind.rest = [] ++ (others.text ++ ("</".toList ++ (name.text ++ '>' :: rest))) :=
    passesFirst.behind splitTail
  obtain ⟨stop, after, closed, passesOthers⟩ := reads substitution opening name deepOthers shorter rfl
    splitOthers (unmixedOthers.part (List.suffix_cons _ _).isInfix) apart
  refine ⟨stop, after, ?_, ?_⟩
  · refine (bind_of_ok passed _).trans ((bind_of_ok isLeft.run _).trans ?_)
    simp only [Token.isPunctuator, isLeft.isKind]
    exact (bind_of_ok element _).trans closed
  · have whole := passes.trans (isLeft.passes.trans (passesFirst.trans passesOthers))
    simpa [Punctuator.spelling] using whole

mutual

theorem Markup.reads : (element : Markup) → element.Reads
  | .single name => Markup.reads_single name
  | .pair name content => Markup.reads_pair name (Enclosed.reads content)

theorem Enclosed.reads : (content : Enclosed) → content.Reads
  | .nil => Enclosed.reads_nil
  | .plain first others => Enclosed.reads_plain first (Enclosed.reads others)
  | .element first others => Enclosed.reads_element (Markup.reads first) (Enclosed.reads others)

end

end Relink
