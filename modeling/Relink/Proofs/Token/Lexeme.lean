import Relink.Proofs.Token.Delimited
import Relink.Proofs.Token.Punctuation
import Relink.Token.Lexer

/-!
# Extent of lexemes

A lexeme is a leading part of its text. It is the same in every text that goes on alike behind it,
and one that ends with a closing mark is the same whatever follows.
-/

set_option autoImplicit false

namespace Relink.Token

/-! ## Classes -/

/-- The classes of tokens, as their first two characters tell them. -/
inductive LexemeClass where
  | word | number | string | template | privateName | comment | regex | punctuator
deriving DecidableEq

/-- The class of a token that begins with `c` and goes on with `next`. -/
def LexemeClass.of (mode : Mode) (c : Char) (next : Option Char) : LexemeClass :=
  if isWordStart c || isForeign c then .word
  else if c.isDigit || (c == '.' && next.any Char.isDigit) then .number
  else if c == '\x22' || c == '\x27' then .string
  else if c == '\x60' then .template
  else if c == '#' then .privateName
  else if c == '/' && next == some '*' then .comment
  else if c == '/' && mode == .operand then .regex
  else .punctuator

def Lexeme.readAs (c : Char) (rest : Text) (mode : Mode) : LexemeClass → Except Fault Lexeme
  | .word =>
    let found := word (mode == .tag) (c :: rest)
    .ok (.plain found.1 found.2.1 found.2.2)
  | .number => (number (c :: rest)).map fun found => .plain found.1 found.2.1 found.2.2
  | .string => (stringBody c rest).map fun found => .plain (.literal .string) (c :: found.1) found.2
  | .template =>
    (templatePart rest).map fun found =>
      ⟨.literal found.2.1, ['\x60'], found.1, found.2.2.1, found.2.2.2⟩
  | .privateName => (privateName rest).map fun found => .plain .privateName (c :: found.1) found.2
  | .comment => .error .noToken
  | .regex => (regex rest).map fun found => .plain (.literal .regex) (c :: found.1) found.2
  | .punctuator =>
    match punctuator? (c :: rest) with
    | some p => .ok (.plain (.punctuator p) p.spelling ((c :: rest).drop p.spelling.length))
    | none => .error .noToken

theorem Lexeme.read_cons (mode : Mode) (c : Char) (rest : Text) :
    Lexeme.read mode (c :: rest) = Lexeme.readAs c rest mode (.of mode c rest.head?) := by
  simp only [LexemeClass.of, apply_ite (Lexeme.readAs c rest mode)]
  rfl

theorem LexemeClass.of_seal (mode : Mode) {c : Char} (mark : Text.isSeal c = true)
    (next other : Option Char) : LexemeClass.of mode c next = LexemeClass.of mode c other := by
  rw [Text.isSeal_iff] at mark
  rcases mark with rfl | rfl | rfl | rfl | rfl | rfl | rfl <;> rfl

theorem LexemeClass.of_endsLike (mode : Mode) (c : Char) {left right : Text}
    (same : Text.EndsLike left right) :
    LexemeClass.of mode c left.head? = LexemeClass.of mode c right.head? := by
  cases left with
  | nil => rw [same.eq_nil]
  | cons d left =>
      obtain ⟨e, right, rfl, digit⟩ := same.test excludesLimits_isDigit (c := d) rfl
      have excludesStar : ExcludesLimits (· == '*') := excludesLimits_of_all (by decide)
      obtain ⟨_, _, shape, star⟩ := same.test excludesStar (c := d) rfl
      cases shape
      have sameStar : (some e == some '*') = (some d == some '*') := star
      have sameDigit : (some e).any Char.isDigit = (some d).any Char.isDigit := digit
      rw [List.head?_cons, List.head?_cons, LexemeClass.of, LexemeClass.of, sameStar, sameDigit]

/-- What the first character of a token of a class is. -/
def LexemeClass.Starts (c : Char) : LexemeClass → Prop
  | .word => (isWordStart c || isForeign c) = true
  | .number => c.isDigit = true ∨ c = '.'
  | .string => c = '\x22' ∨ c = '\x27'
  | .template => c = '\x60'
  | .privateName => c = '#'
  | .comment | .regex => c = '/'
  | .punctuator => True

theorem LexemeClass.of_starts (mode : Mode) (c : Char) (next : Option Char) :
    (LexemeClass.of mode c next).Starts c := by
  unfold LexemeClass.of
  split
  · assumption
  split
  · rename_i digit
    simp only [Bool.or_eq_true, Bool.and_eq_true, beq_iff_eq] at digit
    exact digit.imp_right And.left
  split
  · rename_i quote
    simpa [Starts] using quote
  split
  · rename_i tick
    simpa [Starts] using tick
  split
  · rename_i mark
    simpa [Starts] using mark
  split
  · rename_i slash
    simp only [Bool.and_eq_true, beq_iff_eq] at slash
    exact slash.1
  split
  · rename_i slash
    simp only [Bool.and_eq_true, beq_iff_eq] at slash
    exact slash.1
  · trivial

/-! ## Extents -/

namespace Lexeme

/-- All characters of a lexeme, its delimiters included. -/
def whole (lexeme : Lexeme) : Text := lexeme.opening ++ lexeme.chars ++ lexeme.closing

@[simp] theorem whole_plain (kind : Kind) (chars rest : Text) :
    (plain kind chars rest).whole = chars := by
  simp [whole, plain]

@[simp] theorem kind_plain (kind : Kind) (chars rest : Text) : (plain kind chars rest).kind = kind :=
  rfl

@[simp] theorem rest_plain (kind : Kind) (chars rest : Text) : (plain kind chars rest).rest = rest :=
  rfl

/-- The forms of lexemes. Only templates have delimiters outside of their characters. -/
inductive Form : Lexeme → Prop where
  | run {kind : Kind} {chars rest : Text} : isRunKind kind = true → ¬ Text.Sealed chars →
      Form (plain kind chars rest)
  | string {quote : Char} {content rest : Text} :
      quote = '\x22' ∨ quote = '\x27' → IsContent quote content →
      Form (plain (.literal .string) (quote :: content ++ [quote]) rest)
  | template {ending : Literal} {chars closing rest : Text} :
      (ending = .template ∧ closing = ['\x60'] ∨ ending = .templateHead) →
      Form ⟨.literal ending, ['\x60'], chars, closing, rest⟩
  | punctuator {p : Punctuator} {rest : Text} : Form (plain (.punctuator p) p.spelling rest)

/-- What every lexeme that is read from the front of a text is like. -/
structure Extent (mode : Mode) (text : Text) (lexeme : Lexeme) : Prop where
  split : lexeme.whole ++ lexeme.rest = text
  nonempty : lexeme.whole ≠ []
  form : Form lexeme
  /-- Nothing of the text behind it but how that begins is seen. -/
  congr : ∀ other : Text, Text.Alike lexeme.rest other ∨ Text.Sealed lexeme.whole →
    read mode (lexeme.whole ++ other) = .ok { lexeme with rest := other }

theorem class_congr (mode : Mode) (c : Char) (chars : Text) {rest other : Text}
    (fits : Text.Alike rest other ∨ Text.Sealed (c :: chars)) :
    LexemeClass.of mode c (chars ++ rest).head? = LexemeClass.of mode c (chars ++ other).head? := by
  rcases fits with alike | closed
  · exact LexemeClass.of_endsLike mode c (alike.1.append chars)
  · cases chars with
    | cons d chars => rfl
    | nil =>
        obtain ⟨front, mark, shape, isMark⟩ := closed
        obtain ⟨-, final⟩ := List.append_inj' (show [] ++ [c] = front ++ [mark] from shape) rfl
        cases final
        exact LexemeClass.of_seal mode isMark _ _

/-- The extent of a lexeme follows from its extent within its class. -/
theorem Extent.of_readAs {mode : Mode} {c : Char} {chars : Text} {lexeme : Lexeme}
    {kind : LexemeClass} (isClass : LexemeClass.of mode c (chars ++ lexeme.rest).head? = kind)
    (whole : lexeme.whole = c :: chars) (form : Form lexeme)
    (again : ∀ other : Text, Text.Alike lexeme.rest other ∨ Text.Sealed (c :: chars) →
      readAs c (chars ++ other) mode kind = .ok { lexeme with rest := other }) :
    Extent mode (c :: (chars ++ lexeme.rest)) lexeme where
  split := by rw [whole]; rfl
  nonempty := by simp [whole]
  form := form
  congr := by
    intro other fits
    rw [whole] at fits ⊢
    rw [List.cons_append, read_cons, ← class_congr mode c chars fits, isClass]
    exact again other fits

/-! ## Classes by name -/

variable {mode : Mode} {c : Char} {text : Text} {lexeme : Lexeme}

theorem not_sealed_cons {chars : Text} (unsealed : Text.Unsealed (c :: chars)) {alike : Prop}
    (fits : alike ∨ Text.Sealed (c :: chars)) : alike :=
  fits.resolve_right unsealed.not_sealed

theorem extent_word (isClass : LexemeClass.of mode c text.head? = .word)
    (starts : (isWordStart c || isForeign c) = true)
    (found : readAs c text mode .word = .ok lexeme) : Extent mode (c :: text) lexeme := by
  cases parts : word (mode == .tag) (c :: text) with
  | mk kind more =>
  obtain ⟨chars, rest⟩ := more
  obtain ⟨split, unsealed, congr⟩ := word_extent parts
  have run := word_isRunKind (mode == .tag) (c :: text)
  rw [parts] at run
  simp only [readAs, parts, Except.ok.injEq] at found
  subst found
  cases chars with
  | nil => exact absurd rfl (word_chars_ne_nil parts starts)
  | cons d chars =>
      obtain ⟨rfl, rfl⟩ := List.cons.inj split
      apply Lexeme.Extent.of_readAs isClass (whole_plain ..) (.run run unsealed.not_sealed)
      intro other fits
      have alike := not_sealed_cons unsealed fits
      simp only [readAs, ← List.cons_append, congr other alike.1]
      rfl

theorem extent_number (isClass : LexemeClass.of mode c text.head? = .number)
    (starts : c.isDigit = true ∨ c = '.')
    (found : readAs c text mode .number = .ok lexeme) : Extent mode (c :: text) lexeme := by
  cases parts : number (c :: text) with
  | error fault => simp [readAs, parts, Except.map] at found
  | ok more =>
      obtain ⟨kind, chars, rest⟩ := more
      obtain ⟨split, unsealed, congr⟩ := number_extent parts
      simp only [readAs, parts, Except.map, Except.ok.injEq] at found
      subst found
      cases chars with
      | nil => exact absurd rfl (number_chars_ne_nil parts starts)
      | cons d chars =>
          obtain ⟨rfl, rfl⟩ := List.cons.inj split
          refine .of_readAs isClass (whole_plain ..)
            (.run (number_isRunKind parts) unsealed.not_sealed) fun other fits => ?_
          have alike := not_sealed_cons unsealed fits
          simp only [readAs, ← List.cons_append, congr other alike.1]
          rfl

theorem extent_string (isClass : LexemeClass.of mode c text.head? = .string)
    (isQuote : c = '\x22' ∨ c = '\x27')
    (found : readAs c text mode .string = .ok lexeme) : Extent mode (c :: text) lexeme := by
  cases parts : stringBody c text with
  | error fault => simp [readAs, parts, Except.map] at found
  | ok more =>
      obtain ⟨chars, rest⟩ := more
      obtain ⟨rfl, ⟨content, rfl, clean⟩, congr⟩ := stringBody_extent parts
      simp only [readAs, parts, Except.map, Except.ok.injEq] at found
      subst found
      refine .of_readAs isClass (whole_plain ..) (.string isQuote clean) fun other _ => ?_
      simp only [readAs, congr other]
      rfl

theorem extent_template (isClass : LexemeClass.of mode c text.head? = .template)
    (isTick : c = '\x60')
    (found : readAs c text mode .template = .ok lexeme) : Extent mode (c :: text) lexeme := by
  cases parts : templatePart text with
  | error fault => simp [readAs, parts, Except.map] at found
  | ok more =>
      obtain ⟨chars, ending, closing, rest⟩ := more
      obtain ⟨rfl, -, marks, congr⟩ := templatePart_extent parts
      simp only [readAs, parts, Except.map, Except.ok.injEq] at found
      subst found isTick
      refine .of_readAs isClass rfl (.template marks) fun other _ => ?_
      simp only [readAs, congr other]
      rfl

theorem extent_privateName (isClass : LexemeClass.of mode c text.head? = .privateName)
    (isMark : c = '#')
    (found : readAs c text mode .privateName = .ok lexeme) : Extent mode (c :: text) lexeme := by
  cases parts : privateName text with
  | error fault => simp [readAs, parts, Except.map] at found
  | ok more =>
      obtain ⟨chars, rest⟩ := more
      obtain ⟨rfl, unsealed, congr⟩ := privateName_extent parts
      simp only [readAs, parts, Except.map, Except.ok.injEq] at found
      subst found
      have noSeal := unsealed_cons (show Text.isSeal c = false by subst isMark; decide) unsealed
      apply Lexeme.Extent.of_readAs isClass (whole_plain ..) (.run rfl noSeal.not_sealed)
      intro other fits
      have alike := not_sealed_cons noSeal fits
      simp only [readAs, congr other alike.1]
      rfl

theorem extent_regex (isClass : LexemeClass.of mode c text.head? = .regex)
    (found : readAs c text mode .regex = .ok lexeme) : Extent mode (c :: text) lexeme := by
  cases parts : regex text with
  | error fault => simp [readAs, parts, Except.map] at found
  | ok more =>
      obtain ⟨chars, rest⟩ := more
      obtain ⟨rfl, nonempty, notSealed, congr⟩ := regex_extent parts
      simp only [readAs, parts, Except.map, Except.ok.injEq] at found
      subst found
      have noSeal : ¬ Text.Sealed (c :: chars) := fun closed =>
        notSealed (Text.Sealed.of_append (show Text.Sealed ([c] ++ chars) from closed) nonempty)
      apply Lexeme.Extent.of_readAs isClass (whole_plain ..) (.run rfl noSeal)
      intro other fits
      have alike := fits.resolve_right noSeal
      simp only [readAs, congr other alike.1]
      rfl

theorem extent_punctuator (isClass : LexemeClass.of mode c text.head? = .punctuator)
    (found : readAs c text mode .punctuator = .ok lexeme) : Extent mode (c :: text) lexeme := by
  cases parts : punctuator? (c :: text) with
  | none => simp [readAs, parts] at found
  | some p =>
      obtain ⟨rest, split⟩ := punctuator?_stands parts
      cases shape : p.spelling with
      | nil => exact absurd shape (spelling_ne_nil p)
      | cons d chars =>
          rw [shape, List.cons_append, List.cons.injEq] at split
          obtain ⟨rfl, rfl⟩ := split
          have dropped (other : Text) : (d :: (chars ++ other)).drop p.spelling.length = other := by
            rw [shape, ← List.cons_append, List.drop_left]
          simp only [readAs, parts, dropped, Except.ok.injEq] at found
          subst found
          apply Lexeme.Extent.of_readAs isClass (by rw [whole_plain, shape]) .punctuator
          intro other fits
          have again : punctuator? (d :: (chars ++ other)) = some p := by
            rw [← List.cons_append, ← shape] at parts ⊢
            rw [← shape] at fits
            exact punctuator?_congr parts fits
          simp only [readAs, again, dropped]
          rfl

end Lexeme

/-- Whatever is read is a leading part of the text, and the end of the text is read of no other. -/
theorem Lexeme.read_extent {mode : Mode} {text : Text} {lexeme : Lexeme}
    (found : Lexeme.read mode text = .ok lexeme) :
    (text = [] ∧ lexeme = .plain .eof [] []) ∨ Lexeme.Extent mode text lexeme := by
  cases text with
  | nil =>
      cases found
      exact .inl ⟨rfl, rfl⟩
  | cons c text =>
      right
      rw [Lexeme.read_cons] at found
      have starts := LexemeClass.of_starts mode c text.head?
      cases isClass : LexemeClass.of mode c text.head? with
      | word =>
          rw [isClass] at found starts
          exact Lexeme.extent_word isClass starts found
      | number =>
          rw [isClass] at found starts
          exact Lexeme.extent_number isClass starts found
      | string =>
          rw [isClass] at found starts
          exact Lexeme.extent_string isClass starts found
      | template =>
          rw [isClass] at found starts
          exact Lexeme.extent_template isClass starts found
      | privateName =>
          rw [isClass] at found starts
          exact Lexeme.extent_privateName isClass starts found
      | comment =>
          rw [isClass] at found
          cases found
      | regex =>
          rw [isClass] at found
          exact Lexeme.extent_regex isClass found
      | punctuator =>
          rw [isClass] at found
          exact Lexeme.extent_punctuator isClass found

end Relink.Token
