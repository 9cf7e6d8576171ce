import Relink.Proofs.Scan.Quoted
import Relink.Proofs.Scan.Semicolon
import Relink.Proofs.Token.Trivia

/-!
# Written tokens

Words, strings and marks as they are written, and how they are read where they stand: each behind its gap
and apart from what stands behind it.
-/

set_option autoImplicit false

namespace Relink

open Scan

namespace Token

/-! ## Words -/

/-- Words: the reserved ones, and names of which the ASCII characters at the front are no reserved word. -/
inductive IsWord : Kind → Text → Prop where
  | reserved {kind : Kind} {chars : Text} : reservedKind? chars = some kind → IsWord kind chars
  | name {c : Char} {rest : Text} : (isWordStart c || isForeign c) = true →
      rest.all (isNamePart false) = true → reservedKind? ((c :: rest).takeWhile isWordPart) = none →
        IsWord .identifier (c :: rest)

theorem ascii_of_reserved {kind : Kind} {chars : Text} (reserved : reservedKind? chars = some kind) :
    isRunKind kind = true ∧ chars.all isWordPart = true ∧
      ∃ c rest, chars = c :: rest ∧ isWordStart c = true := by
  simp only [reservedKind?] at reserved
  split at reserved
  · rename_i same
    cases reserved
    exact ⟨rfl, same ▸ rfl, _, _, same, rfl⟩
  split at reserved
  · rename_i same
    cases reserved
    exact ⟨rfl, same ▸ rfl, _, _, same, rfl⟩
  split at reserved
  · rename_i same
    cases reserved
    exact ⟨rfl, same ▸ rfl, _, _, same, rfl⟩
  obtain ⟨word, found, rfl⟩ := Option.map_eq_some_iff.mp reserved
  have spelled := List.find?_some (show Keyword.all.find? (·.spelling == chars) = some word from found)
  obtain rfl : word.spelling = chars := beq_iff_eq.mp spelled
  refine ⟨rfl, ?_, ?_⟩
  · cases word <;> rfl
  · cases word <;> exact ⟨_, _, rfl, rfl⟩

theorem Stops.span_append {test : Char → Bool} {rest : Text} (stops : Stops test rest) {front : Text}
    (all : front.all test = true) :
    (front ++ rest).takeWhile test = front ∧ (front ++ rest).dropWhile test = rest := by
  have passes := List.all_eq_true.mp all
  rw [List.takeWhile_append_of_pos passes, List.dropWhile_append_of_pos passes]
  cases rest with
  | nil => simp
  | cons c rest => simp [stops c rfl]

namespace IsWord

variable {kind : Kind} {chars : Text}

theorem start (isWord : IsWord kind chars) :
    ∃ c rest, chars = c :: rest ∧ (isWordStart c || isForeign c) = true := by
  cases isWord with
  | reserved reserved =>
      obtain ⟨-, -, c, rest, rfl, starts⟩ := ascii_of_reserved reserved
      exact ⟨c, rest, rfl, by simp [starts]⟩
  | name starts => exact ⟨_, _, rfl, starts⟩

theorem isRunKind (isWord : IsWord kind chars) : isRunKind kind = true := by
  cases isWord with
  | reserved reserved => exact (ascii_of_reserved reserved).1
  | name => rfl

theorem all_isNamePart (isWord : IsWord kind chars) : chars.all (isNamePart false) = true := by
  cases isWord with
  | reserved reserved =>
      refine List.all_eq_true.mpr fun c member => isNamePart_of_isWordPart ?_
      exact List.all_eq_true.mp (ascii_of_reserved reserved).2.1 c member
  | @name c rest starts parts =>
      have part : isNamePart false c = true := by
        rcases Bool.or_eq_true_iff.mp starts with ascii | foreign
        · exact isNamePart_of_isWordPart (by simp [isWordPart, ascii])
        · simp [isNamePart, foreign]
      simp [part, parts]

theorem opens? (isWord : IsWord kind chars) : kind.opens? = none := by
  have isRun := isWord.isRunKind
  cases kind with
  | punctuator p => cases isRun
  | _ => rfl

end IsWord

theorem solid_wordStart {c : Char} (starts : (isWordStart c || isForeign c) = true) (rest : Text) :
    Trivia.Solid (c :: rest) := by
  have noSlash : c ≠ '/' := by
    rintro rfl
    cases starts
  have noSpace : Trivia.isSpace c = false := by
    refine Bool.eq_false_iff.mpr fun space => ?_
    simp only [Trivia.isSpace, Bool.or_eq_true, beq_iff_eq] at space
    rcases space with ((((rfl | rfl) | rfl) | rfl) | rfl) | rfl <;> cases starts
  exact Trivia.solid_cons noSpace fun slash => absurd slash noSlash

theorem isWordPart_of_isForeign {d : Char} (foreign : isForeign d = true) : isWordPart d = false := by
  have large : 0x80 ≤ d.val := of_decide_eq_true foreign
  have above (low high : UInt32) (small : high < 0x80) : ¬ (low ≤ d.val ∧ d.val ≤ high) := by
    grind
  have noUpper : d.isUpper = false := decide_eq_false (above 65 90 (by decide))
  have noLower : d.isLower = false :=
    (Bool.decide_and _ _).symm.trans (decide_eq_false (above 97 122 (by decide)))
  have noDigit : d.isDigit = false :=
    (Bool.decide_and _ _).symm.trans (decide_eq_false (above 48 57 (by decide)))
  have noLetter : d.isAlpha = false := Bool.or_eq_false_iff.mpr ⟨noUpper, noLower⟩
  have noMark : d ≠ '_' ∧ d ≠ '$' := by
    constructor
    all_goals
      rintro rfl
      exact absurd large (by decide)
  simp [isWordPart, isWordStart, noLetter, noDigit, noMark.1, noMark.2]

/-! ## Marks -/

/-- Punctuators that stand in module requests. All but the asterisk are read whatever stands behind them. -/
inductive IsMark : Punctuator → Prop where
  | asterisk : IsMark .asterisk
  | braceClose : IsMark .braceClose
  | braceOpen : IsMark .braceOpen
  | colon : IsMark .colon
  | comma : IsMark .comma
  | semicolon : IsMark .semicolon

/-- Whether two characters belong to one token if nothing stands between them. -/
def joins (left right : Char) : Bool :=
  isNamePart false left && isNamePart false right || left == '*' && (right == '*' || right == '=')

/-- The last character of a text and the first one of the next do not belong to one token. -/
def Parted (left right : Text) : Prop :=
  ∀ c ∈ left.getLast?, ∀ d ∈ right.head?, joins c d = false

instance (left right : Text) : Decidable (Parted left right) :=
  have (c : Char) : Decidable (∀ d ∈ right.head?, joins c d = false) := Option.decidableForallMem right.head?
  Option.decidableForallMem left.getLast?

/-- The text behind a reserved word goes on with a character beyond ASCII. The two are read as two words. -/
structure Severed (left right : Text) : Prop where
  reserved : (reservedKind? left).isSome = true
  foreign : ∃ d rest, right = d :: rest ∧ isForeign d = true

/-- Two texts are not read as one token. -/
def Detached (left right : Text) : Prop := Parted left right ∨ Severed left right

theorem Detached.append {left right : Text} (detached : Detached left right) (nonempty : right ≠ [])
    (rest : Text) : Detached left (right ++ rest) := by
  obtain ⟨d, more, rfl⟩ := List.exists_cons_of_ne_nil nonempty
  rcases detached with parted | ⟨reserved, foreign⟩
  · exact .inl parted
  · obtain ⟨_, _, ⟨⟩, foreign⟩ := foreign
    exact .inr ⟨reserved, d, more ++ rest, rfl, foreign⟩

/-- An asterisk goes on with another one and with an equals sign. -/
theorem apart_asterisk {rest : Text} (parted : Parted ['*'] rest) : Apart .asterisk rest := by
  have goesOn : continuations .asterisk = ['*', '*', '='] := by decide +kernel
  intro d first member
  rw [goesOn] at member
  have noJoin := parted '*' rfl d first
  simp only [List.mem_cons, List.not_mem_nil, or_false] at member
  rcases member with rfl | rfl | rfl <;> cases noJoin

/-- A punctuator is read whatever stands behind it that does not go on with it. -/
theorem punctuator_read {p : Punctuator} {mode : Mode} {rest : Text}
    (noChoice : ¬ BeginsChoice (p.spelling ++ rest)) (apart : Apart p rest)
    (shape : ∃ c more, p.spelling ++ rest = c :: more ∧
      LexemeClass.of mode c more.head? = .punctuator) :
    Lexeme.read mode (p.spelling ++ rest) = .ok (.plain (.punctuator p) p.spelling rest) := by
  have found := punctuator?_apart noChoice apart
  have behind : (p.spelling ++ rest).drop p.spelling.length = rest := List.drop_left
  obtain ⟨c, more, isText, isClass⟩ := shape
  rw [isText] at found behind ⊢
  rw [Lexeme.read_cons, isClass]
  simp only [Lexeme.readAs, found, behind]

theorem IsMark.read {p : Punctuator} (isMark : IsMark p) (mode : Mode) {rest : Text}
    (detached : Detached p.spelling rest) :
    Lexeme.read mode (p.spelling ++ rest) = .ok (.plain (.punctuator p) p.spelling rest) := by
  cases isMark with
  | asterisk =>
      have parted : Parted ['*'] rest := detached.resolve_right fun severed => nomatch severed.reserved
      refine punctuator_read ?_ (apart_asterisk parted) ⟨_, _, rfl, by cases mode <;> rfl⟩
      rintro ⟨d, more, same, -⟩
      cases same
  | braceClose => cases mode <;> rfl
  | braceOpen => cases mode <;> rfl
  | colon => cases mode <;> rfl
  | comma => cases mode <;> rfl
  | semicolon => cases mode <;> rfl

theorem IsMark.solid {p : Punctuator} (isMark : IsMark p) (rest : Text) :
    Trivia.Solid (p.spelling ++ rest) := by
  cases isMark <;> exact Trivia.solid_cons rfl fun slash => absurd slash (by decide)

/-- A word is read as a whole. -/
theorem IsWord.append {kind : Kind} {chars rest : Text} (isWord : IsWord kind chars)
    (detached : Detached chars rest) : word false (chars ++ rest) = (kind, chars, rest) := by
  have parts := isWord.all_isNamePart
  have nonempty : chars ≠ [] := by
    obtain ⟨c, more, rfl, -⟩ := isWord.start
    exact List.cons_ne_nil c more
  have stops (parted : Parted chars rest) : Stops (isNamePart false) rest := by
    intro d first
    have noJoin := parted _ (List.getLast?_eq_some_getLast nonempty) d first
    have part := List.all_eq_true.mp parts _ (List.getLast_mem nonempty)
    simp only [joins, part, Bool.true_and, Bool.or_eq_false_iff] at noJoin
    exact noJoin.1
  -- A keyword ends before a character outside ASCII, with which a name would go on.
  cases isWord with
  | reserved reserved =>
      obtain ⟨-, ascii, -⟩ := ascii_of_reserved reserved
      have stopsAscii : Stops isWordPart rest := by
        rcases detached with parted | ⟨-, d, behind, rfl, foreign⟩
        · exact (stops parted).wordPart
        · rintro _ ⟨⟩
          exact isWordPart_of_isForeign foreign
      obtain ⟨taken, dropped⟩ := stopsAscii.span_append ascii
      simp only [word, taken, dropped, reserved]
  | @name c more starts _ unreserved =>
      have parted : Parted (c :: more) rest := by
        refine detached.resolve_right fun severed => ?_
        obtain ⟨keyword, reserved⟩ := Option.isSome_iff_exists.mp severed.reserved
        have ended : Stops isWordPart [] := by simp [Stops]
        have whole := (ended.span_append (ascii_of_reserved reserved).2.1).1
        rw [List.append_nil] at whole
        rw [whole, reserved] at unreserved
        cases unreserved
      obtain ⟨taken, dropped⟩ := (stops parted).span_append parts
      have front := takeWhile_append_of_stops (stops parted).wordPart (c :: more)
      simp only [word, front, unreserved, taken, dropped]

/-! ## Tokens -/

/-- The tokens of module requests as they are written. -/
inductive Spelled : Kind → Text → Prop where
  | word {kind : Kind} {chars : Text} : IsWord kind chars → Spelled kind chars
  | string {quote : Char} {content : Text} : quote = '\x22' ∨ quote = '\x27' →
      IsInside quote content → Spelled (.literal .string) (quoted quote content)
  | mark {p : Punctuator} : IsMark p → Spelled (.punctuator p) p.spelling

namespace Spelled

variable {kind : Kind} {chars rest : Text}

theorem ne_nil (spelled : Spelled kind chars) : chars ≠ [] := by
  cases spelled with
  | word isWord =>
      obtain ⟨c, rest, rfl, -⟩ := isWord.start
      exact List.cons_ne_nil c rest
  | string => exact List.cons_ne_nil _ _
  | @mark p isMark => exact spelling_ne_nil p

theorem solid (spelled : Spelled kind chars) (rest : Text) : Trivia.Solid (chars ++ rest) := by
  cases spelled with
  | word isWord =>
      obtain ⟨c, more, rfl, starts⟩ := isWord.start
      exact solid_wordStart starts (more ++ rest)
  | string isQuote => exact solid_quoted isQuote _ rest
  | mark isMark => exact isMark.solid rest

theorem read (spelled : Spelled kind chars) {mode : Mode} (noTag : mode ≠ .tag)
    (detached : Detached chars rest) : Lexeme.read mode (chars ++ rest) = .ok (.plain kind chars rest) := by
  cases spelled with
  | word isWord =>
      have found := isWord.append detached
      obtain ⟨c, more, rfl, starts⟩ := isWord.start
      have inTag : (mode == .tag) = false := beq_eq_false_iff_ne.mpr noTag
      simp only [List.cons_append] at found
      rw [List.cons_append, Lexeme.read]
      simp only [starts, if_true, inTag, found]
  | string isQuote inside => exact read_quoted isQuote mode inside rest
  | mark isMark => exact isMark.read mode detached

theorem lex (spelled : Spelled kind chars) {gap : Text} (trivia : Trivia.IsTrivia false gap) {mode : Mode}
    (noTag : mode ≠ .tag) (detached : Detached chars rest) :
    ∃ newline, Token.lex mode (gap ++ (chars ++ rest)) =
      .ok ⟨gap, newline, .plain kind chars rest⟩ := by
  obtain ⟨newline, skipped⟩ := trivia.skip_append (spelled.solid rest) nofun
  refine ⟨newline, ?_⟩
  simp only [Token.lex, skipped, spelled.read noTag detached, Except.map]

end Spelled

end Token

/-! ## Units -/

open Token

theorem plainKind_noMember {before : Kind} (noMember : before.accessesMember = false) (kind : Kind) :
    plainKind before kind = plainKind .eof kind := by
  cases kind with
  | keyword word =>
      have none : Kind.accessesMember .eof = false := rfl
      simp only [plainKind, noMember, none]
  | _ => rfl

theorem Reader.mode_ne_tag (reader : Reader) : reader.mode ≠ .tag := by
  rw [Reader.mode]
  split <;> decide

/-- How a unit is read that is written as `chars` behind a gap. -/
structure Reads (depth : Nat) (reader : Reader) (gap chars rest : Text) (kind : Kind) (token : Token)
    (after : Reader) : Prop where
  read : unit depth reader = .ok (token, after)
  gap : reader.gap = gap
  rest : after.rest = rest
  isKind : token.kind = kind
  lexeme : kind = .identifier → token.lexeme = chars

/-- A text that is read as one unit of a kind wherever it stands. -/
structure Readable (depth : Nat) (kind : Kind) (chars : Text) : Prop where
  nonempty : chars ≠ []
  noMember : kind.accessesMember = false
  reads : ∀ {reader : Reader} {gap rest : Text}, Trivia.IsTrivia false gap → Detached chars rest →
    reader.rest = gap ++ (chars ++ rest) → reader.previous.accessesMember = false →
      ∃ token after, Reads depth reader gap chars rest kind token after

namespace Reads

variable {depth : Nat} {reader after : Reader} {gap chars rest : Text} {kind : Kind} {token : Token}

theorem span (reads : Reads depth reader gap chars rest kind token after)
    (split : reader.rest = gap ++ (chars ++ rest)) :
    token.span = ⟨reader.position + gap.size, reader.position + gap.size + chars.size⟩ ∧
      after.position = reader.position + gap.size + chars.size := by
  obtain ⟨body, lies⟩ := unit_at reads.read
  have passed := lies.passes.rest
  rw [reads.gap, reads.rest, split, List.append_assoc] at passed
  obtain rfl : chars = body := List.append_cancel_right (List.append_cancel_left passed)
  have position : after.position = reader.position + gap.size + chars.size := by
    rw [lies.passes.position, reads.gap, Text.size_append, Nat.add_assoc]
  have start := lies.start
  have stop := lies.stop
  rw [reads.gap] at start
  have whole : token.span = ⟨token.span.start, token.span.stop⟩ := rfl
  exact ⟨by rw [whole, start, stop, position], position⟩

theorem noMember (reads : Reads depth reader gap chars rest kind token after)
    (noMember : kind.accessesMember = false) : after.previous.accessesMember = false := by
  obtain ⟨body, lies⟩ := unit_at reads.read
  rw [lies.previous, reads.isKind, trace]
  cases kind.opens? with
  | none => exact noMember
  | some bracket => cases bracket <;> rfl

end Reads

theorem Token.Spelled.alone {kind : Kind} {chars : Text} (spelled : Spelled kind chars)
    (noGroup : kind.opens? = none) : kind.isAlone = true := by
  cases spelled with
  | word isWord =>
      have isRun := isWord.isRunKind
      simp only [Kind.isAlone, isTemplate_of_isRunKind isRun, noGroup]
      cases kind with
      | punctuator p => cases isRun
      | _ => rfl
  | string => rfl
  | mark isMark =>
      cases isMark with
      | braceOpen => cases noGroup
      | _ => rfl

theorem Token.Spelled.noMember {kind : Kind} {chars : Text} (spelled : Spelled kind chars) :
    (plainKind .eof kind).accessesMember = false := by
  rcases plainKind_cases .eof kind with same | ⟨-, isName⟩
  · rw [same]
    cases spelled with
    | word isWord =>
        have isRun := isWord.isRunKind
        cases kind with
        | punctuator p => cases isRun
        | _ => rfl
    | string => rfl
    | mark isMark => cases isMark <;> rfl
  · rw [isName]
    rfl

theorem Token.Spelled.readable {kind : Kind} {chars : Text} (spelled : Spelled kind chars)
    (noGroup : kind.opens? = none) {depth : Nat} (some : 0 < depth) :
    Readable depth (plainKind .eof kind) chars where
  nonempty := spelled.ne_nil
  noMember := spelled.noMember
  reads := by
    intro reader gap rest trivia detached split noMember
    obtain ⟨fuel, rfl⟩ := Nat.exists_eq_add_one_of_ne_zero (Nat.ne_of_gt some)
    obtain ⟨newline, lexed⟩ := spelled.lex trivia reader.mode_ne_tag detached
    rw [← split] at lexed
    refine ⟨_, _, unit_alone fuel lexed (spelled.alone noGroup), (lex_gap lexed).1.symm, rfl, ?_, ?_⟩
    · exact plainKind_noMember noMember kind
    · intro _
      rfl

/-- At the end of a text nothing but trivia is left. -/
theorem unit_end {depth : Nat} (some : 0 < depth) {reader : Reader}
    (trivia : Trivia.IsTrivia true reader.rest) :
    ∃ next past, unit depth reader = .ok (next, past) ∧ next.kind = .eof := by
  obtain ⟨fuel, rfl⟩ := Nat.exists_eq_add_one_of_ne_zero (Nat.ne_of_gt some)
  obtain ⟨newline, skipped⟩ := trivia.skip_append Trivia.solid_nil fun _ => rfl
  rw [List.append_nil] at skipped
  have lexed : Token.lex reader.mode reader.rest = .ok ⟨reader.rest, newline, .plain .eof [] []⟩ := by
    rw [Token.lex, skipped]
    rfl
  exact ⟨_, _, unit_alone fuel lexed rfl, rfl⟩

end Relink
