import Mathlib.Data.List.Chain
import Mathlib.Data.List.Forall2
import Relink.Proofs.Scan.Spelling

/-!
# Spread tokens

Tokens as they stand in a text, each behind its gap, are read one behind the other. A list in braces is read
as one of them.
-/

set_option autoImplicit false

namespace Relink

open Scan Token

/-! ## Spread tokens -/

/-- Tokens as they stand in a text, each with the gap before it. -/
abbrev Spread := List (Text × Text)

namespace Spread

def text (parts : Spread) : Text := parts.flatMap fun part => part.1 ++ part.2

/-- The gaps are trivia, and they are empty only between tokens that are separate without one. -/
structure Spaced (separate : Text → Text → Prop) (parts : Spread) : Prop where
  trivia : ∀ part ∈ parts, Trivia.IsTrivia false part.1
  separate : parts.IsChain fun left right => right.1 = [] → separate left.2 right.2

theorem Spaced.detached {parts : Spread} (spaced : Spaced Parted parts) : Spaced Detached parts where
  trivia := spaced.trivia
  separate := spaced.separate.imp fun _ _ parted touching => .inl (parted touching)

end Spread

theorem Spread.length_part_le {parts : Spread} {part : Text × Text} (member : part ∈ parts) :
    part.2.length ≤ parts.text.length := by
  obtain ⟨front, back, rfl⟩ := List.append_of_mem member
  simp only [text, List.flatMap_append, List.flatMap_cons, List.length_append]
  omega

/-- Whatever stands before the text is not read into it. -/
def Breaks (text : Text) : Prop := ∀ c d, text.head? = some d → joins c d = false

theorem Breaks.parted {text : Text} (breaks : Breaks text) (left : Text) : Parted left text :=
  fun c _ d first => breaks c d first

theorem breaks_cons {d : Char} (alone : isNamePart false d = false ∧ d ≠ '*' ∧ d ≠ '=') (rest : Text) :
    Breaks (d :: rest) := by
  rintro c _ ⟨⟩
  simp [joins, alone.1, alone.2.1, alone.2.2]

theorem Trivia.IsTrivia.breaks {ended : Bool} {gap rest : Text} (trivia : IsTrivia ended gap)
    (behind : gap = [] → Breaks rest) : Breaks (gap ++ rest) := by
  cases trivia with
  | nil => exact behind rfl
  | @space c gap space trivia =>
      refine breaks_cons ?_ _
      simp only [isSpace, Bool.or_eq_true, beq_iff_eq] at space
      rcases space with ((((rfl | rfl) | rfl) | rfl) | rfl) | rfl <;> decide
  | line => exact breaks_cons (by decide) _
  | block => exact breaks_cons (by decide) _
  | last => exact breaks_cons (by decide) _

/-- A unit is of every kind that its text is read as. -/
def Shows (depth : Nat) (chars : Text) (token : Token) : Prop :=
  ∀ kind, Readable depth kind chars →
    token.kind = kind ∧ (kind = .identifier → token.lexeme = chars)

theorem Reads.shows {depth : Nat} {reader after : Reader} {gap chars rest : Text} {kind : Kind}
    {token : Token} (reads : Reads depth reader gap chars rest kind token after)
    (trivia : Trivia.IsTrivia false gap) (detached : Detached chars rest)
    (split : reader.rest = gap ++ (chars ++ rest))
    (noMember : reader.previous.accessesMember = false) : Shows depth chars token := by
  intro other readable
  obtain ⟨again, behind, is⟩ := readable.reads trivia detached split noMember
  have same := reads.read.symm.trans is.read
  cases same
  exact ⟨is.isKind, is.lexeme⟩

/-- Spread tokens that are read one behind the other, each where it stands. -/
inductive ReadSpread (depth : Nat) : Reader → Spread → List Token → Reader → Prop where
  | nil (reader : Reader) : ReadSpread depth reader [] [] reader
  | cons {reader middle after : Reader} {gap chars : Text} {parts : Spread} {token : Token}
      {tokens : List Token} :
      unit depth reader = .ok (token, middle) → Shows depth chars token →
        token.span = ⟨reader.position + gap.size, reader.position + gap.size + chars.size⟩ →
          ReadSpread depth middle parts tokens after →
            ReadSpread depth reader ((gap, chars) :: parts) (token :: tokens) after

namespace ReadSpread

variable {depth : Nat} {reader after : Reader} {parts others : Spread} {tokens : List Token}

theorem position (spread : ReadSpread depth reader parts tokens after) :
    after.position = reader.position + parts.text.size := by
  induction spread with
  | nil => rfl
  | cons read _ span _ ih =>
      obtain ⟨_, lies⟩ := unit_at read
      have stop := lies.stop
      rw [span] at stop
      rw [ih, ← stop]
      simp only [Spread.text, List.flatMap_cons, Text.size_append, Nat.add_assoc]

theorem of_append (spread : ReadSpread depth reader (parts ++ others) tokens after) :
    ∃ front back middle, tokens = front ++ back ∧ ReadSpread depth reader parts front middle ∧
      ReadSpread depth middle others back after := by
  induction parts generalizing reader tokens with
  | nil => exact ⟨[], tokens, reader, rfl, .nil reader, spread⟩
  | cons part parts ih =>
      cases spread with
      | cons read shows span spread =>
          obtain ⟨front, back, middle, rfl, first, second⟩ := ih spread
          exact ⟨_ :: front, back, middle, rfl, .cons read shows span first, second⟩

end ReadSpread

section Spread

variable {depth : Nat} {parts : Spread} {behind : Text}

/-- The first of spaced tokens is not read into the text behind it. -/
theorem Spread.Spaced.head_detached {part : Text × Text} (spaced : Spaced Detached (part :: parts))
    (nonempty : ∀ next ∈ parts, next.2 ≠ []) (breaks : Breaks behind) :
    Detached part.2 (text parts ++ behind) := by
  cases parts with
  | nil => exact .inl (breaks.parted part.2)
  | cons next more =>
      obtain ⟨detached, -⟩ := List.isChain_cons_cons.mp spaced.separate
      have trivia := spaced.trivia next (by simp)
      have goesOn : text (next :: more) ++ behind = next.1 ++ (next.2 ++ (text more ++ behind)) := by
        simp only [text, List.flatMap_cons, List.append_assoc]
      rw [goesOn]
      by_cases touching : next.1 = []
      · rw [touching]
        exact (detached touching).append (nonempty next (by simp)) _
      · exact .inl ((trivia.breaks fun empty => absurd empty touching).parted part.2)

theorem Spread.Spaced.tail {separate : Text → Text → Prop} {part : Text × Text}
    (spaced : Spaced separate (part :: parts)) : Spaced separate parts where
  trivia := fun next member => spaced.trivia next (List.mem_cons_of_mem part member)
  separate := spaced.separate.tail

theorem Spread.Spaced.reads (spaced : parts.Spaced Detached)
    (readable : ∀ part ∈ parts, ∃ kind, Readable depth kind part.2) (breaks : Breaks behind)
    {reader : Reader} (split : reader.rest = parts.text ++ behind)
    (noMember : reader.previous.accessesMember = false) :
    ∃ tokens after, ReadSpread depth reader parts tokens after ∧ after.rest = behind ∧
      after.previous.accessesMember = false := by
  induction parts generalizing reader with
  | nil => exact ⟨[], reader, .nil reader, split, noMember⟩
  | cons part parts ih =>
      obtain ⟨kind, isReadable⟩ := readable part (List.mem_cons_self ..)
      have others := fun next member => readable next (List.mem_cons_of_mem part member)
      have nonempty : ∀ next ∈ parts, next.2 ≠ [] := by
        intro next member
        obtain ⟨_, isReadable⟩ := others next member
        exact isReadable.nonempty
      have trivia := spaced.trivia part (List.mem_cons_self ..)
      have detached := spaced.head_detached nonempty breaks
      have here : reader.rest = part.1 ++ (part.2 ++ (text parts ++ behind)) := by
        rw [split]
        simp only [text, List.flatMap_cons, List.append_assoc]
      obtain ⟨token, middle, is⟩ := isReadable.reads trivia detached here noMember
      obtain ⟨tokens, after, spread, rest, still⟩ :=
        ih spaced.tail others is.rest (is.noMember isReadable.noMember)
      have shows := is.shows trivia detached here noMember
      exact ⟨token :: tokens, after, .cons is.read shows (is.span here).1 spread, rest, still⟩

theorem Spread.length_le (nonempty : ∀ part ∈ parts, part.2 ≠ []) : parts.length ≤ parts.text.length := by
  induction parts with
  | nil => exact Nat.zero_le _
  | cons part parts ih =>
      have later := ih fun next member => nonempty next (List.mem_cons_of_mem part member)
      have some := List.length_pos_iff.mpr (nonempty part (List.mem_cons_self ..))
      simp only [text, List.flatMap_cons, List.length_append, List.length_cons] at later ⊢
      omega

end Spread

/-! ## Lists in braces -/

/-- A word, a string or a mark. -/
def IsItem (chars : Text) : Prop := ∃ kind, Spelled kind chars ∧ kind.opens? = none ∧ kind.closes? = none

/-- Words, strings and marks in braces. -/
inductive IsList : Text → Prop where
  | braces {items : Spread} {gap : Text} : items.Spaced Detached → (∀ item ∈ items, IsItem item.2) →
      Trivia.IsTrivia false gap → IsList ('{' :: (items.text ++ (gap ++ ['}'])))

theorem Token.Spelled.ne_eof {kind : Kind} {chars : Text} (spelled : Spelled kind chars) : kind ≠ .eof := by
  cases spelled with
  | word isWord =>
      have isRun := isWord.isRunKind
      rintro rfl
      cases isRun
  | string => nofun
  | mark => nofun

theorem plainKind_inside (before : Kind) {kind : Kind} (noClose : kind.closes? = none) (noEnd : kind ≠ .eof) :
    (plainKind before kind).closes? = none ∧ plainKind before kind ≠ .eof := by
  rcases plainKind_cases before kind with same | ⟨-, isName⟩
  · rw [same]
    exact ⟨noClose, noEnd⟩
  · rw [isName]
    exact ⟨rfl, nofun⟩

theorem group_of_items {depth : Nat} {items : Spread} {tokens : List Token} {reader middle after : Reader}
    (spread : ReadSpread depth reader items tokens middle) (isItem : ∀ item ∈ items, IsItem item.2)
    {close : Token} (read : unit depth middle = .ok (close, after))
    (closes : close.kind = .punctuator .braceClose) {fuel : Nat} (enough : items.length < fuel) :
    group (unit depth) .brace fuel reader = .ok (close.span, after) := by
  -- The group takes each item for what it is, since none of them closes or opens one.
  induction spread generalizing fuel with
  | nil reader =>
      obtain ⟨fuel, rfl⟩ := Nat.exists_eq_add_one_of_ne_zero (Nat.ne_of_gt enough)
      have isClose : close.kind = .punctuator Bracket.brace.close := closes
      refine (bind_of_ok read _).trans ?_
      simp only [closeOrGoOn, isClose, if_true]
      rfl
  | @cons reader behind _ gap chars items token tokens first shows _ spread ih =>
      obtain ⟨fuel, rfl⟩ := Nat.exists_eq_add_one_of_ne_zero (Nat.ne_of_gt (Nat.zero_lt_of_lt enough))
      have some : 0 < depth := Nat.pos_of_ne_zero fun none => by
        rw [none] at first
        cases first
      obtain ⟨kind, spelled, noGroup, noClose⟩ := isItem _ (List.mem_cons_self ..)
      obtain ⟨isKind, -⟩ := shows _ (spelled.readable noGroup some)
      obtain ⟨inside, noEnd⟩ := plainKind_inside .eof noClose spelled.ne_eof
      rw [← isKind] at inside noEnd
      have other : token.kind ≠ .punctuator Bracket.brace.close := by
        intro same
        rw [same] at inside
        cases inside
      refine (bind_of_ok first _).trans ?_
      simp only [closeOrGoOn, other, noEnd, inside, Option.isSome_none, Bool.false_eq_true, if_false]
      exact ih (fun item member => isItem item (List.mem_cons_of_mem _ member)) read
        (Nat.lt_of_succ_lt_succ enough)

theorem IsItem.ne_nil {chars : Text} (isItem : IsItem chars) : chars ≠ [] := by
  obtain ⟨kind, spelled, -⟩ := isItem
  exact spelled.ne_nil

theorem IsItem.readable {chars : Text} (isItem : IsItem chars) {depth : Nat} (some : 0 < depth) :
    ∃ kind, Readable depth kind chars := by
  obtain ⟨kind, spelled, noGroup, -⟩ := isItem
  exact ⟨_, spelled.readable noGroup some⟩

theorem detached_brace {c : Char} (isBrace : c = '{' ∨ c = '}') (rest : Text) : Detached [c] rest := by
  refine .inl ?_
  rcases isBrace with rfl | rfl
  all_goals
    rintro _ ⟨⟩ d -
    rfl

/-- What stands in braces is passed over through the closing one. -/
theorem Spread.Spaced.group {items : Spread} (spaced : items.Spaced Detached)
    (isItem : ∀ item ∈ items, IsItem item.2) {gap rest : Text} (trivia : Trivia.IsTrivia false gap)
    {reader : Reader} (split : reader.rest = items.text ++ (gap ++ '}' :: rest))
    (noMember : reader.previous.accessesMember = false) {fuel : Nat} (enough : items.length < fuel) :
    ∃ stop after, group (unit fuel) .brace fuel reader = .ok (stop, after) ∧ after.rest = rest := by
  have some : 0 < fuel := Nat.zero_lt_of_lt enough
  have breaks : Breaks (gap ++ '}' :: rest) := trivia.breaks fun _ => breaks_cons (by decide) rest
  obtain ⟨tokens, middle, spread, restMiddle, still⟩ :=
    spaced.reads (fun item member => (isItem item member).readable some) breaks split noMember
  obtain ⟨close, after, is⟩ := ((Spelled.mark .braceClose).readable rfl some).reads trivia
    (detached_brace (.inr rfl) rest) restMiddle still
  exact ⟨close.span, after, group_of_items spread isItem is.read is.isKind enough, is.rest⟩

theorem foldUnit_braces (inner : Scan Token) (fuel : Nat) (before : Kind) (operand : Bool) {token : Token}
    (isOpening : token.kind = .punctuator .braceOpen) {reader after : Reader} {stop : Span}
    (grouped : group inner .brace fuel
      { reader with operand := true, previous := .punctuator .braceOpen } = .ok (stop, after)) :
    foldUnit inner fuel before operand token reader =
      .ok (token.upTo stop, { after with
        operand := operandAfter before (.punctuator .braceOpen), previous := .punctuator .braceClose }) := by
  obtain ⟨kind, span, lexeme, onNewLine⟩ := token
  cases isOpening
  let opening : Token := ⟨.punctuator .braceOpen, span, lexeme, onNewLine⟩
  have folded : foldGroup inner fuel opening reader = .ok (opening.upTo stop, after) :=
    bind_of_ok grouped fun stop => pure (opening.upTo stop)
  exact bind_of_ok folded fun whole =>
    follow (operandAfter before (.punctuator .braceOpen)) (.punctuator .braceClose) >>= fun _ => pure whole

theorem IsList.readable {chars : Text} (isList : IsList chars) {depth : Nat} (deep : chars.length < depth) :
    Readable depth (.punctuator .braceOpen) chars := by
  cases isList with
  | @braces items gap spaced isItem gapTrivia =>
      obtain ⟨fuel, rfl⟩ := Nat.exists_eq_add_one_of_ne_zero (Nat.ne_of_gt (Nat.zero_lt_of_lt deep))
      have enough : items.length < fuel := by
        have fewer := Spread.length_le fun item member => (isItem item member).ne_nil
        simp only [List.length_cons, List.length_append] at deep
        omega
      refine ⟨List.cons_ne_nil _ _, rfl, ?_⟩
      intro reader front rest trivia _ split _
      let behind := items.text ++ (gap ++ '}' :: rest)
      obtain ⟨newline, lexed⟩ := (Spelled.mark .braceOpen).lex trivia reader.mode_ne_tag
        (detached_brace (.inl rfl) behind)
      have whole : reader.rest = front ++ (Punctuator.braceOpen.spelling ++ behind) := by
        rw [split]
        simp only [behind, List.cons_append, List.append_assoc, List.nil_append]
        rfl
      rw [← whole] at lexed
      let found : Lexed :=
        ⟨front, newline, .plain (.punctuator .braceOpen) Punctuator.braceOpen.spelling behind⟩
      let inner : Reader :=
        { reader.past found with operand := true, previous := .punctuator .braceOpen }
      have inside : inner.rest = items.text ++ (gap ++ '}' :: rest) := rfl
      obtain ⟨stop, after, grouped, restAfter⟩ := spaced.group isItem gapTrivia inside rfl enough
      have read := (bind_of_ok (token_of_lex lexed) _).trans
        (foldUnit_braces (unit fuel) fuel reader.previous reader.operand rfl grouped)
      exact ⟨_, _, read, (lex_gap lexed).1.symm, restAfter, rfl, nofun⟩

end Relink
