import Relink.Proofs.Scan.Bracket
import Relink.Proofs.Scan.Repeat

/-!
# Enclosures

A bracket that is met by a reader and the bracket that closes it, with room for any content between them. All
that a unit keeps of a content that ends at the closing bracket is its size.
-/

set_option autoImplicit false

namespace Relink

open Scan

/-! ## Opening brackets -/

namespace Token

variable {p : Punctuator} {bracket : Bracket}

theorem opening_ne_choice (opens : p.opens? = some bracket) (rest : Text) :
    ¬ BeginsChoice (p.spelling ++ rest) := by
  rintro ⟨d, more, same, digit⟩
  cases p <;> cases opens <;> cases same <;> cases digit

/-- No punctuator goes on behind an opening bracket. -/
theorem opening_apart (opens : p.opens? = some bracket) (rest : Text) : Apart p rest := by
  have nothing : continuations p = [] := by cases p <;> cases opens <;> decide +kernel
  intro d _ member
  rw [nothing] at member
  cases member

theorem opening_solid (opens : p.opens? = some bracket) (rest : Text) : Trivia.Solid (p.spelling ++ rest) := by
  cases p <;> cases opens <;> exact Trivia.solid_cons rfl fun slash => absurd slash (by decide)

theorem opening_ne_point (opens : p.opens? = some bracket) : p.spelling ≠ ['.'] := by
  cases p <;> cases opens <;> decide

theorem opening_first (opens : p.opens? = some bracket) :
    ∃ c more, p.spelling = c :: more ∧ c ≠ ' ' ∧ c ≠ '#' := by
  cases p <;> cases opens <;> exact ⟨_, _, rfl, by decide, by decide⟩

theorem opening_read (opens : p.opens? = some bracket) (mode : Mode) (rest : Text) :
    Lexeme.read mode (p.spelling ++ rest) = .ok (.plain (.punctuator p) p.spelling rest) := by
  refine punctuator_read (opening_ne_choice opens rest) (opening_apart opens rest) ?_
  cases p <;> cases opens <;> exact ⟨_, _, rfl, by cases mode <;> rfl⟩

theorem opening_lex (opens : p.opens? = some bracket) {gap : Text} (trivia : Trivia.IsTrivia false gap)
    (mode : Mode) (rest : Text) :
    Token.lex mode (gap ++ (p.spelling ++ rest)) =
      .ok ⟨gap, (Trivia.skip (gap ++ p.spelling)).newline, .plain (.punctuator p) p.spelling rest⟩ := by
  have solid := opening_solid opens []
  rw [List.append_nil] at solid
  obtain ⟨newline, skipped⟩ := trivia.skip_append solid nofun
  have goesOn : (Trivia.skip (gap ++ p.spelling)).rest ≠ [] := by
    rw [skipped]
    exact spelling_ne_nil p
  have same := Trivia.skip_congr goesOn (opening_solid opens rest)
  rw [skipped] at same
  simp only [Token.lex, same, opening_read opens, Except.map, skipped]

end Token

/-! ## Enclosures -/

theorem group_content {inner : Nat} {bracket : Bracket} {fuel : Nat} {reader after : Reader} {stop : Span}
    (run : group (unit inner) bracket fuel reader = .ok (stop, after)) :
    ∃ content, reader.Passes (content ++ bracket.close.spelling) after := by
  induction fuel generalizing reader with
  | zero => cases run
  | succ fuel ih =>
      obtain ⟨token, middle, read, run⟩ := bind_eq_ok run
      simp only [closeOrGoOn] at run
      split at run
      · rename_i isClose
        cases run
        obtain ⟨last, tokenRun, isAfter⟩ := unit_token read isClose (by cases bracket <;> rfl)
        obtain ⟨body, lies⟩ := token_at tokenRun
        obtain rfl := lies.punctuator _ isClose
        rw [isAfter]
        exact ⟨reader.gap, lies.passes.rest, lies.passes.position⟩
      split at run
      · cases run
      split at run
      · cases run
      · obtain ⟨first, toMiddle⟩ := unit_leads read
        obtain ⟨content, passes⟩ := ih run
        refine ⟨first ++ content, ?_⟩
        rw [List.append_assoc]
        exact toMiddle.trans passes

/-- A bracket that opens a group behind trivia, what the reader before it knows, and the text behind the
bracket that closes the group. -/
structure Enclosure where
  gap : Text
  mark : Punctuator
  bracket : Bracket
  rest : Text
  position : Nat
  operand : Bool
  previous : Kind
  trivia : Trivia.IsTrivia false gap
  opens : mark.opens? = some bracket

namespace Enclosure

variable (enclosure : Enclosure) (content : Text)

/-- A content and the text from the closing bracket on. -/
def behindMark : Text := content ++ (enclosure.bracket.close.spelling ++ enclosure.rest)

/-- The reader before the opening bracket. -/
def around : Reader :=
  ⟨enclosure.gap ++ (enclosure.mark.spelling ++ enclosure.behindMark content), enclosure.position,
    enclosure.operand, enclosure.previous⟩

/-- A text with the enclosure behind `front`. -/
def within (front : Text) : Text := front ++ (enclosure.mark.spelling ++ enclosure.behindMark content)

def start : Nat := enclosure.position + enclosure.gap.size

def stop : Nat :=
  enclosure.start + enclosure.mark.spelling.size + content.size + enclosure.bracket.close.spelling.size

/-- The group with its content as one unit. -/
def whole : Token :=
  ⟨.punctuator enclosure.mark, ⟨enclosure.start, enclosure.stop content⟩, enclosure.mark.spelling,
    (Trivia.skip (enclosure.gap ++ enclosure.mark.spelling)).newline⟩

/-- The reader behind the closing bracket. -/
def past : Reader :=
  ⟨enclosure.rest, enclosure.stop content,
    operandAfter enclosure.previous (.punctuator enclosure.mark), trace (.punctuator enclosure.mark)⟩

/-- With this content the group ends at the closing bracket. -/
def Closes : Prop :=
  ∃ depth token after, unit depth (enclosure.around content) = .ok (token, after) ∧
    after.rest = enclosure.rest

/-- Where an offset beside the content `old` lies once it is `new`: what stands behind the opening bracket
moves along with the closing one. -/
def moved (old new : Text) (offset : Nat) : Nat :=
  if offset ≤ enclosure.start then offset else offset + new.size - old.size

theorem lex_around (mode : Token.Mode) :
    Token.lex mode (enclosure.around content).rest =
      .ok ⟨enclosure.gap, (enclosure.whole content).onNewLine,
        .plain (.punctuator enclosure.mark) enclosure.mark.spelling (enclosure.behindMark content)⟩ :=
  Token.opening_lex enclosure.opens enclosure.trivia mode _

theorem around_ne_nil : (enclosure.around content).rest ≠ [] := by
  intro nothing
  have behindGap := (List.append_eq_nil_iff.mp nothing).2
  exact Token.spelling_ne_nil _ (List.append_eq_nil_iff.mp behindGap).1

theorem head?_around (other : Text) :
    (enclosure.around content).rest.head? = (enclosure.around other).rest.head? := by
  obtain ⟨c, more, isMark⟩ := List.exists_cons_of_ne_nil (Token.spelling_ne_nil enclosure.mark)
  refine Text.head?_append_congr enclosure.gap ?_
  rw [isMark]
  rfl

/-- Two contents are not told apart before their enclosure. -/
theorem alike (other : Text) :
    Text.Alike (enclosure.around content).rest (enclosure.around other).rest := by
  simp only [around, ← List.append_assoc enclosure.gap]
  refine Text.alike_append ?_ ?_ _ _
  · intro nothing
    exact Token.spelling_ne_nil _ (List.append_eq_nil_iff.mp nothing).2
  · intro point
    rcases List.append_eq_singleton_iff.mp point with ⟨-, mark⟩ | ⟨-, mark⟩
    · exact Token.opening_ne_point enclosure.opens mark
    · exact Token.spelling_ne_nil _ mark

variable {enclosure content}

/-- The unit is the group, whatever its content is. -/
theorem unit_around {depth : Nat} {token : Token} {after : Reader}
    (read : unit depth (enclosure.around content) = .ok (token, after)) :
    token.kind = .punctuator enclosure.mark ∧ token.lexeme = enclosure.mark.spelling := by
  obtain ⟨inner, first, middle, folded, behind, last, tokenRun, operandRun, groupRun, -⟩ := unit_run read
  obtain ⟨found, lexed, isFirst, -⟩ := token_eq_ok tokenRun
  rw [lex_around] at lexed
  obtain rfl := Except.ok.inj lexed
  have opening : first.kind.opens? = some enclosure.bracket := by rw [isFirst]; exact enclosure.opens
  rw [foldOperand_opening opening] at operandRun
  cases operandRun
  have opensPlain := (plainKind_opens? enclosure.previous first.kind).trans opening
  rw [foldGroup_opening opensPlain] at groupRun
  obtain ⟨⟨⟩, inside, -, groupRun⟩ := bind_eq_ok groupRun
  obtain ⟨stop, closed, -, done⟩ := bind_eq_ok groupRun
  cases done
  rw [isFirst]
  exact ⟨rfl, rfl⟩

/-- A content that ends at the closing bracket leaves no trace but its size. -/
theorem read_eq {depth : Nat} {token : Token} {after : Reader}
    (read : unit depth (enclosure.around content) = .ok (token, after))
    (ends : after.rest = enclosure.rest) :
    token = enclosure.whole content ∧ after = enclosure.past content := by
  obtain ⟨body, lies⟩ := unit_at read
  obtain ⟨isKind, isLexeme⟩ := unit_around read
  obtain ⟨isGap, isNewline⟩ := Token.lex_gap (enclosure.lex_around content .operand)
  simp only at isGap isNewline
  have passes := lies.passes
  rw [Reader.gap, ← isGap] at passes
  -- The unit passes over the text up to where it ends, so its characters are those of the enclosure.
  have isBody : body = enclosure.mark.spelling ++ (content ++ enclosure.bracket.close.spelling) := by
    have whole := passes.rest
    rw [ends] at whole
    simp only [around, behindMark, List.append_assoc] at whole
    have inner := List.append_cancel_left whole
    refine List.append_cancel_right (inner.symm.trans ?_)
    simp only [List.append_assoc]
  have isStart : token.span.start = enclosure.start := by
    rw [lies.start, Reader.gap, ← isGap]
    rfl
  have isPosition : after.position = enclosure.stop content := by
    rw [passes.position, isBody]
    simp only [Text.size_append, stop, start, around, Nat.add_assoc]
  have isStop : token.span.stop = enclosure.stop content := lies.stop.trans isPosition
  have isNewLine : token.onNewLine = (enclosure.whole content).onNewLine :=
    lies.onNewLine.trans isNewline.symm
  have isOperand := lies.operand
  have isPrevious := lies.previous
  rw [isKind] at isOperand isPrevious
  constructor
  · obtain ⟨kind, ⟨first, last⟩, lexeme, onNewLine⟩ := token
    cases isKind
    cases isLexeme
    cases isStart
    cases isStop
    cases isNewLine
    rfl
  · obtain ⟨rest, position, operand, previous⟩ := after
    cases ends
    cases isPosition
    cases isOperand
    cases isPrevious
    rfl

/-- Whether a content ends at the closing bracket is found out by reading it. -/
theorem Closes.of_rest (depth : Nat)
    (ends : (unit depth (enclosure.around content)).toOption.map (·.2.rest) = some enclosure.rest) :
    enclosure.Closes content := by
  cases read : unit depth (enclosure.around content) with
  | error halt =>
      rw [read] at ends
      cases ends
  | ok parts =>
      rw [read] at ends
      exact ⟨depth, parts.1, parts.2, read, Option.some.inj ends⟩

/-- Every group that is read as a unit is the content of an enclosure. -/
theorem exists_of_read {depth : Nat} {reader after : Reader} {token : Token} {mark : Punctuator}
    {bracket : Bracket} (read : unit depth reader = .ok (token, after))
    (isKind : token.kind = .punctuator mark) (opens : mark.opens? = some bracket) :
    ∃ (enclosure : Enclosure) (content : Text), enclosure.mark = mark ∧
      reader = enclosure.around content ∧ after.rest = enclosure.rest := by
  obtain ⟨inner, first, middle, whole, behind, last, tokenRun, operandRun, groupRun, isAfter⟩ := unit_run read
  have kind := plainKind_eq_punctuator ((foldGroup_kind groupRun).symm.trans isKind)
  obtain ⟨rfl, rfl⟩ := foldOperand_same operandRun (by rw [kind]; nofun) (by rw [kind]; nofun)
  obtain ⟨body, lies⟩ := token_at tokenRun
  obtain rfl := lies.punctuator mark kind
  have opening : (plainKind reader.previous whole.kind).opens? = some bracket := by rw [kind]; exact opens
  rw [foldGroup_opening opening] at groupRun
  obtain ⟨⟨⟩, inside, follows, groupRun⟩ := bind_eq_ok groupRun
  cases follows
  obtain ⟨stop, closed, grouped, done⟩ := bind_eq_ok groupRun
  cases done
  obtain ⟨content, passes⟩ := group_content grouped
  have isText : reader.rest =
      reader.gap ++ (mark.spelling ++ (content ++ (bracket.close.spelling ++ after.rest))) := by
    have inGroup := passes.rest
    simp only [List.append_assoc] at inGroup
    rw [isAfter, lies.passes.rest, inGroup, List.append_assoc]
  have goesOn : (Trivia.skip reader.rest).rest.isEmpty = false := by
    have behindGap := List.append_cancel_left ((Trivia.skip_append reader.rest).trans isText)
    simp [behindGap, Token.spelling_ne_nil mark]
  have trivia := Trivia.skip_isTrivia reader.rest
  rw [goesOn] at trivia
  refine ⟨⟨reader.gap, mark, bracket, after.rest, reader.position, reader.operand, reader.previous, trivia,
    opens⟩, content, rfl, ?_, rfl⟩
  simp only [around, behindMark, ← isText]

/-- Such a group is read with more steps than characters that are left. -/
theorem Closes.read (closes : enclosure.Closes content) {depth : Nat}
    (fits : (enclosure.around content).left < depth) :
    unit depth (enclosure.around content) = .ok (enclosure.whole content, enclosure.past content) := by
  obtain ⟨found, token, after, read, ends⟩ := closes
  obtain ⟨rfl, rfl⟩ := read_eq read ends
  have deep := unit_deepen (Nat.le_max_left found depth) read
  have repeats : Rereads 0 (enclosure.around content) (unit depth) (unit (max found depth)) :=
    unit_repeats (Nat.le_max_right ..) fits
  unfold Rereads Repeats at repeats
  match run : unit depth (enclosure.around content) with
  | .ok (other, otherAfter) =>
      obtain ⟨rfl, rfl⟩ := unit_unique read run
      rfl
  | .error (.faulty fault) =>
      rw [run] at repeats
      cases deep.symm.trans repeats
  | .error .outOfFuel =>
      rw [run] at repeats
      exact repeats.elim

end Enclosure

end Relink
