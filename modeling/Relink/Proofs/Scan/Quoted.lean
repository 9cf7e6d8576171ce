import Relink.Proofs.Scan.Space
import Relink.Proofs.Scan.Specifier

/-!
# Strings with another content

Where a unit is a string, any string of the same quotes is read in its place.
-/

set_option autoImplicit false

namespace Relink

open Scan

namespace Token

/-- What may stand between two quotes and means itself. -/
def IsPlain (quote : Char) (content : Text) : Prop :=
  ∀ c ∈ content, c ≠ '\\' ∧ c ≠ '\n' ∧ c ≠ quote

instance (quote : Char) (content : Text) : Decidable (IsPlain quote content) :=
  List.decidableBAll (fun c => c ≠ '\\' ∧ c ≠ '\n' ∧ c ≠ quote) content

theorem IsPlain.inside {quote : Char} {content : Text} (plain : IsPlain quote content) :
    IsInside quote content := by
  induction content with
  | nil => exact .nil
  | cons c content ih =>
      obtain ⟨noEscape, noBreak, noQuote⟩ := plain c (List.mem_cons_self ..)
      exact .plain noEscape noBreak noQuote (ih fun d member => plain d (List.mem_cons_of_mem c member))

def quoted (quote : Char) (content : Text) : Text := quote :: content ++ [quote]

section Quote

variable {quote : Char} (isQuote : quote = '\x22' ∨ quote = '\x27')

include isQuote

theorem quote_ne_escape : quote ≠ '\\' := by
  rcases isQuote with rfl | rfl <;> decide

theorem quote_ne_newline : quote ≠ '\n' := by
  rcases isQuote with rfl | rfl <;> decide

theorem solid_quoted (content rest : Text) : Trivia.Solid (quoted quote content ++ rest) := by
  refine Trivia.solid_cons ?_ ?_
  · rcases isQuote with rfl | rfl <;> rfl
  · rcases isQuote with rfl | rfl <;> nofun

theorem class_quote (mode : Mode) (next : Option Char) : LexemeClass.of mode quote next = .string := by
  rcases isQuote with rfl | rfl <;> cases mode <;> rfl

theorem read_quoted (mode : Mode) {content : Text} (inside : IsInside quote content) (rest : Text) :
    Lexeme.read mode (quoted quote content ++ rest) =
      .ok (.plain (.literal .string) (quoted quote content) rest) := by
  have body := stringBody_inside (quote_ne_escape isQuote) (quote_ne_newline isQuote) inside rest
  have whole : quoted quote content ++ rest = quote :: (content ++ quote :: rest) := by
    simp [quoted]
  rw [whole, Lexeme.read_cons, class_quote isQuote]
  simp only [Lexeme.readAs, body, Except.map]
  rfl

theorem lex_quoted {text : Text} (goesOn : (Trivia.skip text).rest ≠ []) (mode : Mode)
    {content : Text} (plain : IsPlain quote content) (rest : Text) :
    lex mode ((Trivia.skip text).chars ++ (quoted quote content ++ rest)) =
      .ok ⟨(Trivia.skip text).chars, (Trivia.skip text).newline,
        .plain (.literal .string) (quoted quote content) rest⟩ := by
  have skipped := Trivia.skip_congr goesOn (solid_quoted isQuote content rest)
  simp only [lex, skipped, read_quoted isQuote mode plain.inside rest, Except.map]

end Quote

end Token

theorem foldUnit_string (inner : Scan Token) (fuel : Nat) (before : Kind) (operand : Bool)
    {token : Token} (string : token.kind = .literal .string) (reader : Reader) :
    foldUnit inner fuel before operand token reader =
      .ok (token, { reader with operand := false, previous := .literal .string }) := by
  obtain ⟨kind, span, lexeme, onNewLine⟩ := token
  cases string
  rfl

theorem unit_quoted {depth otherDepth : Nat} (deeper : depth ≤ otherDepth) {reader after : Reader}
    {token : Token} {body : Text} (read : unit depth reader = .ok (token, after))
    (lies : UnitAt reader token body after) (string : token.kind = .literal .string) {quote : Char}
    (isQuote : quote = '\x22' ∨ quote = '\x27') {content : Text} (plain : Token.IsPlain quote content)
    (rest : Text) (position : Nat) :
    let start := position + reader.gap.size
    unit otherDepth ⟨reader.gap ++ (Token.quoted quote content ++ rest), position,
        reader.operand, reader.previous⟩ =
      .ok (⟨.literal .string, ⟨start, start + (Token.quoted quote content).size⟩,
          Token.quoted quote content, token.onNewLine⟩,
        ⟨rest, start + (Token.quoted quote content).size, after.operand, after.previous⟩) := by
  intro start
  obtain ⟨inner, rfl⟩ := exists_succ_of_unit deeper read
  have goesOn : (Trivia.skip reader.rest).rest ≠ [] := by
    rw [lies.behindGap]
    intro ended
    have empty := (List.append_eq_nil_iff.mp ended).1
    rw [← lies.empty, string] at empty
    cases empty
  have operand := lies.operand
  have previous := lies.previous
  rw [string] at operand previous
  let other : Reader := ⟨reader.gap ++ (Token.quoted quote content ++ rest),
    position, reader.operand, reader.previous⟩
  let found : Token.Lexed := ⟨reader.gap, (Trivia.skip reader.rest).newline,
    .plain (.literal .string) (Token.quoted quote content) rest⟩
  have lexed (mode : Token.Mode) : Token.lex mode other.rest = .ok found :=
    Token.lex_quoted isQuote goesOn mode plain rest
  have folded := foldUnit_string (unit inner) inner reader.previous reader.operand
    (show (other.tokenOf found).kind = .literal .string from rfl) (other.past found)
  calc unit (inner + 1) other
      = .ok (other.tokenOf found, { other.past found with
          operand := false, previous := .literal .string }) :=
        (bind_of_ok (token_of_lex (lexed _)) _).trans folded
    _ = _ := by
        simp only [Reader.tokenOf, Reader.past, Reader.advance, Token.Lexeme.plain, found, other,
          operand, previous, lies.onNewLine, Text.size_append, Text.size_nil, Nat.add_zero,
          Nat.add_assoc, start]
        rfl

end Relink
