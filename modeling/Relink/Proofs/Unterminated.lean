import Relink.Proofs.Scan.Followed
import Relink.Proofs.Scan.Notes

/-!
# Requests without a semicolon

A request that is all of a module and ends without a semicolon is found again in front of another module
behind a line break, and so are the statements of that module. Where the request ends with its specifier a
slash divides and a `<` compares, so there the other module must not begin with a regular expression or an
element.
-/

set_option autoImplicit false

namespace Relink

open Scan

/-- A text that may follow a request without a semicolon: it begins with no preamble and with no token that
carries the request on. -/
structure MayFollowRequest (second : Text) : Prop where
  noMark : second.head? ≠ some '\uFEFF'
  noLine : Preamble.lineMark.isPrefixOf second = false
  noSemicolon : ∀ found, Token.lex .operand second = .ok found →
    found.lexeme.kind ≠ .punctuator .semicolon
  noWith : ∀ found, Token.lex .operand second = .ok found → found.lexeme.kind ≠ .keyword .withWord

/-- A text that does not begin with a regular expression or an element. -/
def BeginsPlain (second : Text) : Prop :=
  ∀ found, Token.lex .operand second = .ok found →
    found.lexeme.kind ≠ .literal .regex ∧ found.lexeme.kind ≠ .punctuator .chevronLeft

variable {first second : Text} {depth : Nat}

/-- Behind a request another module is read as at its start, where it begins plainly or an operand is due. -/
theorem Reader.AtEnd.unit_alike {reader place past : Reader} {token : Token} {position : Nat}
    (is : reader.AtEnd place) (plain : reader.rest.getLast? = some '}' ∨ BeginsPlain second)
    (read : unit depth ⟨second, position, true, .punctuator .semicolon⟩ = .ok (token, past)) :
    unit depth ⟨second, position, place.operand, place.previous⟩ = .ok (token, past) := by
  have agrees (previous : Kind) (member : previous.accessesMember = false)
      (header : previous.takesHeader = false) (takes : previous.takesOperand = false) :
      unit depth ⟨second, position, true, previous⟩ = .ok (token, past) :=
    unit_agrees read ⟨⟨rfl, rfl⟩, member, header, takes, .inl rfl⟩
  rcases is.notes with ⟨dividing, previous, noBrace⟩ | ⟨due, previous⟩
  · have again := agrees (.literal .string) rfl rfl rfl
    have beginsPlain := plain.resolve_left noBrace
    obtain ⟨_, firstToken, _, _, _, _, tokenRun, -⟩ := unit_run again
    obtain ⟨found, lexed, -⟩ := token_eq_ok tokenRun
    obtain ⟨noRegex, noElement⟩ := beginsPlain found lexed
    rw [dividing, previous]
    exact unit_dividing again rfl lexed noRegex noElement
  · rw [due, previous]
    exact agrees (.punctuator .braceClose) rfl rfl rfl

theorem MayFollowRequest.beginsLine (follows : MayFollowRequest second) {previous : Kind} {past : Reader}
    {token : Token} {position : Nat}
    (read : unit depth ⟨second, position, true, previous⟩ = .ok (token, past)) (distance : Nat) :
    ((token.shift distance).behindSpace '\n').BeginsLine where
  onNewLine := rfl
  noSemicolon := fun isSemicolon => by
    obtain ⟨middle, tokenRun, -⟩ := unit_token read isSemicolon rfl
    obtain ⟨found, lexed, rfl, -⟩ := token_eq_ok tokenRun
    exact follows.noSemicolon found lexed isSemicolon
  noWith := fun isWith => by
    obtain ⟨found, lexed, isKind⟩ := lex_of_unit_keyword read isWith
    exact follows.noWith found lexed isKind

/-- A request without a semicolon does not disturb the module that follows it. -/
theorem split_append_request {request : ModuleRequest} {start : Nat} {after : List Statement}
    (splitFirst : Statement.split first = .ok [⟨some request, ⟨start, first.size⟩⟩])
    (unended : first.getLast? ≠ some ';') (splitSecond : Statement.split second = .ok after)
    (follows : MayFollowRequest second) (plain : first.getLast? = some '}' ∨ BeginsPlain second) :
    Statement.split (first ++ '\n' :: second) =
      .ok (⟨some request, ⟨start, first.size⟩⟩ :: after.map (·.shift (first.size + 1))) := by
  obtain ⟨token, past, last, read, run⟩ := split_runs splitFirst
  rcases statements_cases run with
    ⟨-, none⟩ | ⟨noEnd, _, statement, next, behind, others, same, scanned, -, found⟩
  · cases none
  cases same
  cases found
  let depth := (Preamble.mask (first ++ '\n' :: second)).length + 2
  have length : depth = (Preamble.mask first).length + 1 + second.length + 2 :=
    congrArg (· + 2) (Preamble.length_mask_break first second)
  have deeper : (Preamble.mask first).length + 2 ≤ depth := by omega
  have deeperSecond : second.length + 2 ≤ depth := by omega
  have toCode : (Reader.start first).Leads (Reader.behindPreamble first) :=
    ⟨(Preamble.cut first).1, (Preamble.cut_append first).symm, (Nat.zero_add _).symm⟩
  have leads := toCode.trans (unit_leads read)
  have finish : first.size = past.finish :=
    ((unit_leads read).finish_eq.trans (Reader.behindPreamble_finish first)).symm
  obtain ⟨closed, place, is, goesOn⟩ := statement_opens deeper deeper past token _ next behind scanned rfl
    finish (getLast?_ne_of_leads leads unended)
  have closed : Text.Sealed past.rest := closed.resolve_right fun bare => bare.1
  have plain : past.rest.getLast? = some '}' ∨ BeginsPlain second := by
    rw [← getLast?_of_leads leads closed.ne_nil]
    exact plain
  have ended : (Trivia.skip place.rest).rest = [] := by
    rw [is.ended, Trivia.skip]
  obtain ⟨other, _, beyond, readOther, readJoined, goesOnOther⟩ :=
    statements_behindLine splitSecond follows.noMark follows.noLine
      (is.leads.finish_eq.trans finish.symm) ended deeperSecond fun _ _ => is.unit_alike plain
  have scannedJoined := goesOn _ _ beyond readJoined (follows.beginsLine readOther (first.size + 1))
  obtain ⟨final, runOther⟩ := goesOnOther (depth - 1) (by omega)
  -- The request is scanned through its last mark, and the unit of the other module behind that begins a line.
  have readFirst := unit_followed deeper read closed ('\n' :: second)
  rw [← Reader.behindPreamble_break] at readFirst
  have joined := statements_cons noEnd scannedJoined runOther
  have fuel : depth - 1 + 1 = depth := by omega
  rw [fuel] at joined
  exact split_of_run readFirst joined

/-- A regular expression behind import attributes. -/
theorem split_append_request_attributes :
    Statement.split ("import 'a' with \x7btype: 'json'\x7d".toList ++ '\n' :: "/'/.test(x);".toList) =
      .ok (⟨some ⟨.sideEffect, ⟨8, 9⟩⟩, ⟨0, Text.size "import 'a' with \x7btype: 'json'\x7d".toList⟩⟩ ::
        [Statement.other ⟨0, 12⟩].map
          (·.shift (Text.size "import 'a' with \x7btype: 'json'\x7d".toList + 1))) := by
  have splitFirst : Statement.split "import 'a' with \x7btype: 'json'\x7d".toList =
      .ok [⟨some ⟨.sideEffect, ⟨8, 9⟩⟩,
        ⟨0, Text.size "import 'a' with \x7btype: 'json'\x7d".toList⟩⟩] := by
    decide +kernel
  have splitSecond : Statement.split "/'/.test(x);".toList = .ok [.other ⟨0, 12⟩] := by decide +kernel
  have isRegex (found : Token.Lexed) (lexed : Token.lex .operand "/'/.test(x);".toList = .ok found) :
      found.lexeme.kind = .literal .regex := by
    have kind : (Token.lex .operand "/'/.test(x);".toList).map (·.lexeme.kind) =
        .ok (.literal .regex) := by
      decide +kernel
    rw [lexed] at kind
    exact Except.ok.inj kind
  have follows : MayFollowRequest "/'/.test(x);".toList := by
    refine ⟨by decide, by decide, fun found lexed => ?_, fun found lexed => ?_⟩
    · rw [isRegex found lexed]
      nofun
    · rw [isRegex found lexed]
      nofun
  exact split_append_request splitFirst (by decide) splitSecond follows (.inl (by decide))

end Relink
