import Relink.Proofs.Recognition.Run
import Relink.Proofs.Scan.Ending.Statements
import Relink.Proofs.Scan.Preamble

/-!
# Recognition of requests

Every static module request of the grammar is recognised, whatever gaps stand between its tokens: it is the
only statement of its module, it runs from its first token to its last one, and its specifier is what stands
between the quotes.
-/

set_option autoImplicit false

namespace Relink

open Scan Token

/-- A module that is a static request, as it is written. -/
structure StaticRequest (form : RequestForm) where
  lead : Text
  word : Keyword
  clause : Spread
  gap : Text
  quote : Char
  content : Text
  ending : Spread
  last : Text
  isHead : RequestHead form word (clause.map Prod.snd)
  isQuote : quote = '\x22' ∨ quote = '\x27'
  inside : IsInside quote content
  isTail : RequestTail (ending.map Prod.snd)
  spaced : Spread.Spaced Parted ((lead, word.spelling) :: (clause ++ (gap, quoted quote content) :: ending))
  trivia : Trivia.IsTrivia true last

namespace StaticRequest

variable {form : RequestForm} (request : StaticRequest form)

def parts : Spread :=
  (request.lead, request.word.spelling) ::
    (request.clause ++ (request.gap, quoted request.quote request.content) :: request.ending)

def text : Text := request.parts.text ++ request.last

/-- The text before the specifier. -/
def front : Text :=
  Spread.text ((request.lead, request.word.spelling) :: request.clause) ++ request.gap

/-- The statement that the module is. -/
def statement : Statement :=
  ⟨some ⟨form, ⟨request.front.size + 1, request.front.size + 1 + request.content.size⟩⟩,
    ⟨request.lead.size, request.parts.text.size⟩⟩

end StaticRequest

/-! ## Modules -/

namespace StaticRequest

variable {form : RequestForm} (request : StaticRequest form)

theorem isPart : ∀ part ∈ request.parts, IsPart part.2 := by
  intro part member
  rcases List.mem_cons.mp member with rfl | member
  · exact isPart_keyword request.word
  rcases List.mem_append.mp member with inClause | member
  · exact request.isHead.isPart _ (List.mem_map_of_mem inClause)
  rcases List.mem_cons.mp member with rfl | inEnding
  · exact .inl ⟨_, .string request.isQuote request.inside, rfl⟩
  · exact request.isTail.isPart _ (List.mem_map_of_mem inEnding)

theorem text_eq : request.text = request.lead ++ (request.word.spelling ++
    (Spread.text (request.clause ++ (request.gap, quoted request.quote request.content) :: request.ending) ++
      request.last)) := by
  simp only [text, parts, Spread.text, List.flatMap_cons, List.append_assoc]

/-- A request begins with no preamble. -/
theorem cut_text : Preamble.cut request.text = ([], request.text) := by
  have lead := request.spaced.trivia _ (List.mem_cons_self ..)
  obtain ⟨c, more, spelling, isLetter⟩ := request.isHead.word
  obtain ⟨d, rest, begins, shape⟩ := lead.head c (more ++
    (Spread.text (request.clause ++ (request.gap, quoted request.quote request.content) :: request.ending) ++
      request.last))
  have whole : request.text = d :: rest := by
    rw [request.text_eq, spelling]
    exact begins
  have plain : d ≠ '\uFEFF' ∧ d ≠ '#' := by
    rcases shape with rfl | space | rfl
    · rcases isLetter with rfl | rfl <;> decide
    · simp only [Trivia.isSpace, Bool.or_eq_true, beq_iff_eq] at space
      rcases space with ((((rfl | rfl) | rfl) | rfl) | rfl) | rfl <;> decide
    · decide
  rw [whole]
  refine Preamble.cut_none (fun mark => plain.1 (Option.some.inj mark)) ?_
  simp [Preamble.lineMark, List.isPrefixOf, plain.2.symm]

theorem length_text_le : request.parts.text.length ≤ request.text.length := by
  rw [text, List.length_append]
  exact Nat.le_add_right _ _

theorem deep : ∀ part ∈ request.parts, part.2.length < request.text.length + 2 := by
  intro part member
  have shorter := Spread.length_part_le member
  have within := request.length_text_le
  omega

theorem deep_clause : ∀ chars ∈ request.clause.map Prod.snd, chars.length < request.text.length + 2 := by
  intro chars member
  obtain ⟨part, inClause, rfl⟩ := List.mem_map.mp member
  exact request.deep part (by simp [parts, inClause])

theorem deep_ending : ∀ chars ∈ request.ending.map Prod.snd, chars.length < request.text.length + 2 := by
  intro chars member
  obtain ⟨part, inEnding, rfl⟩ := List.mem_map.mp member
  exact request.deep part (by simp [parts, inEnding])

theorem readable :
    ∀ part ∈ request.parts, ∃ kind, Readable (request.text.length + 2) kind part.2 :=
  fun part member => (request.isPart part member).readable (request.deep part member)

theorem length_clause_lt : request.clause.length < request.text.length + 1 := by
  have fewer : request.parts.length ≤ request.parts.text.length := by
    apply Spread.length_le
    intro part member
    obtain ⟨_, readable⟩ := request.readable part member
    exact readable.nonempty
  have within := request.length_text_le
  simp only [parts, List.length_cons, List.length_append] at fewer within
  omega

theorem behindPreamble_text :
    Reader.behindPreamble request.text =
      ⟨request.parts.text ++ request.last, 0, true, .punctuator .semicolon⟩ := by
  rw [Reader.behindPreamble, request.cut_text, Text.size_nil]
  rfl

theorem length_mask : (Preamble.mask request.text).length = request.text.length := by
  rw [Preamble.mask_eq, request.cut_text]
  rfl

/-- How a request is read, unit by unit through the end of its module. -/
structure Run (depth : Nat) where
  first : Token
  middle : Reader
  units : List Token
  quotedReader : Reader
  specifier : Token
  behind : Reader
  others : List Token
  last : Reader
  next : Token
  past : Reader
  readFirst : unit depth (Reader.behindPreamble request.text) = .ok (first, middle)
  isFirst : first.kind = .keyword request.word
  spanFirst : first.span = ⟨request.lead.size, request.lead.size + request.word.spelling.size⟩
  spreadClause : ReadSpread depth middle request.clause units quotedReader
  readSpecifier : unit depth quotedReader = .ok (specifier, behind)
  isString : specifier.kind = .literal .string
  spanSpecifier : specifier.span = ⟨quotedReader.position + request.gap.size,
    quotedReader.position + request.gap.size + (quoted request.quote request.content).size⟩
  spreadEnding : ReadSpread depth behind request.ending others last
  readEnd : unit depth last = .ok (next, past)
  ended : next.kind = .eof

theorem nonempty_run : Nonempty (request.Run (request.text.length + 2)) := by
  have some : 0 < request.text.length + 2 := Nat.succ_pos _
  have breaks : Breaks request.last := by
    have breaks : Breaks (request.last ++ []) := request.trivia.breaks fun _ => nofun
    rwa [List.append_nil] at breaks
  obtain ⟨tokens, last, spread, restLast, -⟩ := request.spaced.detached.reads request.readable breaks
    (congrArg Reader.rest request.behindPreamble_text)
    (congrArg (·.previous.accessesMember) request.behindPreamble_text)
  obtain ⟨next, past, readEnd, ended⟩ := unit_end some (restLast ▸ request.trivia)
  -- The tokens are split where the request is: its word, its clause, the specifier and what ends it.
  cases spread with
  | @cons _ middle _ _ _ _ first _ readFirst showsFirst spanFirst spread =>
      obtain ⟨units, back, quotedReader, rfl, spreadClause, spreadBack⟩ := spread.of_append
      cases spreadBack with
      | @cons _ behind _ _ _ _ specifier others readSpecifier showsSpecifier spanSpecifier spreadEnding =>
          have isFirst : first.kind = .keyword request.word := by
            rw [← request.isHead.plain]
            exact (showsFirst _ ((Spelled.word (isWord_keyword request.word)).readable rfl some)).1
          have isString : specifier.kind = .literal .string :=
            (showsSpecifier _ ((Spelled.string request.isQuote request.inside).readable rfl some)).1
          have begins : (Reader.behindPreamble request.text).position = 0 :=
            congrArg Reader.position request.behindPreamble_text
          rw [begins, Nat.zero_add] at spanFirst
          exact ⟨⟨first, middle, units, quotedReader, specifier, behind, others, last, next, past, readFirst,
            isFirst, spanFirst, spreadClause, readSpecifier, isString, spanSpecifier, spreadEnding, readEnd,
            ended⟩⟩

namespace Run

variable {request} {depth : Nat} (run : request.Run depth)

theorem requestOf_specifier :
    requestOf run.first.span.start form run.specifier run.last.position = request.statement := by
  have toMiddle := (Token.before run.readFirst).stop
  have toQuoted := run.spreadClause.position
  have toBehind := (Token.before run.readSpecifier).stop
  have toLast := run.spreadEnding.position
  have size := size_quoted request.isQuote request.content
  have spanFirst := run.spanFirst
  have spanSpecifier := run.spanSpecifier
  rw [spanFirst] at toMiddle
  rw [spanSpecifier] at toBehind
  simp only [requestOf, StaticRequest.statement, spanFirst, spanSpecifier, front, parts, Spread.text,
    List.flatMap_cons, List.flatMap_append, Text.size_append, Statement.mk.injEq, Option.some.injEq,
    ModuleRequest.mk.injEq, Span.mk.injEq, true_and] at *
  omega

/-- From its first word on, a request is scanned through the end of its module. -/
theorem scanned (run : request.Run (request.text.length + 2)) :
    resumeScanned (unit (request.text.length + 2))
        (Scan.statement (unit (request.text.length + 2)) (request.text.length + 2) run.first) run.middle =
      .ok ((request.statement, run.next), run.past) := by
  have some : 0 < request.text.length + 2 := Nat.succ_pos _
  have toSpecifier := request.isHead.run some run.spreadClause run.readSpecifier run.isString
    request.deep_clause run.isFirst request.length_clause_lt
  have toEnd := request.isTail.run some request.deep_ending run.spreadEnding run.readEnd run.ended
  refine toSpecifier.trans ?_
  rw [requestRest, (Token.before run.readSpecifier).stop, bind_of_ok toEnd, ← run.requestOf_specifier]
  rfl

end Run

end StaticRequest

/-- Every static request is recognised: it is the only statement of its module, of its form, and its
specifier is what is written between the quotes. -/
theorem split_staticRequest {form : RequestForm} (request : StaticRequest form) :
    Statement.split request.text = .ok [request.statement] := by
  obtain ⟨run⟩ := request.nonempty_run
  have noEnd : run.first.kind ≠ .eof := by
    rw [run.isFirst]
    nofun
  have done : statements (unit (request.text.length + 2)) (request.text.length + 2)
      (request.text.length + 1) (some run.next) run.past = .ok ([], run.past) := by
    rw [statements_done _ _ _ run.ended]
    rfl
  have statementsRun := statements_cons noEnd run.scanned done
  have isSplit := @split_of_run request.text [request.statement] run.first run.middle run.past
  rw [request.length_mask] at isSplit
  exact isSplit run.readFirst statementsRun

/-! ## A request -/

theorem isTrivia_blank : Trivia.IsTrivia false [' '] := .space rfl .nil

/-- Attributes as they are written. -/
theorem isList_attributes : IsList "\x7btype: 'json'\x7d".toList := by
  have isType : IsWord .identifier "type".toList := .name rfl rfl (by decide)
  have isPlain : IsPlain '\x27' "json".toList := by decide
  have isValue : Spelled (.literal .string) (quoted '\x27' "json".toList) := .string (.inr rfl) isPlain.inside
  let items : Spread := [([], "type".toList), ([], [':']), ([' '], quoted '\x27' "json".toList)]
  have spaced : items.Spaced Parted := by
    refine ⟨?_, by decide⟩
    simp only [items, List.forall_mem_cons]
    exact ⟨.nil, .nil, isTrivia_blank, nofun⟩
  have isItem : ∀ item ∈ items, IsItem item.2 := by
    simp only [items, List.forall_mem_cons]
    exact ⟨⟨_, .word isType, rfl, rfl⟩, ⟨_, .mark .colon, rfl, rfl⟩, ⟨_, isValue, rfl, rfl⟩, nofun⟩
  exact .braces spaced.detached isItem .nil

/-- A request with a default binding, a namespace, attributes and a comment before it. -/
def combinedRequest : StaticRequest .bindings where
  lead := "/*a*/".toList
  word := .importWord
  clause := [([' '], ['D']), ([], [',']), ([' '], ['*']), ([' '], "as".toList), ([' '], ['N']),
    ([' '], "from".toList)]
  gap := [' ']
  quote := '\x27'
  content := "./x".toList
  ending := [([' '], "with".toList), ([' '], "\x7btype: 'json'\x7d".toList), ([], [';'])]
  last := []
  isHead := by
    have isDefault : IsBinding ['D'] := .name (.name rfl rfl (by decide))
    have isSpace : IsBinding ['N'] := .name (.name rfl rfl (by decide))
    exact .bindings (.both isDefault (.all isSpace (by decide)))
  isQuote := .inr rfl
  inside := IsPlain.inside (by decide)
  isTail := .attributes isList_attributes .written
  spaced := by
    refine ⟨?_, by decide⟩
    have comment : ¬ ['*', '/'] <:+: ['a'] := by decide
    simp only [List.cons_append, List.nil_append, List.forall_mem_cons]
    exact ⟨.block comment .nil, isTrivia_blank, .nil, isTrivia_blank, isTrivia_blank, isTrivia_blank,
      isTrivia_blank, isTrivia_blank, isTrivia_blank, isTrivia_blank, .nil, nofun⟩
  trivia := .nil

theorem split_staticRequest_combined :
    Statement.split "/*a*/import D, * as N from './x' with \x7btype: 'json'\x7d;".toList =
      .ok [⟨some ⟨.bindings, ⟨28, 31⟩⟩, ⟨5, 53⟩⟩] :=
  split_staticRequest combinedRequest

end Relink
