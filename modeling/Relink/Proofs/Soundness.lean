import Relink.Proofs.Coverage
import Relink.Proofs.Scan.Phrase

/-!
# What is reported as a request

Every request that is found in a module is one: its units are those of an import or of an export from
another module, and its specifier is the inside of a string that is one of these units. What stands in
brackets, in templates and in elements belongs to other units and is no specifier.
-/

set_option autoImplicit false

namespace Relink

open Scan

/-- A request is made of the units of its statement. Its specifier is what stands between the quotes of a
string, and where its semicolon is omitted the next unit stands behind a line break. -/
structure IsRequest (code : Text) (statement : Statement) (request : ModuleRequest) (units : List Token)
    (next : Option Token) (specifier : Token) : Prop where
  phrase : ∃ front attributes ending, units = front ++ specifier :: (attributes ++ ending) ∧
    Phrase request next specifier front attributes ending ∧
      (ending = [] → ∀ unit ∈ next, ∃ gap, code.slice? statement.span.stop unit.span.start = some gap ∧
        Trivia.IsTrivia false gap ∧ '\n' ∈ gap)
  quoted : ∃ quote content, (quote = '\x22' ∨ quote = '\x27') ∧ Token.IsContent quote content ∧
    code.slice? specifier.span.start specifier.span.stop = some (quote :: content ++ [quote]) ∧
      code.slice? request.specifier.start request.specifier.stop = some content

/-- Whatever a statement requests it requests with its units. -/
def AsRequested (code : Text) (statement : Statement) (units : List Token) (next : Option Token) : Prop :=
  Spans statement units ∧ ∀ request, statement.request = some request →
    ∃ specifier ∈ units, IsRequest code statement request units next specifier

/-- The units that are read one behind the other, from the start of a module to its end, are those of its
first statement, those of the second one and so on. What a statement requests it requests with its units,
and no unit but a string overlaps the specifier. -/
structure Sound (code : Text) (found : List Statement) (groups : List (List Token)) : Prop where
  units : ∃ last, Units (Reader.start code) groups.flatten last ∧ Trivia.IsTrivia true last.rest
  statements : Grouped (AsRequested code) found groups
  apart : ∀ statement ∈ found, ∀ request, statement.request = some request →
    ∀ unit ∈ groups.flatten, unit.kind ≠ .literal .string →
      unit.span.stop ≤ request.specifier.start ∨ request.specifier.stop ≤ unit.span.start

/-! ## Units in a text -/

/-- How a unit that a chain reads stands in the text that the chain begins in. -/
theorem slices_of_read {code : Text} {depth : Nat} {reader after : Reader} {token : Token}
    (leads : (Reader.start code).Leads reader) (read : unit depth reader = .ok (token, after)) :
    ∃ body, UnitAt reader token body after ∧
      code.slice? reader.position token.span.start = some reader.gap ∧
        code.slice? token.span.start token.span.stop = some body := by
  obtain ⟨body, lies⟩ := unit_at read
  obtain ⟨passed, passes⟩ := leads
  have whole : code = passed ++ reader.gap ++ body ++ after.rest := by
    have code_eq : code = passed ++ reader.rest := passes.rest
    rw [code_eq, lies.passes.rest]
    simp only [List.append_assoc]
  have position : reader.position = passed.size := by
    rw [passes.position]
    exact Nat.zero_add _
  have start : token.span.start = (passed ++ reader.gap).size := by
    rw [lies.start, position, Text.size_append]
  have stop : token.span.stop = (passed ++ reader.gap).size + body.size := by
    rw [lies.stop, lies.passes.position, position]
    simp only [Text.size_append, Nat.add_assoc]
  refine ⟨body, lies, ?_, Text.slice?_of_append (passed ++ reader.gap) body after.rest whole start stop⟩
  refine Text.slice?_of_append passed reader.gap (body ++ after.rest) ?_ position ?_
  · rw [whole, List.append_assoc]
  · rw [start, Text.size_append]

/-- A line break is marked where there is one before a unit. -/
theorem UnitAt.break_mem {reader after : Reader} {token : Token} {body : Text}
    (lies : UnitAt reader token body after) (noEnd : token.kind ≠ .eof)
    (onNewLine : token.onNewLine = true) :
    Trivia.IsTrivia false reader.gap ∧ '\n' ∈ reader.gap := by
  have nonempty : body ≠ [] := fun empty => noEnd (lies.empty.mpr empty)
  have goesOn : (Trivia.skip reader.rest).rest ≠ [] := by simp [lies.behindGap, nonempty]
  have trivia := Trivia.skip_isTrivia reader.rest
  rw [List.isEmpty_eq_false_iff.mpr goesOn] at trivia
  exact ⟨trivia, Trivia.break_mem_of_newline (lies.onNewLine.symm.trans onNewLine) goesOn⟩

/-! ## Statements -/

theorem Token.mem_orEnd {token next : Token} (isNext : token ∈ next.orEnd) :
    token = next ∧ token.kind ≠ .eof := by
  unfold Token.orEnd at isNext
  split at isNext
  · cases isNext
  · rename_i noEnd
    cases isNext
    exact ⟨rfl, noEnd⟩

section Phrase

variable {code : Text} {depth : Nat} {reader last : Reader} {request : ModuleRequest} {specifier : Token}
  {next : Option Token} {front attributes ending : List Token}

/-- The specifier of a phrase is what stands between two quotes. -/
theorem Phrase.quoted (phrase : Phrase request next specifier front attributes ending)
    (leads : (Reader.start code).Leads reader)
    (units : Units reader (front ++ specifier :: (attributes ++ ending)) last) :
    ∃ quote content, (quote = '\x22' ∨ quote = '\x27') ∧ Token.IsContent quote content ∧
      code.slice? specifier.span.start specifier.span.stop = some (quote :: content ++ [quote]) ∧
        code.slice? request.specifier.start request.specifier.stop = some content := by
  obtain ⟨depth, noted, after, chain, read, -⟩ := units.read_mem
  obtain ⟨body, lies, -, slice⟩ := slices_of_read (leads.trans chain.leads) read
  obtain ⟨-, quote, content, isQuote, rfl, clean⟩ := lies.string phrase.string
  refine ⟨quote, content, isQuote, clean, slice, ?_⟩
  obtain ⟨outside, back, split, size, isEnd⟩ := Text.of_slice? slice
  have one : quote.utf8Size = 1 := by rcases isQuote with rfl | rfl <;> rfl
  simp only [List.cons_append, Text.size_cons, Text.size_append, Text.size_nil, one] at isEnd
  rw [phrase.inside]
  refine Text.slice?_of_append (outside ++ [quote]) content (quote :: back) ?_ ?_ ?_
  · rw [split]
    simp
  · simp [size, one]
  · simp only [Text.size_append, Text.size_cons, Text.size_nil, one, size]
    omega

/-- Where a phrase ends without a semicolon a line break stands before the next unit. -/
theorem Phrase.broken {following : Token}
    (phrase : Phrase request following.orEnd specifier front attributes [])
    (leads : (Reader.start code).Leads reader) (read : unit depth reader = .ok (following, last)) :
    ∀ token ∈ following.orEnd, ∃ gap, code.slice? reader.position token.span.start = some gap ∧
      Trivia.IsTrivia false gap ∧ '\n' ∈ gap := by
  intro token isNext
  obtain ⟨rfl, noEnd⟩ := Token.mem_orEnd isNext
  have onNewLine : token.onNewLine = true := by
    cases phrase.ending with
    | omitted broken => exact broken token isNext
  obtain ⟨body, lies, gap, -⟩ := slices_of_read leads read
  exact ⟨reader.gap, gap, lies.break_mem noEnd onNewLine⟩

end Phrase

theorem statement_asRequested {code : Text} {depth bound : Nat} {border past start after : Reader}
    {first next : Token} {found : Statement} (leads : (Reader.start code).Leads border)
    (read : unit depth border = .ok (first, past)) (noEnd : first.kind ≠ .eof)
    (notes : past.Notes start)
    (run : resumeScanned (unit depth) (statement (unit depth) bound first) start =
      .ok ((found, next), after)) :
    ∃ units stop behind, ReadTo depth border (first :: units) next after stop behind ∧
      AsRequested code found (first :: units) next.orEnd := by
  cases requested : found.request with
  | none =>
      obtain ⟨units, stop, behind, reads, spans⟩ := statement_units read noEnd notes run
      exact ⟨units, stop, behind, reads, spans, by simp [requested]⟩
  | some request =>
      obtain ⟨front, specifier, attributes, ending, units, stop, behind, parts, is, phrase⟩ :=
        statement_phrases start found next after run request requested
      rw [List.singleton_append] at parts
      obtain ⟨reads, spans⟩ := is.reads read notes run
      refine ⟨units, stop, behind, reads, spans, ?_⟩
      intro other same
      obtain rfl : request = other := Option.some.inj (requested.symm.trans same)
      refine ⟨specifier, by simp [parts], ⟨front, attributes, ending, parts, phrase, ?_⟩, ?_⟩
      · rintro rfl
        rw [is.stop]
        exact phrase.broken (leads.trans reads.units.leads) is.read
      · exact phrase.quoted leads (parts ▸ reads.units)

/-! ## Modules -/

/-- Nothing but a string overlaps the specifier of a request. -/
theorem IsRequest.apart {code : Text} {statement : Statement} {request : ModuleRequest}
    {units all : List Token} {next : Option Token} {specifier : Token}
    (is : IsRequest code statement request units next specifier)
    (ordered : all.Pairwise fun unit later => unit.span.stop ≤ later.span.start)
    (member : specifier ∈ all) {unit : Token} (isUnit : unit ∈ all)
    (noString : unit.kind ≠ .literal .string) :
    unit.span.stop ≤ request.specifier.start ∨ request.specifier.stop ≤ unit.span.start := by
  obtain ⟨front, attributes, ending, -, phrase, -⟩ := is.phrase
  have other : unit ≠ specifier := by
    rintro rfl
    exact noString phrase.string
  have either : unit.span.stop ≤ specifier.span.start ∨ specifier.span.stop ≤ unit.span.start := by
    obtain ⟨before, behind, rfl⟩ := List.append_of_mem member
    obtain ⟨-, later, earlier⟩ := List.pairwise_append.mp ordered
    rcases List.mem_append.mp isUnit with inFront | rest
    · exact .inl (earlier unit inFront specifier (List.mem_cons_self ..))
    · have isBehind : unit ∈ behind := (List.mem_cons.mp rest).resolve_left other
      exact .inr ((List.pairwise_cons.mp later).1 unit isBehind)
  rw [phrase.inside]
  simp only
  omega

theorem Grouped.of_mem {holds : Statement → List Token → Option Token → Prop} {found : List Statement}
    {groups : List (List Token)} (grouped : Grouped holds found groups) {statement : Statement}
    (member : statement ∈ found) :
    ∃ units ∈ groups, ∃ next, holds statement units next := by
  induction grouped with
  | nil => cases member
  | @cons first units found groups isHeld _ ih =>
      rcases List.mem_cons.mp member with rfl | later
      · exact ⟨units, List.mem_cons_self .., _, isHeld⟩
      · obtain ⟨more, isGroup, next, holdsLater⟩ := ih later
        exact ⟨more, List.mem_cons_of_mem _ isGroup, next, holdsLater⟩

end Relink
