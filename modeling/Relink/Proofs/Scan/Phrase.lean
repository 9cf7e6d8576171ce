import Relink.Proofs.Scan.Ending.Statement

/-!
# Phrases of requests

The units that a request is made of, one behind the other: its first word and what that imports or exports,
its specifier, attributes and a semicolon. A run that finds a request has read just these.
-/

set_option autoImplicit false

namespace Relink

open Scan

/-! ## Phrases -/

/-- The units that an import clause is made of. -/
inductive IsClausePart : Token → Prop where
  | name {unit : Token} : unit.kind = .identifier → IsClausePart unit
  | all {unit : Token} : unit.kind = .punctuator .asterisk → IsClausePart unit
  | comma {unit : Token} : unit.kind = .punctuator .comma → IsClausePart unit
  | list {unit : Token} : unit.kind = .punctuator .braceOpen → IsClausePart unit

/-- The units of an import clause. -/
structure IsClause (units : List Token) : Prop where
  nonempty : units ≠ []
  parts : ∀ unit ∈ units, IsClausePart unit
  noComma : ∀ unit ∈ units.head?, unit.kind ≠ .punctuator .comma

/-- The units of a request before its specifier. -/
inductive RequestFront : RequestForm → List Token → Prop where
  | sideEffect {word : Token} : word.kind = .keyword .importWord → RequestFront .sideEffect [word]
  | bindings {word source : Token} {clause : List Token} : word.kind = .keyword .importWord →
      IsClause clause → source.isWord "from" = true →
        RequestFront .bindings (word :: clause ++ [source])
  | all {word star source : Token} : word.kind = .keyword .exportWord →
      star.kind = .punctuator .asterisk → source.isWord "from" = true →
        RequestFront .reExport [word, star, source]
  | allAs {word star as name source : Token} : word.kind = .keyword .exportWord →
      star.kind = .punctuator .asterisk → as.isWord "as" = true → isExportedName name = true →
        source.isWord "from" = true → RequestFront .reExport [word, star, as, name, source]
  | names {word list source : Token} : word.kind = .keyword .exportWord →
      list.kind = .punctuator .braceOpen → source.isWord "from" = true →
        RequestFront .reExport [word, list, source]

/-- The units of import attributes, if there are any. -/
inductive RequestAttributes : List Token → Prop where
  | none : RequestAttributes []
  | with {word list : Token} : word.kind = .keyword .withWord →
      list.kind = .punctuator .braceOpen → RequestAttributes [word, list]
  | assert {word list : Token} : word.isWord "assert" = true → word.onNewLine = false →
      list.kind = .punctuator .braceOpen → RequestAttributes [word, list]

/-- The end of a statement: a semicolon, or nothing if `next` stands on a new line or the module ends. -/
inductive Terminated (next : Option Token) : List Token → Prop where
  | semicolon {mark : Token} : mark.kind = .punctuator .semicolon → Terminated next [mark]
  | omitted : (∀ unit ∈ next, unit.onNewLine = true) → Terminated next []

/-- The units of a request before `next`, of which `specifier` is the specifier. -/
structure Phrase (request : ModuleRequest) (next : Option Token) (specifier : Token)
    (front attributes ending : List Token) : Prop where
  front : RequestFront request.form front
  string : specifier.kind = .literal .string
  inside : request.specifier = ⟨specifier.span.start + 1, specifier.span.stop - 1⟩
  attributes : RequestAttributes attributes
  ending : Terminated next ending

theorem isClausePart_of_bindsNames {unit : Token} (binds : bindsNames unit = true) :
    IsClausePart unit ∧ unit.kind ≠ .punctuator .comma := by
  simp only [bindsNames, Token.isPunctuator, Bool.or_eq_true, beq_iff_eq] at binds
  rcases binds with (name | all) | list
  · exact ⟨.name name, by simp [name]⟩
  · exact ⟨.all all, by simp [all]⟩
  · exact ⟨.list list, by simp [list]⟩

theorem requestAttributes_of_introduces {word list : Token} (introduces : introducesAttributes word = true)
    (isList : list.kind = .punctuator .braceOpen) : RequestAttributes [word, list] := by
  simp only [introducesAttributes, Token.isKeyword, Bool.or_eq_true, beq_iff_eq, Bool.and_eq_true,
    Bool.not_eq_true'] at introduces
  rcases introduces with isWith | ⟨isAssert, sameLine⟩
  · exact .with isWith isList
  · exact .assert isAssert sameLine isList

theorem terminated_of_omitted {next : Token} (omitted : next.kind = .eof ∨ next.onNewLine = true) :
    Terminated next.orEnd [] := by
  refine .omitted fun unit isNext => ?_
  unfold Token.orEnd at isNext
  split at isNext
  · cases isNext
  · rename_i noEnd
    cases isNext
    exact omitted.resolve_left noEnd

/-! ## Endings -/

variable {depth : Nat}

theorem terminator_stops {reader middle after : Reader} {token next : Token} {stop last : Nat}
    (read : unit depth reader = .ok (token, middle)) (here : stop = reader.position)
    (run : resume (unit depth) (terminator stop token) middle = .ok ((last, next), after)) :
    ∃ ending border past, StopsAt depth reader last next after ending border past ∧
      Terminated next.orEnd ending := by
  obtain ⟨ended, behind, terminated, run⟩ := bind_eq_ok run
  simp only [terminator] at terminated
  split at terminated
  · rename_i isSemicolon
    cases terminated
    obtain ⟨following, past, readNext, run⟩ := bind_eq_ok run
    cases run
    exact ⟨[token], middle, after, ⟨.single read, (Token.before read).stop, readNext, .refl after⟩,
      .semicolon ((token.isPunctuator_iff _).mp isSemicolon)⟩
  split at terminated
  · rename_i omitted
    cases terminated
    obtain ⟨following, past, same, run⟩ := bind_eq_ok run
    cases same
    cases run
    exact ⟨[], reader, middle, ⟨.refl reader, here, read, .refl middle⟩,
      terminated_of_omitted omitted⟩
  · cases terminated

theorem requestEnding_stops {reader after : Reader} {next : Token} {stop last : Nat}
    (here : stop = reader.position)
    (run : resume (unit depth) (requestEnding (unit depth) stop) reader = .ok ((last, next), after)) :
    ∃ attributes ending border past,
      StopsAt depth reader last next after (attributes ++ ending) border past ∧
        RequestAttributes attributes ∧ Terminated next.orEnd ending := by
  simp only [requestEnding, resume_bind, resume_ite] at run
  obtain ⟨word, middle, read, run⟩ := bind_eq_ok run
  split at run
  · rename_i introduces
    obtain ⟨list, inside, readList, run⟩ := bind_eq_ok run
    obtain ⟨⟨⟩, checked, required, run⟩ := bind_eq_ok run
    simp only [require] at required
    split at required
    · rename_i isList
      cases required
      obtain ⟨token, behind, readToken, run⟩ := bind_eq_ok run
      obtain ⟨ending, border, past, is, terminated⟩ :=
        terminator_stops readToken (Token.before readList).stop run
      have units : Units reader ([word, list] ++ ending) border :=
        .cons (.refl reader) read (.cons (.refl middle) readList is.units)
      exact ⟨_, ending, border, past, ⟨units, is.stop, is.read, is.notes⟩,
        requestAttributes_of_introduces introduces isList, terminated⟩
    · cases required
  · obtain ⟨ending, border, past, is, terminated⟩ := terminator_stops read here run
    exact ⟨[], ending, border, past, is, .none, terminated⟩

/-! ## Requests -/

/-- A scan behind the units `before` that finds a request has read the rest of a phrase. -/
def Phrases (depth : Nat) (before : List Token) (reader : Reader) (action : Scan (Statement × Token)) :
    Prop :=
  ∀ statement next after, action reader = .ok ((statement, next), after) →
    ∀ request, statement.request = some request →
      ∃ front specifier attributes ending units border past,
        before ++ units = front ++ specifier :: (attributes ++ ending) ∧
          StopsAt depth reader statement.span.stop next after units border past ∧
            Phrase request next.orEnd specifier front attributes ending

section Rules

variable {before : List Token} {reader : Reader}

theorem Phrases.of_failing {action : Scan (Statement × Token)}
    (fails : ∀ result, action reader ≠ .ok result) : Phrases depth before reader action :=
  fun statement next after run => absurd run (fails ((statement, next), after))

theorem Phrases.of_ending (ending : Scan Ending) (start : Nat) :
    Phrases depth before reader
      (ending >>= fun ended => resumeScanned (unit depth) (pure (.of none start ended))) := by
  intro statement next after run request requests
  rw [← resumeScanned_bind, resumeScanned_of] at run
  obtain ⟨parts, last, -, done⟩ := bind_eq_ok run
  cases done
  cases requests

theorem Phrases.ite {condition : Prop} [Decidable condition] {yes no : Scan (Statement × Token)}
    (holds : condition → Phrases depth before reader yes)
    (fails : ¬ condition → Phrases depth before reader no) :
    Phrases depth before reader (if condition then yes else no) := by
  by_cases decided : condition
  · simpa only [if_pos decided] using holds decided
  · simpa only [if_neg decided] using fails decided

theorem Phrases.seq {α : Type} {action : Scan α} {next : α → Scan (Statement × Token)}
    (rest : ∀ value middle, action reader = .ok (value, middle) →
      ∃ units, Units reader units middle ∧ Phrases depth (before ++ units) middle (next value)) :
    Phrases depth before reader (action >>= next) := by
  intro statement token after run request requests
  obtain ⟨value, middle, first, run⟩ := bind_eq_ok run
  obtain ⟨units, chain, phrases⟩ := rest value middle first
  obtain ⟨front, specifier, attributes, ending, more, border, past, parts, is, phrase⟩ :=
    phrases statement token after run request requests
  exact ⟨front, specifier, attributes, ending, units ++ more, border, past,
    by rw [← List.append_assoc, parts],
    ⟨chain.append is.units, is.stop, is.read, is.notes⟩, phrase⟩

theorem Phrases.unit {next : Token → Scan (Statement × Token)}
    (rest : ∀ token middle, unit depth reader = .ok (token, middle) →
      Phrases depth (before ++ [token]) middle (next token)) :
    Phrases depth before reader (unit depth >>= next) :=
  .seq fun token middle read => ⟨[token], .single read, rest token middle read⟩

end Rules

section Requests

variable {before : List Token} {reader : Reader} {start : Nat} {form : RequestForm}

/-- Behind the specifier of a request, the units before it being those of a request. -/
theorem request_phrases {specifier : Token} (stands : specifier.Before reader)
    (front : RequestFront form before) :
    Phrases depth (before ++ [specifier]) reader
      (resumeScanned (unit depth) (request (unit depth) start form specifier)) := by
  intro statement next after run found requests
  simp only [request, resumeScanned_ite, resumeScanned_fail] at run
  split at run
  · rename_i string
    rw [resumeScanned_of] at run
    obtain ⟨⟨stop, token⟩, last, ended, done⟩ := bind_eq_ok run
    cases done
    cases requests
    obtain ⟨attributes, ending, border, past, is, hasAttributes, terminated⟩ :=
      requestEnding_stops stands.stop ended
    exact ⟨before, specifier, attributes, ending, attributes ++ ending, border, past,
      by rw [List.append_assoc, List.singleton_append], is,
      ⟨front, string, rfl, hasAttributes, terminated⟩⟩
  · cases run

theorem requestNext_phrases (front : RequestFront form before) :
    Phrases depth before reader
      (resumeScanned (unit depth) (requestNext (unit depth) start form)) := by
  simp only [requestNext, resumeScanned_bind]
  exact .unit fun specifier middle read => request_phrases (Token.before read) front

end Requests

/-! ## Imports -/

/-- An import clause of which `token` was read ends with a `from`. -/
theorem importClause_clause {fuel : Nat} {bound : Bool} {token : Token} {reader after : Reader}
    (run : importClause (unit depth) fuel bound token reader = .ok ((), after)) :
    ∃ clause source units, token :: units = clause ++ [source] ∧ Units reader units after ∧
      source.isWord "from" = true ∧ (∀ unit ∈ clause, IsClausePart unit) ∧
        (bound = false → IsClause clause) := by
  induction fuel generalizing bound token reader with
  | zero => cases run
  | succ fuel ih =>
      simp only [importClause] at run
      -- A `from` ends the clause only where something is bound before it; else it is what is bound.
      split at run
      · rename_i isFrom
        cases run
        simp only [Bool.and_eq_true] at isFrom
        exact ⟨[], token, [], rfl, .refl _, isFrom.2, by simp, by simp [isFrom.1]⟩
      split at run
      · rename_i binds
        obtain ⟨isPart, noComma⟩ := isClausePart_of_bindsNames binds
        obtain ⟨next, middle, read, run⟩ := bind_eq_ok run
        obtain ⟨clause, source, units, split, chain, isFrom, parts, -⟩ := ih run
        have all : ∀ unit ∈ token :: clause, IsClausePart unit := by
          simpa only [List.forall_mem_cons] using ⟨isPart, parts⟩
        refine ⟨token :: clause, source, next :: units, by rw [split, List.cons_append],
          .cons (.refl reader) read chain, isFrom, all, fun _ => ⟨by simp, all, ?_⟩⟩
        rintro unit ⟨⟩
        exact noComma
      split at run
      · rename_i isComma
        simp only [Bool.and_eq_true] at isComma
        obtain ⟨next, middle, read, run⟩ := bind_eq_ok run
        obtain ⟨clause, source, units, split, chain, isFrom, parts, -⟩ := ih run
        refine ⟨token :: clause, source, next :: units, by rw [split, List.cons_append],
          .cons (.refl reader) read chain, isFrom, ?_, by simp [isComma.1]⟩
        have isPart := IsClausePart.comma ((token.isPunctuator_iff _).mp isComma.2)
        simpa only [List.forall_mem_cons] using ⟨isPart, parts⟩
      · cases run

theorem importStatement_phrases {fuel start : Nat} {reader : Reader} {word next : Token}
    (isImport : word.kind = .keyword .importWord) (stands : next.Before reader) :
    Phrases depth [word, next] reader
      (resumeScanned (unit depth) (importStatement (unit depth) fuel start next)) := by
  simp only [importStatement, resumeScanned_ite, resumeScanned_bind]
  have alone : RequestFront .sideEffect [word] := .sideEffect isImport
  apply Phrases.ite (fun _ => request_phrases stands alone)
  intro _
  refine .seq fun _ middle run => ?_
  obtain ⟨clause, source, units, split, chain, isFrom, -, isClause⟩ := importClause_clause run
  refine ⟨units, chain, ?_⟩
  have front := RequestFront.bindings isImport (isClause rfl) isFrom
  rw [List.cons_append, ← split] at front
  exact requestNext_phrases front

/-! ## Exports -/

section Export

variable {start : Nat} {word : Token} (isExport : word.kind = .keyword .exportWord)

theorem exportFrom_phrases {before : List Token} {source : Token} {reader : Reader}
    (front : source.isWord "from" = true → RequestFront .reExport before) :
    Phrases depth before reader
      (resumeScanned (unit depth) (exportFrom (unit depth) start source)) := by
  simp only [exportFrom, resumeScanned_ite, resumeScanned_fail]
  exact .ite (fun isFrom => requestNext_phrases (front isFrom)) fun _ =>
    .of_failing fun result run => by cases run

include isExport

theorem exportAll_phrases {star : Token} (isStar : star.kind = .punctuator .asterisk)
    (reader : Reader) :
    Phrases depth [word, star] reader
      (resumeScanned (unit depth) (exportAll (unit depth) start)) := by
  simp only [exportAll, resumeScanned_ite, resumeScanned_bind, resumeScanned_fail]
  refine .unit fun token middle _ => .ite (fun isAs => ?_) fun _ =>
    exportFrom_phrases (.all isExport isStar)
  refine .unit fun name behind _ => .ite (fun isName => ?_) fun _ =>
    .of_failing fun result run => by cases run
  exact .unit fun source last _ => exportFrom_phrases (.allAs isExport isStar isAs isName)

theorem exportList_phrases {list : Token} (isList : list.kind = .punctuator .braceOpen)
    (reader : Reader) (stop : Nat) :
    Phrases depth [word, list] reader
      (resumeScanned (unit depth) (exportList (unit depth) start stop)) := by
  simp only [exportList, resumeScanned_ite, resumeScanned_bind]
  exact .unit fun source middle _ => .ite
    (fun isFrom => requestNext_phrases (.names isExport isList isFrom)) fun _ => .of_ending _ start

theorem exportStatement_phrases {fuel : Nat} {nested : Scan Ending} (reader : Reader) :
    Phrases depth [word] reader
      (resumeScanned (unit depth) (exportStatement (unit depth) fuel nested start)) := by
  simp only [exportStatement, resumeScanned_bind, resumeScanned_ite]
  refine .unit fun next middle _ => .ite (fun isStar => ?_) fun _ => .ite (fun isList => ?_) fun _ =>
    .ite (fun _ => ?_) fun _ => .ite (fun _ => .of_failing fun result run => by cases run) fun _ =>
      .of_ending _ start
  · exact exportAll_phrases isExport ((next.isPunctuator_iff _).mp isStar) middle
  · exact exportList_phrases isExport ((next.isPunctuator_iff _).mp isList) middle _
  · exact .unit fun value behind _ => .of_ending _ start

end Export

/-! ## Statements -/

theorem statement_phrases {fuel : Nat} {first : Token} (reader : Reader) :
    Phrases depth [first] reader
      (resumeScanned (unit depth) (statement (unit depth) fuel first)) := by
  cases fuel with
  | zero => exact .of_failing fun result run => by cases run
  | succ fuel =>
      simp only [statement, statementOver, resumeScanned_ite, resumeScanned_bind]
      refine .ite (fun isImport => ?_) fun _ => .ite (fun isExport => ?_) fun _ => .of_ending _ _
      · refine .unit fun next middle read => .ite (fun _ => .of_ending _ _) fun _ => ?_
        exact importStatement_phrases (by simpa [Token.isKeyword] using isImport) (Token.before read)
      · exact exportStatement_phrases (by simpa [Token.isKeyword] using isExport) reader

end Relink
