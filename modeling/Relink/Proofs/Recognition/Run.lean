import Relink.Proofs.Recognition.Grammar
import Relink.Proofs.Scan.Specifier
import Relink.Proofs.Scan.Units

/-!
# Runs of requests

A request is scanned past its clause to its specifier, and from there past attributes and a semicolon to the
end of its module.
-/

set_option autoImplicit false

namespace Relink

open Scan Token

/-! ## Units of a request -/

theorem ReadSpread.shows {depth : Nat} {reader after : Reader} {parts : Spread} {tokens : List Token}
    (spread : ReadSpread depth reader parts tokens after) :
    List.Forall₂ (Shows depth) (parts.map Prod.snd) tokens := by
  induction spread with
  | nil => exact .nil
  | cons _ shows _ _ ih => exact .cons shows ih

theorem ReadSpread.next {depth : Nat} {reader after : Reader} {parts : Spread} {tokens : List Token}
    (spread : ReadSpread depth reader parts tokens after) {chars : Text} {texts : List Text}
    (isTexts : parts.map Prod.snd = chars :: texts) :
    ∃ token middle others more, unit depth reader = .ok (token, middle) ∧ Shows depth chars token ∧
      ReadSpread depth middle others more after ∧ others.map Prod.snd = texts := by
  cases spread with
  | nil => cases isTexts
  | cons read shows _ spread =>
      cases isTexts
      exact ⟨_, _, _, _, read, shows, spread, rfl⟩

theorem ReadSpread.done {depth : Nat} {reader after : Reader} {parts : Spread} {tokens : List Token}
    (spread : ReadSpread depth reader parts tokens after) (isTexts : parts.map Prod.snd = []) :
    after = reader := by
  cases spread with
  | nil => rfl
  | cons => cases isTexts

section Shown

variable {depth : Nat} (some : 0 < depth) {token : Token}

include some

theorem IsBinding.readable {name : Text} (isBinding : IsBinding name) : Readable depth .identifier name := by
  obtain ⟨kind, isWord, plain⟩ := isBinding.isWord
  rw [← plain]
  exact (Spelled.word isWord).readable isWord.opens? some

theorem Shows.name {name : Text} (shows : Shows depth name token) (isBinding : IsBinding name) :
    token.kind = .identifier ∧ token.lexeme = name := by
  obtain ⟨isName, lexeme⟩ := shows _ (isBinding.readable some)
  exact ⟨isName, lexeme rfl⟩

theorem Shows.isWord {word : String} (shows : Shows depth word.toList token)
    (isBinding : IsBinding word.toList) : token.isWord word = true := by
  obtain ⟨isName, lexeme⟩ := shows.name some isBinding
  simp [Token.isWord, isName, lexeme]

theorem Shows.mark {p : Punctuator} (shows : Shows depth p.spelling token) (isMark : IsMark p)
    (noGroup : p.opens? = none) : token.kind = .punctuator p :=
  (shows _ ((Spelled.mark isMark).readable noGroup some)).1

end Shown

/-! ## Import clauses -/

/-- A unit that an import clause passes over, once it is `bound`. -/
structure PassesClause (bound : Bool) (token : Token) : Prop where
  noEnd : (bound && token.isWord "from") = false
  binds : bindsNames token = true ∨ (bound && token.isPunctuator .comma) = true

theorem importClause_passes (inner : Scan Token) (fuel : Nat) {bound : Bool} {token : Token}
    (passes : PassesClause bound token) :
    importClause inner (fuel + 1) bound token =
      inner >>= fun next => importClause inner fuel true next := by
  simp only [importClause, passes.noEnd, Bool.false_eq_true, if_false]
  rcases passes.binds with binds | comma
  · simp only [binds, if_true]
  · rw [Bool.and_eq_true_iff] at comma
    obtain ⟨rfl, isComma⟩ := comma
    simp only [Bool.true_and, isComma, if_true, ite_self]

theorem importClause_ends (inner : Scan Token) (fuel : Nat) {token : Token}
    (isFrom : token.isWord "from" = true) : importClause inner (fuel + 1) true token = pure () := by
  simp only [importClause, isFrom, Bool.and_self, if_true]

/-- An import clause is passed over through its `from`. -/
theorem importClause_run {depth fuel : Nat} {reader middle after : Reader} {parts : Spread}
    {tokens : List Token} (spread : ReadSpread depth reader parts tokens middle) {bound : Bool}
    {first word : Token} (firstPasses : PassesClause bound first)
    (passes : ∀ token ∈ tokens, PassesClause true token)
    (read : unit depth middle = .ok (word, after)) (isFrom : word.isWord "from" = true)
    (enough : parts.length + 1 < fuel) :
    importClause (unit depth) fuel bound first reader = .ok ((), after) := by
  -- The first unit only binds a name; from then on `from` ends the clause, so no later unit may be that word.
  induction spread generalizing fuel bound first with
  | nil reader =>
      obtain ⟨fuel, rfl⟩ : ∃ less, fuel = less + 2 := ⟨fuel - 2, by simp at enough; omega⟩
      rw [importClause_passes _ _ firstPasses]
      refine (bind_of_ok read _).trans ?_
      rw [importClause_ends _ _ isFrom]
      rfl
  | cons next _ _ _ ih =>
      obtain ⟨fuel, rfl⟩ := Nat.exists_eq_add_one_of_ne_zero (Nat.ne_of_gt (Nat.zero_lt_of_lt enough))
      rw [importClause_passes _ _ firstPasses]
      refine (bind_of_ok next _).trans ?_
      exact ih (passes _ (List.mem_cons_self ..))
        (fun token member => passes token (List.mem_cons_of_mem _ member)) read
        (Nat.lt_of_succ_lt_succ enough)

theorem bindsNames_of_kind {token : Token} (kind : token.kind = .identifier ∨
    token.kind = .punctuator .asterisk ∨ token.kind = .punctuator .braceOpen) :
    bindsNames token = true := by
  rcases kind with isName | isAll | isList
  · simp [bindsNames, isName]
  · simp [bindsNames, Token.isPunctuator, isAll]
  · simp [bindsNames, Token.isPunctuator, isList]

theorem passesClause_punctuator {token : Token} {p : Punctuator} (kind : token.kind = .punctuator p)
    (binds : p = .asterisk ∨ p = .braceOpen ∨ p = .comma) : PassesClause true token where
  noEnd := by simp [Token.isWord, kind]
  binds := by
    rcases binds with rfl | rfl | rfl
    · exact .inl (bindsNames_of_kind (.inr (.inl kind)))
    · exact .inl (bindsNames_of_kind (.inr (.inr kind)))
    · exact .inr (by simp [Token.isPunctuator, kind])

section Clauses

variable {depth : Nat} (some : 0 < depth) {clause : List Text} {tokens : List Token}
  (shows : List.Forall₂ (Shows depth) clause tokens) (deep : ∀ chars ∈ clause, chars.length < depth)

include some

theorem Shows.passesClause {name : Text} {token : Token} (shows : Shows depth name token)
    (isBinding : IsBinding name) (other : name ≠ "from".toList) : PassesClause true token := by
  obtain ⟨isName, lexeme⟩ := shows.name some isBinding
  have notFrom : (token.lexeme == "from".toList) = false := by
    rw [lexeme]
    exact beq_eq_false_iff_ne.mpr other
  refine ⟨?_, .inl (bindsNames_of_kind (.inl isName))⟩
  simp only [Token.isWord, notFrom, Bool.and_false]

include shows deep

theorem NamedBindings.passes (bindings : NamedBindings clause) :
    ∃ first others, tokens = first :: others ∧ bindsNames first = true ∧
      ∀ token ∈ tokens, PassesClause true token := by
  cases bindings with
  | @all name isBinding other =>
      obtain _ | ⟨isAll, _ | ⟨isAs, _ | ⟨isName, ⟨⟩⟩⟩⟩ := shows
      have asterisk := isAll.mark (p := .asterisk) some .asterisk rfl
      refine ⟨_, _, rfl, bindsNames_of_kind (.inr (.inl asterisk)), ?_⟩
      have asName : IsBinding (Keyword.spelling .asWord) := .contextual rfl
      simp only [List.forall_mem_cons]
      exact ⟨passesClause_punctuator asterisk (.inl rfl), isAs.passesClause some asName (by decide),
        isName.passesClause some isBinding other, nofun⟩
  | @names list isList =>
      obtain _ | ⟨isNames, ⟨⟩⟩ := shows
      have braces := (isNames _ (isList.readable (deep _ (List.mem_cons_self ..)))).1
      refine ⟨_, _, rfl, bindsNames_of_kind (.inr (.inr braces)), ?_⟩
      simp only [List.forall_mem_cons]
      exact ⟨passesClause_punctuator braces (.inr (.inl rfl)), nofun⟩

/-- The units of an import clause: the first of them binds a name, and none of the others ends the clause. -/
theorem ImportClause.passes (isClause : ImportClause clause) :
    ∃ first others, tokens = first :: others ∧ bindsNames first = true ∧
      ∀ token ∈ others, PassesClause true token := by
  cases isClause with
  | default isBinding =>
      obtain _ | ⟨isName, ⟨⟩⟩ := shows
      exact ⟨_, _, rfl, bindsNames_of_kind (.inl (isName.name some isBinding).1), nofun⟩
  | named bindings =>
      obtain ⟨first, others, rfl, binds, passes⟩ := bindings.passes some shows deep
      exact ⟨first, others, rfl, binds, fun token member => passes token (List.mem_cons_of_mem _ member)⟩
  | both isBinding bindings =>
      obtain _ | ⟨isName, _ | ⟨isComma, shows⟩⟩ := shows
      obtain ⟨-, -, -, -, passes⟩ := bindings.passes some shows fun chars member =>
        deep chars (List.mem_cons_of_mem _ (List.mem_cons_of_mem _ member))
      refine ⟨_, _, rfl, bindsNames_of_kind (.inl (isName.name some isBinding).1), ?_⟩
      simp only [List.forall_mem_cons]
      exact ⟨passesClause_punctuator (isComma.mark (p := .comma) some .comma rfl) (.inr (.inr rfl)), passes⟩

end Clauses

/-! ## Requests -/

theorem isPunctuator_of_kind {token : Token} {kind : Kind} (isKind : token.kind = kind) (p : Punctuator) :
    token.isPunctuator p = (kind == .punctuator p) := by
  rw [Token.isPunctuator, isKind]

theorem statement_import (inner : Scan Token) (fuel : Nat) {first : Token}
    (isImport : first.kind = .keyword .importWord) :
    resumeScanned inner (statement inner (fuel + 1) first) =
      inner >>= fun next => resumeScanned inner (importRest inner (fuel + 1) first.span.start next) := by
  have word : first.isKeyword .importWord = true := by simp [Token.isKeyword, isImport]
  simp only [statement, statementOver, word, if_true]
  exact resumeScanned_bind inner inner _

theorem importRest_bindings (inner : Scan Token) (fuel start : Nat) {next : Token}
    (binds : bindsNames next = true) :
    resumeScanned inner (importRest inner fuel start next) =
      importClause inner fuel false next >>= fun _ =>
        resumeScanned inner (requestNext inner start .bindings) := by
  have noOther : next.isPunctuator .parenthesisOpen = false ∧ next.isPunctuator .dot = false ∧
      next.kind ≠ .literal .string := by
    simp only [bindsNames, Bool.or_eq_true, beq_iff_eq, Token.isPunctuator_iff] at binds
    rcases binds with (isName | isAll) | isList
    · simp [Token.isPunctuator, isName]
    · simp [Token.isPunctuator, isAll]
    · simp [Token.isPunctuator, isList]
  obtain ⟨noCall, noMember, noString⟩ := noOther
  simp only [importRest, noCall, noMember, Bool.or_self, Bool.false_eq_true, if_false, importStatement,
    noString, resumeScanned_bind]

theorem requestNext_run {depth : Nat} {reader behind : Reader} {specifier : Token}
    (read : unit depth reader = .ok (specifier, behind)) (string : specifier.kind = .literal .string)
    (start : Nat) (form : RequestForm) :
    resumeScanned (unit depth) (requestNext (unit depth) start form) reader =
      requestRest (unit depth) start form specifier behind := by
  rw [requestNext, resumeScanned_bind, bind_of_ok read, resumeScanned_request _ _ _ string]

theorem statement_export (inner : Scan Token) (fuel : Nat) {first : Token}
    (isExport : first.kind = .keyword .exportWord) :
    resumeScanned inner (statement inner (fuel + 1) first) =
      resumeScanned inner (exportStatement inner (fuel + 1) (nestedIn inner (statement inner fuel))
        first.span.start) := by
  have noImport : first.isKeyword .importWord = false := by simp [Token.isKeyword, isExport]
  have word : first.isKeyword .exportWord = true := by simp [Token.isKeyword, isExport]
  simp only [statement, statementOver, noImport, word, Bool.false_eq_true, if_false, if_true]

section Exports

variable {depth fuel start : Nat} {nested : Scan Ending} {reader middle behind : Reader} {token : Token}

theorem exportStatement_all (read : unit depth reader = .ok (token, middle))
    (isAll : token.kind = .punctuator .asterisk) :
    resumeScanned (unit depth) (exportStatement (unit depth) fuel nested start) reader =
      resumeScanned (unit depth) (exportAll (unit depth) start) middle := by
  rw [exportStatement, resumeScanned_bind, bind_of_ok read]
  simp only [Token.isPunctuator, isAll, beq_self_eq_true, if_true]

theorem exportStatement_names (read : unit depth reader = .ok (token, middle))
    (isList : token.kind = .punctuator .braceOpen) :
    resumeScanned (unit depth) (exportStatement (unit depth) fuel nested start) reader =
      resumeScanned (unit depth) (exportList (unit depth) start token.span.stop) middle := by
  rw [exportStatement, resumeScanned_bind, bind_of_ok read]
  have noAll : token.isPunctuator .asterisk = false := by simp [Token.isPunctuator, isList]
  have braces : token.isPunctuator .braceOpen = true := by simp [Token.isPunctuator, isList]
  simp only [noAll, braces, Bool.false_eq_true, if_false, if_true]

theorem exportFrom_run (inner : Scan Token) (isFrom : token.isWord "from" = true) :
    exportFrom inner start token = requestNext inner start .reExport := by
  simp only [exportFrom, isFrom, if_true]

end Exports

theorem isExportedName_of_shows {depth : Nat} (some : 0 < depth) {name : Text} {token : Token}
    (isName : IsExportName name) (shows : Shows depth name token) : isExportedName token = true := by
  cases isName with
  | name isWord =>
      have isKind := (shows _ ((Spelled.word isWord).readable isWord.opens? some)).1
      simp [isExportedName, isKind, plainKind]
  | keyword word =>
      have isKind := (shows _ ((Spelled.word (isWord_keyword word)).readable rfl some)).1
      rcases plainKind_cases .eof (.keyword word) with same | ⟨-, plain⟩
      · simp [isExportedName, isKind, same, Kind.isKeyword]
      · simp [isExportedName, isKind, plain]
  | string isQuote inside =>
      have isKind := (shows _ ((Spelled.string isQuote inside).readable rfl some)).1
      simp [isExportedName, isKind, plainKind]

/-! ## Heads and tails -/

section Head

variable {depth fuel : Nat} {reader quoted behind : Reader} {clause : Spread} {tokens : List Token}
  {first specifier : Token} (some : 0 < depth) (spread : ReadSpread depth reader clause tokens quoted)
  (read : unit depth quoted = .ok (specifier, behind)) (string : specifier.kind = .literal .string)

include some spread read string

theorem importBindings_run {texts : List Text} (isClause : ImportClause texts)
    (isTexts : clause.map Prod.snd = texts ++ ["from".toList])
    (deep : ∀ chars ∈ texts, chars.length < depth) (enough : clause.length < fuel)
    (isImport : first.kind = .keyword .importWord) :
    resumeScanned (unit depth) (statement (unit depth) (fuel + 1) first) reader =
      requestRest (unit depth) first.span.start .bindings specifier behind := by
  obtain ⟨front, back, rfl, rfl, isBack⟩ := List.map_eq_append_iff.mp isTexts
  obtain ⟨units, others, middle, rfl, spreadFront, spreadBack⟩ := spread.of_append
  obtain ⟨next, more, rfl, binds, passes⟩ := isClause.passes some spreadFront.shows deep
  obtain ⟨word, last, others, rest, readFrom, isFrom, spreadBack, ended⟩ := spreadBack.next isBack
  obtain rfl := spreadBack.done ended
  cases spreadFront with
  | @cons _ _ _ _ _ front _ _ readNext _ _ spreadFront =>
      have fewer : front.length + 1 < fuel + 1 := by
        simp only [List.length_append, List.length_cons] at enough
        omega
      have nextPasses : PassesClause false next := ⟨rfl, .inl binds⟩
      have passed := importClause_run spreadFront nextPasses passes readFrom
        (isFrom.isWord some isBinding_from) fewer
      rw [statement_import _ _ isImport, bind_of_ok readNext, importRest_bindings _ _ _ binds,
        bind_of_ok passed, requestNext_run read string]

theorem exportAll_run (isTexts : clause.map Prod.snd = ["*".toList, "from".toList])
    (isExport : first.kind = .keyword .exportWord) :
    resumeScanned (unit depth) (statement (unit depth) (fuel + 1) first) reader =
      requestRest (unit depth) first.span.start .reExport specifier behind := by
  obtain ⟨asterisk, middle, _, _, readAll, isAll, spread, isTexts⟩ := spread.next isTexts
  obtain ⟨word, last, _, _, readFrom, isFrom, spread, ended⟩ := spread.next isTexts
  obtain rfl := spread.done ended
  have isAsterisk := isAll.mark (p := .asterisk) some .asterisk rfl
  have noAs : word.isWord "as" = false := by
    have lexeme := (isFrom.name some isBinding_from).2
    simp [Token.isWord, lexeme]
  rw [statement_export _ _ isExport, exportStatement_all readAll isAsterisk, exportAll, resumeScanned_bind,
    bind_of_ok readFrom]
  simp only [noAs, Bool.false_eq_true, if_false]
  rw [exportFrom_run _ (isFrom.isWord some isBinding_from), requestNext_run read string]

theorem exportAllAs_run {name : Text} (isName : IsExportName name)
    (isTexts : clause.map Prod.snd = ["*".toList, "as".toList, name, "from".toList])
    (isExport : first.kind = .keyword .exportWord) :
    resumeScanned (unit depth) (statement (unit depth) (fuel + 1) first) reader =
      requestRest (unit depth) first.span.start .reExport specifier behind := by
  obtain ⟨asterisk, middle, _, _, readAll, isAll, spread, isTexts⟩ := spread.next isTexts
  obtain ⟨asWord, inside, _, _, readAs, isAs, spread, isTexts⟩ := spread.next isTexts
  obtain ⟨exported, later, _, _, readName, showsName, spread, isTexts⟩ := spread.next isTexts
  obtain ⟨word, last, _, _, readFrom, isFrom, spread, ended⟩ := spread.next isTexts
  obtain rfl := spread.done ended
  have isAsterisk := isAll.mark (p := .asterisk) some .asterisk rfl
  have isExported := isExportedName_of_shows some isName showsName
  rw [statement_export _ _ isExport, exportStatement_all readAll isAsterisk, exportAll, resumeScanned_bind,
    bind_of_ok readAs]
  simp only [isAs.isWord some isBinding_as, if_true]
  rw [resumeScanned_bind, bind_of_ok readName]
  simp only [isExported, if_true]
  rw [resumeScanned_bind, bind_of_ok readFrom, exportFrom_run _ (isFrom.isWord some isBinding_from),
    requestNext_run read string]

theorem exportNames_run {list : Text} (isList : IsList list) (deep : list.length < depth)
    (isTexts : clause.map Prod.snd = [list, "from".toList])
    (isExport : first.kind = .keyword .exportWord) :
    resumeScanned (unit depth) (statement (unit depth) (fuel + 1) first) reader =
      requestRest (unit depth) first.span.start .reExport specifier behind := by
  obtain ⟨names, middle, _, _, readList, showsList, spread, isTexts⟩ := spread.next isTexts
  obtain ⟨word, last, _, _, readFrom, isFrom, spread, ended⟩ := spread.next isTexts
  obtain rfl := spread.done ended
  have braces := (showsList _ (isList.readable deep)).1
  rw [statement_export _ _ isExport, exportStatement_names readList braces, exportList, resumeScanned_bind,
    bind_of_ok readFrom]
  simp only [isFrom.isWord some isBinding_from, if_true]
  rw [requestNext_run read string]

theorem RequestHead.run {form : RequestForm} {word : Keyword}
    (isHead : RequestHead form word (clause.map Prod.snd))
    (deep : ∀ chars ∈ clause.map Prod.snd, chars.length < depth)
    (isFirst : first.kind = .keyword word) (enough : clause.length < fuel) :
    resumeScanned (unit depth) (statement (unit depth) (fuel + 1) first) reader =
      requestRest (unit depth) first.span.start form specifier behind := by
  generalize isTexts : clause.map Prod.snd = texts at isHead deep
  cases isHead with
  | sideEffect =>
      obtain rfl := spread.done isTexts
      rw [statement_import _ _ isFirst, bind_of_ok read, importRest_string _ _ _ string]
  | bindings isClause =>
      have deepClause := fun chars member => deep chars (List.mem_append_left _ member)
      exact importBindings_run some spread read string isClause isTexts deepClause enough isFirst
  | all => exact exportAll_run some spread read string isTexts isFirst
  | allAs isName => exact exportAllAs_run some spread read string isName isTexts isFirst
  | names isList =>
      have deepList := deep _ (List.mem_cons_self ..)
      exact exportNames_run some spread read string isList deepList isTexts isFirst

end Head

section Tail

variable {depth : Nat} {reader last past : Reader} {ending : Spread} {tokens : List Token} {next : Token}

/-- At an optional semicolon a request ends, and behind it the module. -/
theorem OptionalSemicolon.run (optional : OptionalSemicolon (ending.map Prod.snd)) (some : 0 < depth)
    (spread : ReadSpread depth reader ending tokens last) (read : unit depth last = .ok (next, past))
    (ended : next.kind = .eof) :
    ∃ token middle, unit depth reader = .ok (token, middle) ∧ introducesAttributes token = false ∧
      resume (unit depth) (terminator reader.position token) middle =
        .ok ((last.position, next), past) := by
  generalize isTexts : ending.map Prod.snd = texts at optional
  cases optional with
  | absent =>
      obtain rfl := spread.done isTexts
      refine ⟨next, past, read, ?_, ?_⟩
      · simp [introducesAttributes, Token.isKeyword, Token.isWord, ended]
      · simp only [terminator, isPunctuator_of_kind ended, ended, true_or, if_true, reduceCtorEq, beq_iff_eq,
          if_false, resume_pending]
        rfl
  | written =>
      obtain ⟨mark, middle, _, _, readMark, isMark, spread, isEnd⟩ := spread.next isTexts
      obtain rfl := spread.done isEnd
      have semicolon := isMark.mark (p := .semicolon) some .semicolon rfl
      refine ⟨mark, last, readMark, ?_, ?_⟩
      · simp [introducesAttributes, Token.isKeyword, Token.isWord, semicolon]
      · simp only [terminator, isPunctuator_of_kind semicolon, beq_self_eq_true, if_true, resume_next]
        rw [bind_of_ok read, (Token.before readMark).stop]
        rfl

theorem RequestTail.run (isTail : RequestTail (ending.map Prod.snd)) (some : 0 < depth)
    (deep : ∀ chars ∈ ending.map Prod.snd, chars.length < depth)
    (spread : ReadSpread depth reader ending tokens last) (read : unit depth last = .ok (next, past))
    (ended : next.kind = .eof) :
    resume (unit depth) (requestEnding (unit depth) reader.position) reader =
      .ok ((last.position, next), past) := by
  rw [requestEnding, resume_bind]
  generalize isTexts : ending.map Prod.snd = texts at isTail deep
  cases isTail with
  | plain optional =>
      rw [← isTexts] at optional
      obtain ⟨token, middle, readToken, noAttributes, ends⟩ := optional.run some spread read ended
      rw [bind_of_ok readToken]
      simp only [noAttributes, Bool.false_eq_true, if_false]
      exact ends
  | attributes isList optional =>
      obtain ⟨word, inside, _, _, readWord, showsWord, spread, isTexts⟩ := spread.next isTexts
      obtain ⟨list, behind, _, _, readList, showsList, spread, isTexts⟩ := spread.next isTexts
      rw [← isTexts] at optional
      obtain ⟨token, middle, readToken, -, ends⟩ := optional.run some spread read ended
      have isWith : word.kind = .keyword .withWord :=
        (showsWord _ ((Spelled.word (isWord_keyword .withWord)).readable rfl some)).1
      have braces := (showsList _ (isList.readable (deep _ (by simp)))).1
      have attributes : introducesAttributes word = true := by
        simp [introducesAttributes, Token.isKeyword, isWith]
      rw [bind_of_ok readWord]
      simp only [attributes, if_true]
      rw [resume_bind, bind_of_ok readList, resume_bind]
      simp only [require, braces, if_true, pure_bind]
      rw [resume_bind, bind_of_ok readToken, (Token.before readList).stop]
      exact ends

end Tail

end Relink
