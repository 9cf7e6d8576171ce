import Relink.Proofs.Scan.Spread
import Relink.Statement

/-!
# Grammar of requests

The static module requests as they are written: which names they bind or export, and which tokens stand
before and behind their specifiers. Left out are legal names that are not recognised. A namespace that is
imported as `from` is mistaken for the end of the clause, the words `true`, `false` and `null` are not taken
for exported names, and a name is no word if it is read as a reserved word and another name.
-/

set_option autoImplicit false

namespace Relink

open Scan Token

/-! ## Names and clauses -/

/-- A name that an import binds. Contextual keywords are such names. -/
inductive IsBinding : Text → Prop where
  | name {name : Text} : IsWord .identifier name → IsBinding name
  | contextual {word : Keyword} : word.isContextual = true → IsBinding word.spelling

/-- A name under which a module is exported. -/
inductive IsExportName : Text → Prop where
  | name {name : Text} : IsWord .identifier name → IsExportName name
  | keyword (word : Keyword) : IsExportName word.spelling
  | string {quote : Char} {content : Text} : quote = '\x22' ∨ quote = '\x27' →
      IsInside quote content → IsExportName (quoted quote content)

/-- Names that an import binds beside the default: a namespace or a list. -/
inductive NamedBindings : List Text → Prop where
  | all {name : Text} : IsBinding name → name ≠ "from".toList →
      NamedBindings ["*".toList, "as".toList, name]
  | names {list : Text} : IsList list → NamedBindings [list]

/-- What an import binds. -/
inductive ImportClause : List Text → Prop where
  | default {name : Text} : IsBinding name → ImportClause [name]
  | named {bindings : List Text} : NamedBindings bindings → ImportClause bindings
  | both {name : Text} {bindings : List Text} : IsBinding name → NamedBindings bindings →
      ImportClause (name :: ",".toList :: bindings)

/-- The tokens of a request up to its specifier: its first word and those behind it. -/
inductive RequestHead : RequestForm → Keyword → List Text → Prop where
  | sideEffect : RequestHead .sideEffect .importWord []
  | bindings {clause : List Text} : ImportClause clause →
      RequestHead .bindings .importWord (clause ++ ["from".toList])
  | all : RequestHead .reExport .exportWord ["*".toList, "from".toList]
  | allAs {name : Text} : IsExportName name →
      RequestHead .reExport .exportWord ["*".toList, "as".toList, name, "from".toList]
  | names {list : Text} : IsList list → RequestHead .reExport .exportWord [list, "from".toList]

/-- A request begins with `import` or `export`. -/
theorem RequestHead.word {form : RequestForm} {word : Keyword} {texts : List Text}
    (isHead : RequestHead form word texts) :
    ∃ c rest, word.spelling = c :: rest ∧ (c = 'i' ∨ c = 'e') := by
  cases isHead with
  | sideEffect => exact ⟨_, _, rfl, .inl rfl⟩
  | bindings => exact ⟨_, _, rfl, .inl rfl⟩
  | all => exact ⟨_, _, rfl, .inr rfl⟩
  | allAs => exact ⟨_, _, rfl, .inr rfl⟩
  | names => exact ⟨_, _, rfl, .inr rfl⟩

theorem RequestHead.plain {form : RequestForm} {word : Keyword} {texts : List Text}
    (isHead : RequestHead form word texts) : plainKind .eof (.keyword word) = .keyword word := by
  cases isHead <;> rfl

/-- An optional semicolon. -/
inductive OptionalSemicolon : List Text → Prop where
  | absent : OptionalSemicolon []
  | written : OptionalSemicolon [";".toList]

/-- The tokens of a request behind its specifier: attributes and a semicolon, both of them optional. -/
inductive RequestTail : List Text → Prop where
  | plain {semicolon : List Text} : OptionalSemicolon semicolon → RequestTail semicolon
  | attributes {list : Text} {semicolon : List Text} : IsList list → OptionalSemicolon semicolon →
      RequestTail ("with".toList :: list :: semicolon)

/-! ## Words -/

theorem isWord_keyword (word : Keyword) : IsWord (.keyword word) word.spelling :=
  .reserved (by cases word <;> rfl)

theorem IsBinding.isWord {name : Text} (isBinding : IsBinding name) :
    ∃ kind, IsWord kind name ∧ plainKind .eof kind = .identifier := by
  cases isBinding with
  | name isWord => exact ⟨_, isWord, rfl⟩
  | contextual contextual => exact ⟨_, isWord_keyword _, by simp [plainKind, contextual]⟩

theorem isBinding_from : IsBinding "from".toList :=
  .contextual (show Keyword.isContextual .fromWord = true from rfl)

theorem isBinding_as : IsBinding "as".toList :=
  .contextual (show Keyword.isContextual .asWord = true from rfl)

/-! ## Tokens -/

/-- A token of a request: a written token or a list in braces. -/
def IsPart (chars : Text) : Prop := (∃ kind, Spelled kind chars ∧ kind.opens? = none) ∨ IsList chars

theorem IsPart.readable {chars : Text} (isPart : IsPart chars) {depth : Nat} (deep : chars.length < depth) :
    ∃ kind, Readable depth kind chars := by
  rcases isPart with ⟨kind, spelled, noGroup⟩ | isList
  · exact ⟨_, spelled.readable noGroup (Nat.zero_lt_of_lt deep)⟩
  · exact ⟨_, isList.readable deep⟩

theorem isPart_keyword (word : Keyword) : IsPart word.spelling :=
  .inl ⟨_, .word (isWord_keyword word), rfl⟩

theorem isPart_mark {p : Punctuator} (isMark : IsMark p) (noGroup : p.opens? = none) : IsPart p.spelling :=
  .inl ⟨_, .mark isMark, noGroup⟩

theorem IsBinding.isPart {name : Text} (isBinding : IsBinding name) : IsPart name := by
  obtain ⟨kind, isWord, -⟩ := isBinding.isWord
  exact .inl ⟨kind, .word isWord, isWord.opens?⟩

theorem IsExportName.isPart {name : Text} (isName : IsExportName name) : IsPart name := by
  cases isName with
  | name isWord => exact .inl ⟨_, .word isWord, isWord.opens?⟩
  | keyword word => exact isPart_keyword word
  | string isQuote inside => exact .inl ⟨_, .string isQuote inside, rfl⟩

theorem NamedBindings.isPart {texts : List Text} (bindings : NamedBindings texts) :
    ∀ chars ∈ texts, IsPart chars := by
  cases bindings with
  | all isBinding =>
      simp only [List.forall_mem_cons]
      exact ⟨isPart_mark .asterisk rfl, isBinding_as.isPart, isBinding.isPart, nofun⟩
  | names isList =>
      simp only [List.forall_mem_cons]
      exact ⟨.inr isList, nofun⟩

theorem ImportClause.isPart {texts : List Text} (clause : ImportClause texts) :
    ∀ chars ∈ texts, IsPart chars := by
  cases clause with
  | default isBinding =>
      simp only [List.forall_mem_cons]
      exact ⟨isBinding.isPart, nofun⟩
  | named bindings => exact bindings.isPart
  | both isBinding bindings =>
      simp only [List.forall_mem_cons]
      exact ⟨isBinding.isPart, isPart_mark .comma rfl, bindings.isPart⟩

theorem RequestHead.isPart {form : RequestForm} {word : Keyword} {texts : List Text}
    (isHead : RequestHead form word texts) : ∀ chars ∈ texts, IsPart chars := by
  cases isHead with
  | sideEffect => exact nofun
  | bindings clause =>
      intro chars member
      rcases List.mem_append.mp member with inClause | isFrom
      · exact clause.isPart chars inClause
      · rw [List.mem_singleton.mp isFrom]
        exact isBinding_from.isPart
  | all =>
      simp only [List.forall_mem_cons]
      exact ⟨isPart_mark .asterisk rfl, isBinding_from.isPart, nofun⟩
  | allAs isName =>
      simp only [List.forall_mem_cons]
      exact ⟨isPart_mark .asterisk rfl, isBinding_as.isPart, isName.isPart, isBinding_from.isPart, nofun⟩
  | names isList =>
      simp only [List.forall_mem_cons]
      exact ⟨.inr isList, isBinding_from.isPart, nofun⟩

theorem OptionalSemicolon.isPart {texts : List Text} (optional : OptionalSemicolon texts) :
    ∀ chars ∈ texts, IsPart chars := by
  cases optional with
  | absent => exact nofun
  | written =>
      simp only [List.forall_mem_cons]
      exact ⟨isPart_mark .semicolon rfl, nofun⟩

theorem RequestTail.isPart {texts : List Text} (isTail : RequestTail texts) :
    ∀ chars ∈ texts, IsPart chars := by
  cases isTail with
  | plain optional => exact optional.isPart
  | attributes isList optional =>
      simp only [List.forall_mem_cons]
      exact ⟨isPart_keyword .withWord, .inr isList, optional.isPart⟩

end Relink
