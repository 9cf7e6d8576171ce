import Relink.Span
import Relink.Text

/-!
# Tokens

Kinds of tokens by what they are (punctuators, keywords, literals, names), the names under which
messages show them, and the classes that decide where statements end.
-/

set_option autoImplicit false

namespace Relink

/-! ## Punctuators -/

/-- Operators, brackets and separators, each named by its characters. -/
inductive Punctuator where
  | ampersand | ampersandAmpersand | ampersandAmpersandEquals | ampersandEquals | asterisk
  | asteriskAsterisk | asteriskAsteriskEquals | asteriskEquals | bar | barBar | barBarEquals
  | barEquals | braceClose | braceOpen | bracketClose | bracketOpen | caret | caretEquals
  | chevronLeft | chevronLeftChevronLeft | chevronLeftChevronLeftEquals | chevronLeftEquals
  | chevronLeftSlash | chevronRight | chevronRightChevronRight
  | chevronRightChevronRightChevronRight | chevronRightChevronRightChevronRightEquals
  | chevronRightChevronRightEquals | chevronRightEquals | colon | comma | dot | dotDotDot
  | equals | equalsChevronRight | equalsEquals | equalsEqualsEquals | exclamation
  | exclamationEquals | exclamationEqualsEquals | hyphen | hyphenEquals | hyphenHyphen
  | parenthesisClose | parenthesisOpen | percent | percentEquals | plus | plusEquals | plusPlus
  | question | questionDot | questionDotBracketOpen | questionDotParenthesisOpen
  | questionQuestion | questionQuestionEquals | semicolon | slash | slashEquals | tilde
deriving DecidableEq, Repr

namespace Punctuator

def spelling : Punctuator → Text
  | .ampersand => "&".toList
  | .ampersandAmpersand => "&&".toList
  | .ampersandAmpersandEquals => "&&=".toList
  | .ampersandEquals => "&=".toList
  | .asterisk => "*".toList
  | .asteriskAsterisk => "**".toList
  | .asteriskAsteriskEquals => "**=".toList
  | .asteriskEquals => "*=".toList
  | .bar => "|".toList
  | .barBar => "||".toList
  | .barBarEquals => "||=".toList
  | .barEquals => "|=".toList
  | .braceClose => "\x7d".toList
  | .braceOpen => "\x7b".toList
  | .bracketClose => "]".toList
  | .bracketOpen => "[".toList
  | .caret => "^".toList
  | .caretEquals => "^=".toList
  | .chevronLeft => "<".toList
  | .chevronLeftChevronLeft => "<<".toList
  | .chevronLeftChevronLeftEquals => "<<=".toList
  | .chevronLeftEquals => "<=".toList
  | .chevronLeftSlash => "</".toList
  | .chevronRight => ">".toList
  | .chevronRightChevronRight => ">>".toList
  | .chevronRightChevronRightChevronRight => ">>>".toList
  | .chevronRightChevronRightChevronRightEquals => ">>>=".toList
  | .chevronRightChevronRightEquals => ">>=".toList
  | .chevronRightEquals => ">=".toList
  | .colon => ":".toList
  | .comma => ",".toList
  | .dot => ".".toList
  | .dotDotDot => "...".toList
  | .equals => "=".toList
  | .equalsChevronRight => "=>".toList
  | .equalsEquals => "==".toList
  | .equalsEqualsEquals => "===".toList
  | .exclamation => "!".toList
  | .exclamationEquals => "!=".toList
  | .exclamationEqualsEquals => "!==".toList
  | .hyphen => "-".toList
  | .hyphenEquals => "-=".toList
  | .hyphenHyphen => "--".toList
  | .parenthesisClose => ")".toList
  | .parenthesisOpen => "(".toList
  | .percent => "%".toList
  | .percentEquals => "%=".toList
  | .plus => "+".toList
  | .plusEquals => "+=".toList
  | .plusPlus => "++".toList
  | .question => "?".toList
  | .questionDot => "?.".toList
  | .questionDotBracketOpen => "?.[".toList
  | .questionDotParenthesisOpen => "?.(".toList
  | .questionQuestion => "??".toList
  | .questionQuestionEquals => "??=".toList
  | .semicolon => ";".toList
  | .slash => "/".toList
  | .slashEquals => "/=".toList
  | .tilde => "~".toList

/-- Every punctuator, longer spellings first, so that the first match in a text is the longest. -/
def longestFirst : List Punctuator :=
  [.chevronRightChevronRightChevronRightEquals, .ampersandAmpersandEquals,
   .asteriskAsteriskEquals, .barBarEquals, .chevronLeftChevronLeftEquals,
   .chevronRightChevronRightChevronRight, .chevronRightChevronRightEquals, .dotDotDot,
   .equalsEqualsEquals, .exclamationEqualsEquals, .questionDotBracketOpen,
   .questionDotParenthesisOpen, .questionQuestionEquals, .ampersandAmpersand, .ampersandEquals,
   .asteriskAsterisk, .asteriskEquals, .barBar, .barEquals, .caretEquals,
   .chevronLeftChevronLeft, .chevronLeftEquals, .chevronLeftSlash, .chevronRightChevronRight,
   .chevronRightEquals, .equalsChevronRight, .equalsEquals, .exclamationEquals, .hyphenEquals,
   .hyphenHyphen, .percentEquals, .plusEquals, .plusPlus, .questionDot, .questionQuestion,
   .slashEquals, .ampersand, .asterisk, .bar, .braceClose, .braceOpen, .bracketClose,
   .bracketOpen, .caret, .chevronLeft, .chevronRight, .colon, .comma, .dot, .equals,
   .exclamation, .hyphen, .parenthesisClose, .parenthesisOpen, .percent, .plus, .question,
   .semicolon, .slash, .tilde]

def glyphName : Char → String
  | '&' => "Ampersand"
  | '*' => "Asterisk"
  | '|' => "Bar"
  | '}' => "BraceClose"
  | '{' => "BraceOpen"
  | ']' => "BracketClose"
  | '[' => "BracketOpen"
  | '^' => "Caret"
  | '<' => "ChevronLeft"
  | '>' => "ChevronRight"
  | ':' => "Colon"
  | ',' => "Comma"
  | '.' => "Dot"
  | '=' => "Equals"
  | '!' => "Exclamation"
  | '-' => "Hyphen"
  | ')' => "ParenthesisClose"
  | '(' => "ParenthesisOpen"
  | '%' => "Percent"
  | '+' => "Plus"
  | '?' => "Question"
  | ';' => "Semicolon"
  | '/' => "Slash"
  | '~' => "Tilde"
  | _ => ""

def name (p : Punctuator) : String := String.join (p.spelling.map glyphName)

/-- Punctuators that need an operand after them and, on a new line, carry on the expression before
them: binary and assignment operators, `:`, `,`, `?` and the brackets of indexing and calls. -/
def joinsOperands : Punctuator → Bool
  | .braceClose | .braceOpen | .bracketClose | .chevronLeftSlash | .dot | .dotDotDot
  | .equalsChevronRight | .exclamation | .hyphenHyphen | .parenthesisClose | .plusPlus
  | .questionDot | .semicolon | .tilde => false
  | _ => true

end Punctuator

/-! ## Brackets -/

/-- The three kinds of bracket pairs. -/
inductive Bracket where
  | brace | square | parenthesis
deriving DecidableEq, Repr

def Bracket.close : Bracket → Punctuator
  | .brace => .braceClose
  | .square => .bracketClose
  | .parenthesis => .parenthesisClose

/-- The pair that a punctuator opens; optional calls and indexing open one too. -/
def Punctuator.opens? : Punctuator → Option Bracket
  | .braceOpen => some .brace
  | .bracketOpen | .questionDotBracketOpen => some .square
  | .parenthesisOpen | .questionDotParenthesisOpen => some .parenthesis
  | _ => none

def Punctuator.closes? : Punctuator → Option Bracket
  | .braceClose => some .brace
  | .bracketClose => some .square
  | .parenthesisClose => some .parenthesis
  | _ => none

@[simp] theorem Bracket.closes?_close (b : Bracket) : b.close.closes? = some b := by
  cases b <;> rfl

theorem Punctuator.closes?_eq_some_iff (p : Punctuator) (b : Bracket) :
    p.closes? = some b ↔ p = b.close := by
  cases p <;> cases b <;> decide

/-! ## Keywords -/

/-- The words with a token of their own. -/
inductive Keyword where
  | asWord | asyncWord | awaitWord | breakWord | caseWord | catchWord | classWord | constWord
  | constructorWord | continueWord | debuggerWord | defaultWord | deleteWord | doWord | elseWord
  | enumWord | exportWord | extendsWord | finallyWord | forWord | fromWord | functionWord
  | getWord | ifWord | importWord | inWord | instanceofWord | letWord | newWord | ofWord
  | returnWord | setWord | staticWord | superWord | switchWord | thisWord | throwWord | tryWord
  | typeofWord | varWord | voidWord | whileWord | withWord | yieldWord
deriving DecidableEq, Repr

namespace Keyword

def spelling : Keyword → Text
  | .asWord => "as".toList
  | .asyncWord => "async".toList
  | .awaitWord => "await".toList
  | .breakWord => "break".toList
  | .caseWord => "case".toList
  | .catchWord => "catch".toList
  | .classWord => "class".toList
  | .constWord => "const".toList
  | .constructorWord => "constructor".toList
  | .continueWord => "continue".toList
  | .debuggerWord => "debugger".toList
  | .defaultWord => "default".toList
  | .deleteWord => "delete".toList
  | .doWord => "do".toList
  | .elseWord => "else".toList
  | .enumWord => "enum".toList
  | .exportWord => "export".toList
  | .extendsWord => "extends".toList
  | .finallyWord => "finally".toList
  | .forWord => "for".toList
  | .fromWord => "from".toList
  | .functionWord => "function".toList
  | .getWord => "get".toList
  | .ifWord => "if".toList
  | .importWord => "import".toList
  | .inWord => "in".toList
  | .instanceofWord => "instanceof".toList
  | .letWord => "let".toList
  | .newWord => "new".toList
  | .ofWord => "of".toList
  | .returnWord => "return".toList
  | .setWord => "set".toList
  | .staticWord => "static".toList
  | .superWord => "super".toList
  | .switchWord => "switch".toList
  | .thisWord => "this".toList
  | .throwWord => "throw".toList
  | .tryWord => "try".toList
  | .typeofWord => "typeof".toList
  | .varWord => "var".toList
  | .voidWord => "void".toList
  | .whileWord => "while".toList
  | .withWord => "with".toList
  | .yieldWord => "yield".toList

/-- Every keyword, in alphabetical order. -/
def all : List Keyword :=
  [.asWord, .asyncWord, .awaitWord, .breakWord, .caseWord, .catchWord, .classWord, .constWord,
   .constructorWord, .continueWord, .debuggerWord, .defaultWord, .deleteWord, .doWord, .elseWord,
   .enumWord, .exportWord, .extendsWord, .finallyWord, .forWord, .fromWord, .functionWord,
   .getWord, .ifWord, .importWord, .inWord, .instanceofWord, .letWord, .newWord, .ofWord,
   .returnWord, .setWord, .staticWord, .superWord, .switchWord, .thisWord, .throwWord, .tryWord,
   .typeofWord, .varWord, .voidWord, .whileWord, .withWord, .yieldWord]

def ofSpelling? (word : Text) : Option Keyword :=
  all.find? fun keyword => keyword.spelling == word

def name (keyword : Keyword) : String :=
  match keyword.spelling with
  | [] => "Keyword"
  | c :: rest => "Keyword" ++ String.ofList (c.toUpper :: rest)

/-- Keywords that are plain identifiers wherever statements are split. -/
def isContextual : Keyword → Bool
  | .asWord | .asyncWord | .constructorWord | .fromWord | .getWord | .ofWord | .setWord
  | .staticWord => true
  | _ => false

/-- Keywords that an operand follows, so that a brace after them opens an object literal. -/
def takesOperand : Keyword → Bool
  | .awaitWord | .caseWord | .deleteWord | .inWord | .instanceofWord | .newWord | .returnWord
  | .throwWord | .typeofWord | .voidWord | .yieldWord => true
  | _ => false

/-- Keywords whose operand must start on the same line. -/
def isRestricted : Keyword → Bool
  | .breakWord | .continueWord | .returnWord | .yieldWord => true
  | _ => false

/-- Keywords after which a statement may end at a line break. -/
def endsStatement : Keyword → Bool
  | .breakWord | .continueWord | .debuggerWord | .returnWord | .superWord | .thisWord
  | .yieldWord => true
  | _ => false

end Keyword

/-! ## Kinds -/

/-- Literals. A template literal that a substitution follows is a `templateHead`; its last part,
and a template literal folded into one unit, is a `template`. -/
inductive Literal where
  | bigInt | falseValue | nullValue | number | regex | string | templateHead | template
  | trueValue
deriving DecidableEq, Repr

def Literal.name : Literal → String
  | .bigInt => "LiteralBigInt"
  | .falseValue => "LiteralFalse"
  | .nullValue => "LiteralNull"
  | .number => "LiteralNumber"
  | .regex => "LiteralRegex"
  | .string => "LiteralString"
  | .templateHead => "LiteralTemplatePartString"
  | .template => "LiteralTemplatePartStringEnd"
  | .trueValue => "LiteralTrue"

/-- Literals after which a statement may end at a line break. -/
def Literal.endsStatement : Literal → Bool
  | .templateHead => false
  | _ => true

/-- What a token is. `jsx` is the text between tags and, as a unit, a whole element. -/
inductive Kind where
  | eof
  | identifier
  | privateName
  | jsx
  | punctuator (p : Punctuator)
  | keyword (word : Keyword)
  | literal (value : Literal)
deriving DecidableEq, Repr

namespace Kind

def name : Kind → String
  | .eof => "EOF"
  | .identifier => "Identifier"
  | .privateName => "PrivateMember"
  | .jsx => "JsxTextContent"
  | .punctuator p => p.name
  | .keyword word => word.name
  | .literal value => value.name

def isKeyword : Kind → Bool
  | .keyword _ => true
  | _ => false

def opens? : Kind → Option Bracket
  | .punctuator p => p.opens?
  | _ => none

def closes? : Kind → Option Bracket
  | .punctuator p => p.closes?
  | _ => none

/-- Units after which a statement may end at a line break; a folded group has the kind of its
opening bracket. -/
def endsStatement : Kind → Bool
  | .identifier | .privateName | .jsx => true
  | .punctuator .plusPlus | .punctuator .hyphenHyphen => true
  | .punctuator p => p.opens?.isSome
  | .keyword word => word.endsStatement
  | .literal value => value.endsStatement
  | .eof => false

/-- Units that, on a new line, carry on the expression before them. -/
def continuesExpression : Kind → Bool
  | .punctuator .dot | .punctuator .equalsChevronRight | .punctuator .questionDot => true
  | .punctuator p => p.joinsOperands
  | .keyword .inWord | .keyword .instanceofWord => true
  | .literal .template => true
  | _ => false

/-- Units before which no line break is allowed to be bridged. -/
def isRestricted : Kind → Bool
  | .keyword word => word.isRestricted
  | _ => false

/-- Units after which a brace opens an object literal and not a block. -/
def takesOperand : Kind → Bool
  | .punctuator .dotDotDot | .punctuator .exclamation | .punctuator .tilde => true
  | .punctuator p => p.joinsOperands
  | .keyword word => word.takesOperand
  | _ => false

/-- Words whose parenthesised header is followed by a statement. -/
def takesHeader : Kind → Bool
  | .keyword .ifWord | .keyword .whileWord | .keyword .forWord | .keyword .withWord => true
  | _ => false

/-- Accesses after which every keyword is a property name. -/
def accessesMember : Kind → Bool
  | .punctuator .dot | .punctuator .questionDot => true
  | _ => false

end Kind

/-! ## Tokens -/

/-- A token or a unit folded from several. `lexeme` holds its characters; a folded unit keeps those
of its first token. `onNewLine` says that a line break or a line comment lies before it. -/
structure Token where
  kind : Kind
  span : Span
  lexeme : Text
  onNewLine : Bool
deriving DecidableEq, Repr

namespace Token

def isWord (token : Token) (word : String) : Bool :=
  token.kind == .identifier && token.lexeme == word.toList

def isPunctuator (token : Token) (p : Punctuator) : Bool := token.kind == .punctuator p

def isKeyword (token : Token) (word : Keyword) : Bool := token.kind == .keyword word

def upTo (token : Token) (last : Span) : Token :=
  { token with span := ⟨token.span.start, last.stop⟩ }

end Token

end Relink
