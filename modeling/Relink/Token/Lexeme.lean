import Relink.Token

/-!
# Lexemes

How the characters of one token are told from those after it, class by class: words, numbers,
strings, regular expressions, templates and punctuators. Everything is decided by the characters
from the token's first one on.
-/

set_option autoImplicit false

namespace Relink.Token

/-- Why no token can be read. -/
inductive Fault where
  | noToken
  | unexpectedEnd
  | lineBreakInRegex
  | lineBreakInString
  | privateNameExpected
deriving DecidableEq, Repr

/-! ## Words -/

/-- ASCII characters that may start a word. -/
def isWordStart (c : Char) : Bool := c.isAlpha || c == '_' || c == '$'

/-- ASCII characters that may follow in a word. -/
def isWordPart (c : Char) : Bool := isWordStart c || c.isDigit

/-- Characters outside ASCII, all of which may stand in identifiers. -/
def isForeign (c : Char) : Bool := 0x80 ≤ c.val

/-- Characters that may follow in an identifier; inside a JSX tag a hyphen may too. -/
def isNamePart (inTag : Bool) (c : Char) : Bool :=
  isWordPart c || isForeign c || (inTag && c == '-')

/-- The kind of a word with a token of its own. -/
def reservedKind? (word : Text) : Option Kind :=
  if word = "true".toList then some (.literal .trueValue)
  else if word = "false".toList then some (.literal .falseValue)
  else if word = "null".toList then some (.literal .nullValue)
  else (Keyword.ofSpelling? word).map .keyword

/-- A keyword if the ASCII word at the front is one, else an identifier. -/
def word (inTag : Bool) (text : Text) : Kind × Text × Text :=
  match reservedKind? (text.takeWhile isWordPart) with
  -- Also where a character outside ASCII follows, which then starts the next token.
  | some kind => (kind, text.takeWhile isWordPart, text.dropWhile isWordPart)
  | none => (.identifier, text.takeWhile (isNamePart inTag), text.dropWhile (isNamePart inTag))

/-! ## Numbers -/

def isHexDigit (c : Char) : Bool := c.isDigit || ('a' ≤ c && c ≤ 'f') || ('A' ≤ c && c ≤ 'F')

def isBinaryDigit (c : Char) : Bool := c == '0' || c == '1'

/-- Digits of octal numbers; an 8 is let through. -/
def isOctalDigit (c : Char) : Bool := '0' ≤ c && c ≤ '8'

/-- The characters at the front of a text that satisfy a test, and what follows. -/
def spanWhile (test : Char → Bool) (text : Text) : Text × Text :=
  (text.takeWhile test, text.dropWhile test)

/-- One given character, if it stands at the front. -/
def optionalChar (test : Char → Bool) : Text → Text × Text
  | [] => ([], [])
  | c :: rest => if test c then ([c], rest) else ([], c :: rest)

/-- A number of another radix than ten, from after its two characters `lead` of radix mark: digits,
and an `n` behind a big integer. There need not be a digit. -/
def radixNumber (isDigit : Char → Bool) (lead text : Text) : Kind × Text × Text :=
  let digits := spanWhile isDigit text
  match digits.2 with
  | 'n' :: rest => (.literal .bigInt, lead ++ digits.1 ++ ['n'], rest)
  | rest => (.literal .number, lead ++ digits.1, rest)

def exponent : Text → Except Fault (Text × Text)
  | [] => .ok ([], [])
  | e :: rest =>
    if e == 'e' || e == 'E' then
      match rest with
      -- An `e` needs some character after it, which need not be a digit.
      | [] => .error .unexpectedEnd
      | next :: after =>
        let sign := optionalChar (fun c => c == '+' || c == '-') (next :: after)
        let digits := spanWhile Char.isDigit sign.2
        .ok (e :: sign.1 ++ digits.1, digits.2)
    else
      .ok ([], e :: rest)

/-- A decimal number: digits, then either an `n` or a point, digits and an exponent. -/
def decimal (text : Text) : Except Fault (Kind × Text × Text) :=
  let whole := spanWhile Char.isDigit text
  match whole.2 with
  | 'n' :: rest => .ok (.literal .bigInt, whole.1 ++ ['n'], rest)
  | _ =>
    let point := optionalChar (· == '.') whole.2
    let fraction := spanWhile Char.isDigit point.2
    match exponent fraction.2 with
    | .error fault => .error fault
    | .ok (power, rest) => .ok (.literal .number, whole.1 ++ point.1 ++ fraction.1 ++ power, rest)

def number (text : Text) : Except Fault (Kind × Text × Text) :=
  match text with
  | '0' :: r :: rest =>
    if r == 'b' || r == 'B' then .ok (radixNumber isBinaryDigit ['0', r] rest)
    else if r == 'x' || r == 'X' then .ok (radixNumber isHexDigit ['0', r] rest)
    else if r == 'o' || r == 'O' then .ok (radixNumber isOctalDigit ['0', r] rest)
    else decimal text
  | _ => decimal text

/-! ## Strings, regular expressions and templates -/

def prepend {α : Type} (chars : Text) (read : Except Fault (Text × α)) : Except Fault (Text × α) :=
  read.map fun parts => (chars ++ parts.1, parts.2)

/-- A string from after its opening quote through its closing one. A backslash takes the next
character along, whatever it is. -/
def stringBody (quote : Char) : Text → Except Fault (Text × Text)
  | [] => .error .unexpectedEnd
  | '\\' :: [] => .error .unexpectedEnd
  | '\\' :: c :: rest => prepend ['\\', c] (stringBody quote rest)
  | c :: rest =>
    if c = '\n' then .error .lineBreakInString
    else if c = quote then .ok ([c], rest)
    else prepend [c] (stringBody quote rest)

/-- A regular expression from after its opening slash through its closing one, which does not count
inside a class. A backslash takes the next character along, even a line feed. -/
def regexBody (inClass : Bool) : Text → Except Fault (Text × Text)
  | [] => .error .unexpectedEnd
  | '\\' :: [] => .error .unexpectedEnd
  | '\\' :: c :: rest => prepend ['\\', c] (regexBody inClass rest)
  | c :: rest =>
    if c = '\n' then .error .lineBreakInRegex
    else if c = '/' ∧ inClass = false then .ok ([c], rest)
    else prepend [c] (regexBody (if c = '[' then true else if c = ']' then false else inClass) rest)

/-- A regular expression with its flags, from after the opening slash. -/
def regex (text : Text) : Except Fault (Text × Text) :=
  match regexBody false text with
  | .error fault => .error fault
  | .ok (body, rest) =>
    let flags := spanWhile isWordPart rest
    .ok (body ++ flags.1, flags.2)

/-- The text of a template part, with the kind and the delimiter that end it: a backtick, or a
dollar sign and a brace before a substitution. -/
def templatePart : Text → Except Fault (Text × Literal × Text × Text)
  | [] => .error .unexpectedEnd
  | '\x60' :: rest => .ok ([], .template, ['\x60'], rest)
  | '$' :: '{' :: rest => .ok ([], .templateHead, ['$', '{'], rest)
  | '\\' :: [] => .error .unexpectedEnd
  | '\\' :: c :: rest => prepend ['\\', c] (templatePart rest)
  | c :: rest => prepend [c] (templatePart rest)

/-- A private name, from after its `#`. It holds no hyphen, inside a tag neither. -/
def privateName : Text → Except Fault (Text × Text)
  | [] => .error .unexpectedEnd
  | c :: rest =>
    if isWordStart c then .ok (spanWhile (isNamePart false) (c :: rest))
    else .error .privateNameExpected

/-! ## Punctuators -/

/-- The longest punctuator at the front. -/
def punctuator? (text : Text) : Option Punctuator :=
  match text with
  -- In `a?.5:b` the question mark stands alone, and the number has the point.
  | '?' :: '.' :: d :: _ =>
    if d.isDigit then some .question
    else Punctuator.longestFirst.find? fun p => p.spelling.isPrefixOf text
  | _ => Punctuator.longestFirst.find? fun p => p.spelling.isPrefixOf text

end Relink.Token
