import Relink.Scan.Reader

/-!
# Groups

Bracketed groups, template literals and JSX elements are passed over whole. What stands directly in
a group is read by an action `unit` that is a parameter here, so a group knows nothing of what may
be nested in it.
-/

set_option autoImplicit false

namespace Relink.Scan

/-! ## Brackets -/

/-- What a unit means to the innermost open group. -/
def closeOrGoOn (bracket : Bracket) (token : Token) (goOn : Scan Span) : Scan Span :=
  if token.kind = .punctuator bracket.close then pure token.span
  else if token.kind = .eof then
    fail ⟨.unexpectedEnd, token.span, some (.punctuator bracket.close)⟩
  else if token.kind.closes?.isSome then
    fail (.atToken (.tokenRequired (.punctuator bracket.close)) token)
  else goOn

/-- Passes over units through the bracket that closes the group, which must be the next closing
bracket that is not in a nested group. Gives the span of that bracket. -/
def group (unit : Scan Token) (bracket : Bracket) : Nat → Scan Span
  | 0 => outOfFuel
  | fuel + 1 => do
    let token ← unit
    closeOrGoOn bracket token (group unit bracket fuel)

/-- Passes over a substitution of a template or an element. -/
def substitution (unit : Scan Token) (fuel : Nat) : Scan Unit := do
  -- It is read like the contents of parentheses, though a brace closes it.
  follow true (.punctuator .parenthesisOpen)
  let _ ← group unit .brace fuel
  pure ()

/-! ## Templates -/

/-- Passes over the rest of a template literal after a part that `ending` ended. -/
def templateRest (substitution : Scan Unit) (opening : Nat) : Nat → Literal → Scan Unit
  | 0, _ => outOfFuel
  | fuel + 1, ending =>
    if ending = .templateHead then do
      substitution
      let next ← templatePart opening
      templateRest substitution opening fuel next
    else
      pure ()

/-- Folds a template literal, whose first part is read, into one unit. -/
def template (substitution : Scan Unit) (fuel : Nat) (first : Token) (ending : Literal) :
    Scan Token := do
  -- The span of a part leaves out the backtick before it.
  let opening := first.span.start - 1
  templateRest substitution opening fuel ending
  let stop ← position
  pure { first with kind := .literal .template, span := ⟨opening, stop⟩ }

/-! ## Elements -/

/-- Reads a token inside a tag, where the module must not end. -/
def tagToken : Scan Token := do
  let token ← Scan.token .tag
  if token.kind = .eof then fail (.atToken .unexpectedEnd token) else pure token

/-- Reads a tag name (`div`, `Foo.Bar`, `svg:rect`) that starts at `token`. Gives the name and the
first token after it. -/
def elementName : Nat → Token → Scan (Text × Token)
  | 0, _ => outOfFuel
  | fuel + 1, token =>
    if token.kind = .identifier ∨ token.kind.isKeyword then do
      let next ← tagToken
      if next.isPunctuator .dot || next.isPunctuator .colon then do
        let part ← tagToken
        let more ← elementName fuel part
        pure (token.lexeme ++ next.lexeme ++ more.1, more.2)
      else
        pure (token.lexeme, next)
    else
      fail (.atToken (.missing .elementName) token)

/-- Reads the name of a tag, if it has one: a fragment's tags have none. -/
def tagName (fuel : Nat) (token : Token) : Scan (Text × Token) :=
  if token.isPunctuator .chevronRight then pure ([], token) else elementName fuel token

/-- How a tag ends. -/
inductive TagEnd where
  /-- With `>`: children follow. -/
  | opened
  /-- With `/>`, which ends here. -/
  | selfClosed (stop : Span)
deriving DecidableEq, Repr

/-- Tokens that stand for themselves among attributes. -/
def isAttributeToken (token : Token) : Bool :=
  token.kind == .identifier || token.isPunctuator .colon || token.isPunctuator .equals ||
    token.kind == .literal .string || token.kind.isKeyword

/-- Passes over attributes through the end of the tag, beginning at `token`. -/
def attributes (substitution : Scan Unit) (element : Token → Scan Token) :
    Nat → Token → Scan TagEnd
  | 0, _ => outOfFuel
  | fuel + 1, token =>
    if token.isPunctuator .chevronRight then pure .opened
    else if token.isPunctuator .slash then do
      let close ← tagToken
      require (.punctuator .chevronRight) close
      pure (.selfClosed close.span)
    else if token.isPunctuator .braceOpen then do
      substitution
      let next ← tagToken
      attributes substitution element fuel next
    else if token.isPunctuator .chevronLeft then do
      let _ ← element token
      let next ← tagToken
      attributes substitution element fuel next
    else if isAttributeToken token then do
      let next ← tagToken
      attributes substitution element fuel next
    else
      fail (.atToken .unexpectedToken token)

/-- Reads a closing tag, whose `</` is `open`. Gives the span of its `>`. -/
def closingTag (name : Text) (fuel : Nat) (opening : Token) : Scan Span := do
  let first ← tagToken
  let named ← tagName fuel first
  require (.punctuator .chevronRight) named.2
  if named.1 = name then pure named.2.span
  else fail ⟨.closingTagMismatch, ⟨opening.span.start, named.2.span.stop⟩, none⟩

/-- Passes over the children of an element that starts at `opening`, through its closing tag. -/
def children (substitution : Scan Unit) (element : Token → Scan Token) (name : Text)
    (opening : Nat) : Nat → Scan Span
  | 0 => outOfFuel
  | fuel + 1 => do
    elementText opening
    let child ← tagToken
    if child.isPunctuator .braceOpen then do
      substitution
      children substitution element name opening fuel
    else if child.isPunctuator .chevronLeftSlash then
      closingTag name fuel child
    else if child.isPunctuator .chevronLeft then do
      let _ ← element child
      children substitution element name opening fuel
    else
      fail (.atToken .unexpectedToken child)

/-- Passes over what follows the name in an opening tag, and over the children if there are any.
Gives the span of the last `>`. -/
def elementRest (substitution : Scan Unit) (element : Token → Scan Token) (fuel : Nat)
    (opening : Token) (named : Text × Token) : Scan Span := do
  let ending ← attributes substitution element fuel named.2
  match ending with
  | .selfClosed stop => pure stop
  | .opened => children substitution element named.1 opening.span.start fuel

/-- Folds an element or a fragment, whose `<` is `opening`, into one unit. -/
def element (substitution : Scan Unit) : Nat → Token → Scan Token
  | 0, _ => outOfFuel
  | fuel + 1, opening => do
    let first ← tagToken
    let named ← tagName (fuel + 1) first
    let stop ← elementRest substitution (element substitution fuel) (fuel + 1) opening named
    pure { opening.upTo stop with kind := .jsx }

end Relink.Scan
