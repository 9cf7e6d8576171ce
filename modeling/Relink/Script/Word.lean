import Relink.Script.Source

/-!
# Words

Words are read part by part: literals, quotes, parameters, arithmetic and the commands whose output
stands in the word. How a list of commands is read is a parameter here.
-/

set_option autoImplicit false

namespace Relink.Script

/-- Where parts of a word stand. -/
inductive Context where
  | bare
  /-- In a word that ends a document. -/
  | ending
  | quotes
  /-- Between braces, outside quotes. -/
  | braces
  /-- Between braces, within quotes. -/
  | quotedBraces
  /-- In an expression, within so many parentheses. -/
  | arithmetic (depth : Nat)
  /-- In a document of the script. -/
  | document
deriving DecidableEq, Repr

namespace Context

def isQuoted : Context → Bool
  | .bare | .ending | .braces => false
  | _ => true

def isPlain (context : Context) : Bool := !context.isQuoted

def atEnd : Context → Read (List Part)
  | .bare | .ending | .document => pure []
  | .quotes | .quotedBraces => complain "Unterminated quoted string"
  | .braces => complain "Missing '\x7d'"
  | .arithmetic _ => complain "Missing '))'"

def inBraces (context : Context) : Use → Context
  | .trimFront _ | .trimBack _ => .braces
  | _ => if context.isQuoted then .quotedBraces else .braces

def escapes (context : Context) (c : Char) : Bool :=
  context.isPlain || c == '\\' || c == '\x60' || c == '$' ||
    (c == '\x22' && context != .document) || (c == '\x7d' && context == .quotedBraces)

end Context

def endsWord (c : Char) : Bool :=
  c == ' ' || c == '\t' || c == '\n' || c == ';' || c == '&' || c == '|' || c == '<' || c == '>' ||
    c == '(' || c == ')'

/-! ## Raw parts -/

/-- The characters up to a closing single quote, and through it. -/
def singleQuoted : Nat → Read Text
  | 0 => exhausted
  | fuel + 1 => do
    match ← rawChar with
    | none => complain "Unterminated quoted string"
    | some '\x27' => pure []
    | some c => pure (c :: (← singleQuoted fuel))

/-- The characters up to a closing backquote, and through it, less the backslashes that only protect
a character from it. -/
def backquoted (inQuotes : Bool) : Nat → Read Text
  | 0 => exhausted
  | fuel + 1 => do
    match ← char with
    | none => complain "EOF in backquote substitution"
    | some '\x60' => pure []
    | some '\\' =>
      match ← rawChar with
      | none => complain "EOF in backquote substitution"
      | some c =>
        let protects := c == '\\' || c == '\x60' || c == '$' || (inQuotes && c == '\x22')
        let more ← backquoted inQuotes fuel
        pure (if protects then c :: more else '\\' :: c :: more)
    | some c => pure (c :: (← backquoted inQuotes fuel))

/-! ## Parameters -/

def useOf? (orEmpty : Bool) : Char → Option Use
  | '-' => some (.standIn orEmpty)
  | '=' => some (.assign orEmpty)
  | '?' => some (.demand orEmpty)
  | '+' => some (.replace orEmpty)
  | _ => none

/-- What is done with a parameter, from after its name. Its closing brace is passed over only where
nothing else stands before it. -/
def use : Read Use := do
  match ← char with
  | some '\n' =>
    modify fun source => { source with line := source.line - 1 }
    pure .senseless
  | some '\x7d' => pure .plain
  | some ':' =>
    match ← char with
    | some c => pure ((useOf? true c).getD .senseless)
    | none => pure .senseless
  | some '%' => pure (.trimBack (← skipChar '%'))
  | some '#' => pure (.trimFront (← skipChar '#'))
  | some c => pure ((useOf? false c).getD .senseless)
  | none => pure .senseless

/-- The name at the front: a word, digits or one special character. -/
def parameterName : Read (Option Text) := do
  match ← peek with
  | some c =>
    if startsName c then some <$> takeChars inName (← left)
    else if c.isDigit then some <$> takeChars Char.isDigit (← left)
    else if isSpecial c then
      let _ ← rawChar
      pure (some [c])
    else pure none
  | none => pure none

/-- The name and the use of a parameter whose size is asked for, from after the number sign. -/
def sizeOfParameter : Read (Text × Use) := do
  let source ← get
  match source.rest with
  | c :: '\x7d' :: _ =>
    if isSpecial c then
      let _ ← rawChar
      let _ ← rawChar
      pure ([c], .size)
    else if inName c then
      let name ← parameterName
      let _ ← rawChar
      pure (name.getD [], .size)
    else
      pure (['#'], ← use)
  | c :: _ =>
    if inName c then
      let name ← parameterName
      if ← skipChar '\x7d' then pure (name.getD [], .size) else pure (name.getD [], .senseless)
    else
      pure (['#'], ← use)
  | [] => pure (['#'], .senseless)

/-- The name and the use of a parameter in braces, from after the first brace. -/
def bracedParameter : Read (Text × Use) := do
  if (← peek) = some '#' then
    let _ ← rawChar
    let _ ← peek
    sizeOfParameter
  else
    match ← parameterName with
    | some name => pure (name, ← use)
    | none => pure ([], .senseless)

def Use.isClosed : Use → Bool
  | .plain | .size => true
  | _ => false

/-! ## Parts -/

/-- Reads parts up to the end of where they stand, and through what closes them. -/
abbrev PartsReader := Context → Read (List Part)

/-- The output of commands between parentheses, from after the first. -/
def parenthesized (list : Read (Option Command)) (inQuotes : Bool) : Read Part := do
  let before ← get
  set { before with putBack := false, awaited := [] }
  let body ← list
  if (← get).token ≠ .parenClose then expected .parenClose
  modify fun after =>
    { after with putBack := before.putBack, token := before.token, awaited := before.awaited }
  pure (.output body inQuotes)

/-- What a dollar sign starts, from after it. -/
def dollar (list : Read (Option Command)) (parts : PartsReader) (context : Context) :
    Read Part := do
  let inQuotes := context.isQuoted
  if ← skipChar '(' then
    if ← skipChar '(' then
      pure (.arithmetic (← parts (.arithmetic 0)) inQuotes)
    else
      parenthesized list inQuotes
  else if ← skipChar '\x7b' then
    let (name, use) ← bracedParameter
    if use.isClosed then pure (.parameter name use [] inQuotes)
    else pure (.parameter name use (← parts (context.inBraces use)) inQuotes)
  else
    match ← peek with
    | some c =>
      if c.isDigit then
        let _ ← rawChar
        pure (.parameter [c] .plain [] inQuotes)
      else
        match ← parameterName with
        | some name => pure (.parameter name .plain [] inQuotes)
        | none => pure (.literal ['$'] inQuotes)
    | none => pure (.literal ['$'] inQuotes)

/-- The output of commands between backquotes, from after the first. -/
def backquotes (list : Read (Option Command)) (context : Context) : Read Part := do
  let text ← backquoted context.isQuoted ((← left) + 1)
  let body ← within text 1 list
  pure (.output body context.isQuoted)

/-- What a backslash starts, from after it. -/
def backslash (context : Context) : Read Part := do
  match ← rawChar with
  | none => pure (.literal ['\\'] true)
  | some c => pure (.literal (if context.escapes c then [c] else ['\\', c]) true)

/-- Quoted parts. There is a field even if they are empty, unless they are the arguments and nothing
else. -/
def markQuoted : List Part → List Part
  | [.parameter ['@'] .plain [] true] => [.parameter ['@'] .plain [] true]
  | parts => .literal [] true :: parts

/-- A quote in a word, from after it. -/
def openQuotes (parts : PartsReader) (context : Context) : Read (List Part) := do
  if context.isPlain then markQuoted <$> parts .quotes
  else
    match context with
    | .quotedBraces => (.literal [] true :: ·) <$> parts .quotes
    | .document | .arithmetic _ => pure [.literal ['\x22'] true]
    | _ => pure []

/-- What a parenthesis comes to in an expression: the place behind it, unless it ends there. -/
def parenthesis (depth : Nat) (c : Char) : Read (Option Context) := do
  if c = '(' then pure (some (.arithmetic (depth + 1)))
  else if 0 < depth then pure (some (.arithmetic (depth - 1)))
  else if ← skipChar ')' then pure none
  else pure (some (.arithmetic 0))

/-- Whether a character ends the parts there, and is passed over with them. -/
def Context.isClosedBy (context : Context) (c : Char) : Bool :=
  match context with
  | .quotes => c == '\x22'
  | .braces | .quotedBraces => c == '\x7d'
  | _ => false

/-- The parts that stand somewhere in a word, through what closes them. -/
def partsWith (list : Read (Option Command)) (nested : PartsReader) :
    Nat → Context → Read (List Part)
  | 0, _ => exhausted
  | fuel + 1, context => do
    match ← peek with
    | none => context.atEnd
    | some c =>
      if (context == .bare || context == .ending) && endsWord c then pure []
      else
        let _ ← rawChar
        if context.isClosedBy c then pure []
        else if c = '\x22' then
          let inside ← openQuotes nested context
          pure (inside ++ (← partsWith list nested fuel context))
        else if c = '\x27' && context.isPlain then
          let inside ← singleQuoted ((← left) + 1)
          pure (.literal inside true :: (← partsWith list nested fuel context))
        else if c = '\\' then
          let part ← backslash context
          pure (part :: (← partsWith list nested fuel context))
        else if c = '$' && context != .ending then
          let part ← dollar list nested context
          pure (part :: (← partsWith list nested fuel context))
        else if c = '\x60' && context != .ending then
          let part ← backquotes list context
          pure (part :: (← partsWith list nested fuel context))
        else
          match context with
          | .arithmetic depth =>
            if c = '(' || c = ')' then
              match ← parenthesis depth c with
              | some inside => pure (.literal [c] true :: (← partsWith list nested fuel inside))
              | none => pure []
            else
              pure (.literal [c] true :: (← partsWith list nested fuel context))
          | _ => pure (.literal [c] context.isQuoted :: (← partsWith list nested fuel context))

/-- The parts that stand somewhere in a word, nested at most so deep. -/
def parts (list : Read (Option Command)) : Nat → PartsReader
  | 0 => fun _ => exhausted
  | depth + 1 => fun context => do
    partsWith list (parts list depth) ((← left) + 1) context

def word (list : Read (Option Command)) : Read Word := do
  let context := if (← get).readsEnding then Context.ending else .bare
  joinLiterals <$> parts list ((← left) + 1) context

/-- Whether any of a word is quoted. -/
def Word.hasQuotes (word : Word) : Bool :=
  word.any fun part =>
    match part with
    | .literal _ quoted => quoted
    | .parameter _ _ _ quoted => quoted
    | _ => false

/-! ## Documents -/

/-- Whether a line is continued on the next: a backslash stands at its end that no other one
protects. -/
def isContinued (line : Text) : Bool := (line.reverse.takeWhile (· == '\\')).length % 2 == 1

/-- The lines before the one that ends a document, and what follows that line. -/
def documentLines (awaited : Awaited) : Nat → Bool → Text → Text × Text
  | 0, _, rest => ([], rest)
  | _, _, [] => ([], [])
  | fuel + 1, continued, rest =>
    let line := rest.takeWhile (· != '\n')
    let others := rest.drop (line.length + 1)
    let shown := if awaited.dropsTabs && !continued then line.dropWhile (· == '\t') else line
    if shown = awaited.ending && !continued then ([], others)
    else
      let more := documentLines awaited fuel (awaited.expands && isContinued line) others
      (shown ++ (if rest.length = line.length then [] else ['\n']) ++ more.1, more.2)

def readDocument (list : Read (Option Command)) (awaited : Awaited) : Read Unit := do
  let source ← get
  let (body, rest) := documentLines awaited (source.rest.length + 1) false source.rest
  let taken := source.rest.take (source.rest.length - rest.length)
  let content : Word ←
    if awaited.expands then within body source.line (parts list (body.length + 1) .document)
    else pure [.literal body true]
  modify fun source =>
    { source with
      rest := rest, line := source.line + taken.count '\n'
      documents := source.documents ++ [(awaited.number, joinLiterals content)] }

def readDocuments (list : Read (Option Command)) : Read Unit := do
  let waiting := (← get).awaited
  modify fun source => { source with awaited := [] }
  waiting.forM (readDocument list)

/-! ## Tokens -/

/-- What is asked of the next token: whether line ends are passed over, and whether a word may be a
keyword or an alias. -/
structure Asking where
  pastNewlines : Bool
  keywords : Bool
  aliases : Bool

/-- The rest of a redirection's front, from after its first character. -/
def redirectionHead (digit : Option Char) (c : Char) : Read RedirectionHead := do
  let given := digit.map fun d => d.toNat - '0'.toNat
  if c = '>' then
    let descriptor := given.getD 1
    if ← skipChar '>' then pure (.file descriptor .append)
    else if ← skipChar '|' then pure (.file descriptor .replace)
    else if ← skipChar '&' then pure (.duplicate descriptor)
    else pure (.file descriptor .write)
  else
    let descriptor := given.getD 0
    if ← skipChar '<' then pure (.document descriptor (← skipChar '-'))
    else if ← skipChar '&' then pure (.duplicate descriptor)
    else if ← skipChar '>' then pure (.file descriptor .readWrite)
    else pure (.file descriptor .read)

/-- A word is at most the digit of a redirection. -/
def redirectionDigit? : Word → Option (Option Char)
  | [] => some none
  | [.literal [c] false] => if c.isDigit then some (some c) else none
  | _ => none

/-- A word, or the redirection whose front it turns out to be. -/
def wordToken (list : Read (Option Command)) : Read Token := do
  let found ← word list
  match ← peek, redirectionDigit? found with
  | some c, some digit =>
    if c = '<' || c = '>' then
      let _ ← rawChar
      let head ← redirectionHead digit c
      modify fun source => { source with redirection := head }
      pure .redirection
    else
      modify fun source => { source with word := found, wordQuoted := found.hasQuotes }
      pure .word
  | _, _ =>
    modify fun source => { source with word := found, wordQuoted := found.hasQuotes }
    pure .word

def skipComment : Read Unit :=
  modify fun source => { source with rest := source.rest.dropWhile (· != '\n') }

/-- The token at the front; blanks and comments before it are passed over. -/
def scanToken (list : Read (Option Command)) : Nat → Read Token
  | 0 => exhausted
  | fuel + 1 => do
    match ← peek with
    | none => pure .endOfFile
    | some c =>
      if c = ' ' || c = '\t' then
        let _ ← rawChar
        scanToken list fuel
      else if c = '#' then
        skipComment
        scanToken list fuel
      else if c = '\n' then
        let _ ← rawChar
        readDocuments list
        pure .newline
      else if c = '&' then
        let _ ← rawChar
        pure (if ← skipChar '&' then .andIf else .background)
      else if c = '|' then
        let _ ← rawChar
        pure (if ← skipChar '|' then .orIf else .bar)
      else if c = ';' then
        let _ ← rawChar
        pure (if ← skipChar ';' then .endOfBranch else .semicolon)
      else if c = '(' then
        let _ ← rawChar
        pure .parenOpen
      else if c = ')' then
        let _ ← rawChar
        pure .parenClose
      else
        wordToken list

/-- The token that was put back, or else the next one. -/
def nextToken (list : Read (Option Command)) : Read Token := do
  let source ← get
  if source.putBack then
    set { source with putBack := false }
    pure source.token
  else
    let token ← scanToken list (source.rest.length + 1)
    modify fun source => { source with token := token }
    pure token

def pastNewlines (list : Read (Option Command)) : Nat → Read Token
  | 0 => exhausted
  | fuel + 1 => do
    match ← nextToken list with
    | .newline => pastNewlines list fuel
    | token => pure token

def keyword? (source : Source) : Option Keyword :=
  match source.word, source.wordQuoted with
  | [.literal chars false], false =>
    Keyword.all.find? fun keyword => keyword.spelling.toList == chars
  | _, _ => none

/-- Closes the aliases that are used up before a new token is read. -/
def closeAliases : Read Unit :=
  modify fun source =>
    if source.putBack then source
    else
      { source with openAliases :=
          source.openAliases.filter fun entry => entry.left < source.rest.length }

/-- Whether a token was read behind an alias that lets the next word be one. -/
def followsAlias : Read Bool := do
  let source ← get
  pure (source.openAliases.any fun entry => entry.goesOn && source.rest.length ≤ entry.left)

/-- The alias that the last word is, if it is one that is not being read already. -/
def alias? (source : Source) : Option (Text × Text) :=
  match source.word, source.wordQuoted with
  | [.literal chars false], false =>
    source.aliases.find? fun entry =>
      entry.1 == chars && !source.openAliases.any fun known => known.name == chars
  | _, _ => none

def openAlias (name value : Text) : Read Unit :=
  modify fun source =>
    let goesOn := value.getLast?.any fun c => c == ' ' || c == '\t'
    { source with
      rest := value ++ source.rest
      openAliases := ⟨name, source.rest.length, goesOn⟩ :: source.openAliases }

/-- The next token once aliases are replaced, of which no more than so many follow one another. -/
def readTokenWithin (list : Read (Option Command)) (asking : Asking) : Nat → Read Token
  | 0 => exhausted
  | fuel + 1 => do
    closeAliases
    let token ←
      if asking.pastNewlines then pastNewlines list ((← left) + 2) else nextToken list
    let goesOn ← followsAlias
    let source ← get
    match token with
    | .word =>
      match (if asking.keywords then keyword? source else none) with
      | some keyword => pure (.keyword keyword)
      | none =>
        match (if asking.aliases || goesOn then alias? source else none) with
        | some (name, value) =>
          openAlias name value
          readTokenWithin list asking fuel
        | none => pure .word
    | _ => pure token

def readToken (list : Read (Option Command)) (asking : Asking) : Read Token := do
  let found ← readTokenWithin list asking ((← get).aliases.length + 2)
  modify fun source => { source with token := found }
  pure found

def putBack : Read Unit := modify fun source => { source with putBack := true }

end Relink.Script
