import Relink.Script.Shell

/-!
# Arithmetic

Expressions over integers of 64 bits with the operators of C. They are evaluated as they are read, by
a table of precedences, so that what goes wrong first is complained about. An operand that does not
count is read and not evaluated.
-/

set_option autoImplicit false

namespace Relink.Script.Arithmetic

/-! ## Operators -/

/-- Operators on two integers. -/
inductive Binary where
  | multiply | divide | remainder | add | subtract | shiftLeft | shiftRight | less | lessEqual
  | greater | greaterEqual | equal | unequal | bitAnd | bitXor | bitOr
deriving DecidableEq, Repr

/-- Operators on one integer. -/
inductive Unary where
  | plus | minus | not | complement
deriving DecidableEq, Repr

/-! ## Tokens -/

/-- A token. -/
inductive Token where
  | number (value : Int)
  | name (text : Text)
  | symbol (text : String)
deriving DecidableEq, Repr

/-- Symbols, each before those that begin it. -/
def symbols : List String :=
  ["<<=", ">>=", "<<", ">>", "<=", ">=", "==", "!=", "&&", "||", "+=", "-=", "*=", "/=", "%=", "&=",
    "^=", "|=", "<", ">", "=", "!", "&", "|", "^", "+", "-", "*", "/", "%", "~", "?", ":", "(", ")"]

def digit (c : Char) : Nat :=
  if c.isDigit then c.toNat - '0'.toNat
  else if 'a' ≤ c && c ≤ 'f' then c.toNat - 'a'.toNat + 10
  else c.toNat - 'A'.toNat + 10

def isDigitOf (base : Nat) (c : Char) : Bool :=
  (c.isDigit || ('a' ≤ c && c ≤ 'f') || ('A' ≤ c && c ≤ 'F')) && digit c < base

/-- The number that digits are, at most the greatest integer. -/
def ofDigits (base : Nat) (digits : Text) : Int :=
  let value := digits.foldl (fun sum c => sum * base + digit c) 0
  if value < Nat.pow 2 63 then value else Nat.pow 2 63 - 1

/-- A number at the front, in any base that its first characters ask for. -/
def number (text : Text) : Int × Text :=
  match text with
  | '0' :: x :: rest =>
    if (x == 'x' || x == 'X') && rest.head?.any (isDigitOf 16) then
      (ofDigits 16 (rest.takeWhile (isDigitOf 16)), rest.dropWhile (isDigitOf 16))
    else
      (ofDigits 8 (text.takeWhile (isDigitOf 8)), text.dropWhile (isDigitOf 8))
  | _ =>
    if text.head? = some '0' then
      (ofDigits 8 (text.takeWhile (isDigitOf 8)), text.dropWhile (isDigitOf 8))
    else
      (ofDigits 10 (text.takeWhile Char.isDigit), text.dropWhile Char.isDigit)

/-- The tokens of a text; at most one is made for each character. A character that no token starts
with ends them. -/
def tokens : Nat → Text → List Token
  | 0, _ => []
  | _, [] => []
  | fuel + 1, c :: rest =>
    if c = ' ' || c = '\t' || c = '\n' then tokens fuel rest
    else if c.isDigit then
      let found := number (c :: rest)
      .number found.1 :: tokens fuel found.2
    else if c.isAlpha || c = '_' then
      .name ((c :: rest).takeWhile fun d => d.isAlphanum || d == '_') ::
        tokens fuel ((c :: rest).dropWhile fun d => d.isAlphanum || d == '_')
    else
      match symbols.find? fun symbol => symbol.toList.isPrefixOf (c :: rest) with
      | some symbol => .symbol symbol :: tokens fuel ((c :: rest).drop symbol.length)
      | none => [.symbol ""]

/-- The operator of a symbol, with its precedence. -/
def binary? : String → Option (Binary × Nat)
  | "*" => some (.multiply, 10)
  | "/" => some (.divide, 10)
  | "%" => some (.remainder, 10)
  | "+" => some (.add, 9)
  | "-" => some (.subtract, 9)
  | "<<" => some (.shiftLeft, 8)
  | ">>" => some (.shiftRight, 8)
  | "<" => some (.less, 7)
  | "<=" => some (.lessEqual, 7)
  | ">" => some (.greater, 7)
  | ">=" => some (.greaterEqual, 7)
  | "==" => some (.equal, 6)
  | "!=" => some (.unequal, 6)
  | "&" => some (.bitAnd, 5)
  | "^" => some (.bitXor, 4)
  | "|" => some (.bitOr, 3)
  | _ => none

/-- The operator that a symbol applies as it assigns. -/
def assigning? : String → Option (Option Binary)
  | "=" => some none
  | "*=" => some (some .multiply)
  | "/=" => some (some .divide)
  | "%=" => some (some .remainder)
  | "+=" => some (some .add)
  | "-=" => some (some .subtract)
  | "<<=" => some (some .shiftLeft)
  | ">>=" => some (some .shiftRight)
  | "&=" => some (some .bitAnd)
  | "^=" => some (some .bitXor)
  | "|=" => some (some .bitOr)
  | _ => none

def unary? : String → Option Unary
  | "+" => some .plus
  | "-" => some .minus
  | "!" => some .not
  | "~" => some .complement
  | _ => none

/-! ## Values -/

/-- An integer within 64 bits. -/
def wrap (value : Int) : Int := value.bmod (Nat.pow 2 64)

/-- One for what holds and zero for what does not. -/
def truth (condition : Bool) : Int := if condition then 1 else 0

def bits (value : Int) : BitVec 64 := BitVec.ofInt 64 value

def Binary.apply : Binary → Int → Int → Option Int
  | .multiply, a, b => some (wrap (a * b))
  | .divide, a, b => if b = 0 then none else some (wrap (a.tdiv b))
  | .remainder, a, b => if b = 0 then none else some (wrap (a.tmod b))
  | .add, a, b => some (wrap (a + b))
  | .subtract, a, b => some (wrap (a - b))
  | .shiftLeft, a, b => some ((bits a <<< (b.toNat % 64)).toInt)
  | .shiftRight, a, b => some ((bits a).sshiftRight (b.toNat % 64)).toInt
  | .less, a, b => some (truth (a < b))
  | .lessEqual, a, b => some (truth (a ≤ b))
  | .greater, a, b => some (truth (a > b))
  | .greaterEqual, a, b => some (truth (a ≥ b))
  | .equal, a, b => some (truth (a = b))
  | .unequal, a, b => some (truth (a ≠ b))
  | .bitAnd, a, b => some (bits a &&& bits b).toInt
  | .bitXor, a, b => some (bits a ^^^ bits b).toInt
  | .bitOr, a, b => some (bits a ||| bits b).toInt

def Unary.apply : Unary → Int → Int
  | .plus, a => a
  | .minus, a => wrap (-a)
  | .not, a => truth (a = 0)
  | .complement, a => (~~~ (bits a)).toInt

def render (value : Int) : Text := (toString value).toList

def isSpace (c : Char) : Bool := c == ' ' || (9 ≤ c.toNat && c.toNat ≤ 13)

/-- The integer that a text is, with blanks around it and a sign before it. How its digits are read
is given. -/
def integerBy (number : Text → Int × Text) (text : Text) : Option Int :=
  let bare := text.dropWhile isSpace
  let sign : Int := if bare.head? = some '-' then -1 else 1
  let digits := if bare.head? = some '-' || bare.head? = some '+' then bare.drop 1 else bare
  if digits.head?.any Char.isDigit then
    let found := number digits
    if (found.2.dropWhile isSpace).isEmpty then some (sign * found.1) else none
  else none

def integer? (text : Text) : Option Int := integerBy number text

/-- The integer that a text is in decimal digits, if it has 64 bits. -/
def decimal? (text : Text) : Option Int :=
  (integerBy (fun digits =>
    ((String.ofList (digits.takeWhile Char.isDigit)).toNat?.getD 0,
      digits.dropWhile Char.isDigit)) text).filter fun value => value.natAbs < Nat.pow 2 63

/-- The value of a variable. One that is not set is zero. -/
def lookUp (name : Text) : Run Int := do
  match (← get).get? name with
  | none => pure 0
  | some text =>
    if text.isEmpty then pure 0
    else
      match integer? text with
      | some value => pure value
      | none => fail ("Illegal number: ".toList ++ text)

def complainAbout {α : Type} (source : Text) (message : String) : Run α :=
  fail ("arithmetic expression: ".toList ++ message.toList ++ ": \"".toList ++ source ++ ['\x22'])

/-! ## Evaluation -/

/-- What the tokens at the front come to, and the tokens behind them. -/
abbrev Evaluation := Run (Int × List Token)

/-- What evaluations share: the text of the whole expression, and whether anything counts. -/
structure Setting where
  source : Text
  counts : Bool

/-- The setting of an operand that may not count. -/
def Setting.only (setting : Setting) (condition : Bool) : Setting :=
  { setting with counts := setting.counts && condition }

def apply (setting : Setting) (operator : Binary) (left right : Int) : Run Int := do
  if !setting.counts then pure right
  else
    match operator.apply left right with
    | some value => pure value
    | none => complainAbout setting.source "division by zero"

/-- Sets a variable to a value, or to what an operator makes of its own and that. -/
def assign (setting : Setting) (name : Text) (operator : Option Binary) (given : Int) :
    Run Int := do
  if !setting.counts then pure given
  else
    let value ←
      match operator with
      | none => pure given
      | some operator => do apply setting operator (← lookUp name) given
    assignVariable name (render value) false
    pure value

mutual

/-- An assignment, or a choice. -/
def assignment : Nat → Setting → List Token → Evaluation
  | 0, setting, _ => complainAbout setting.source "expecting primary"
  | fuel + 1, setting, .name name :: .symbol symbol :: rest =>
    match assigning? symbol with
    | some operator => do
      let (given, others) ← assignment fuel setting rest
      pure (← assign setting name operator given, others)
    | none => conditional fuel setting (.name name :: .symbol symbol :: rest)
  | fuel + 1, setting, input => conditional fuel setting input

/-- A choice by a condition, or the condition alone. -/
def conditional : Nat → Setting → List Token → Evaluation
  | 0, setting, _ => complainAbout setting.source "expecting primary"
  | fuel + 1, setting, input => do
    match ← disjunction fuel setting input with
    | (condition, .symbol "?" :: rest) =>
      let (consequent, afterConsequent) ← assignment fuel (setting.only (condition ≠ 0)) rest
      match afterConsequent with
      | .symbol ":" :: others =>
        let (alternative, after) ← conditional fuel (setting.only (condition = 0)) others
        pure (if condition ≠ 0 then consequent else alternative, after)
      | _ => complainAbout setting.source "expecting ':'"
    | found => pure found

def disjunction : Nat → Setting → List Token → Evaluation
  | 0, setting, _ => complainAbout setting.source "expecting primary"
  | fuel + 1, setting, input => do
    match ← conjunction fuel setting input with
    | (left, .symbol "||" :: rest) =>
      let (right, after) ← disjunction fuel (setting.only (left = 0)) rest
      pure (truth (left ≠ 0 || right ≠ 0), after)
    | found => pure found

def conjunction : Nat → Setting → List Token → Evaluation
  | 0, setting, _ => complainAbout setting.source "expecting primary"
  | fuel + 1, setting, input => do
    let (first, after) ← operand fuel setting input
    match ← operations fuel setting 0 first after with
    | (left, .symbol "&&" :: rest) =>
      let (right, others) ← conjunction fuel (setting.only (left ≠ 0)) rest
      pure (truth (left ≠ 0 && right ≠ 0), others)
    | found => pure found

/-- The operators behind an operand that bind no less than a precedence. -/
def operations : Nat → Setting → Nat → Int → List Token → Evaluation
  | 0, setting, _, _, _ => complainAbout setting.source "expecting primary"
  | fuel + 1, setting, least, left, .symbol symbol :: rest =>
    match binary? symbol with
    | some (operator, precedence) =>
      if precedence < least then pure (left, .symbol symbol :: rest)
      else do
        let (first, after) ← operand fuel setting rest
        let (right, others) ← operations fuel setting (precedence + 1) first after
        operations fuel setting least (← apply setting operator left right) others
    | none => pure (left, .symbol symbol :: rest)
  | _ + 1, _, _, left, rest => pure (left, rest)

def operand : Nat → Setting → List Token → Evaluation
  | 0, setting, _ => complainAbout setting.source "expecting primary"
  | _ + 1, _, .number value :: rest => pure (value, rest)
  | _ + 1, setting, .name name :: rest => do
    let found ← if setting.counts then lookUp name else pure 0
    pure (found, rest)
  | fuel + 1, setting, .symbol symbol :: rest =>
    if symbol = "(" then do
      let (inside, after) ← assignment fuel setting rest
      match after with
      | .symbol ")" :: others => pure (inside, others)
      | _ => complainAbout setting.source "expecting ')'"
    else
      match unary? symbol with
      | some operator => do
        let (inside, after) ← operand fuel setting rest
        pure (operator.apply inside, after)
      | none => complainAbout setting.source "expecting primary"
  | _ + 1, setting, [] => complainAbout setting.source "expecting primary"

end

def value (source : Text) : Run Int := do
  let all := tokens (source.length + 1) source
  let (found, rest) ← assignment (8 * all.length + 16) ⟨source, true⟩ all
  if rest.isEmpty then pure found else complainAbout source "expecting EOF"

end Relink.Script.Arithmetic
