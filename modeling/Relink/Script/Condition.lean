import Relink.Script.Program

/-!
# Conditions

What `test` makes of its arguments: a few forms are told by the number of arguments, all others by
precedence, with `-o` below `-a` below `!`.
-/

set_option autoImplicit false

namespace Relink.Script.Condition

/-- What an argument can be. -/
inductive Kind where
  | unary | binary | or | and | not | open | close
deriving DecidableEq, Repr

def kind? (argument : Text) : Option Kind :=
  match String.ofList argument with
  | "-r" | "-w" | "-x" | "-e" | "-f" | "-d" | "-c" | "-b" | "-p" | "-u" | "-g" | "-k" | "-s"
  | "-t" | "-z" | "-n" | "-h" | "-O" | "-G" | "-L" | "-S" => some .unary
  | "=" | "!=" | "<" | ">" | "-eq" | "-ne" | "-ge" | "-gt" | "-le" | "-lt" | "-nt" | "-ot"
  | "-ef" => some .binary
  | "-o" => some .or
  | "-a" => some .and
  | "!" => some .not
  | "(" => some .open
  | ")" => some .close
  | _ => none

/-- What an argument means where an expression may start or go on. -/
inductive Token where
  | ended
  | operand
  | operator (kind : Kind)
deriving DecidableEq, Repr

/-- The token that arguments start with. An operator that nothing can follow is an operand. -/
def token : List Text → Token
  | [] => .ended
  | argument :: rest =>
    match kind? argument with
    | none => .operand
    | some .unary =>
      match rest with
      | [] => .operand
      | [_] => .operator .unary
      | next :: _ => if kind? next = some .binary then .operand else .operator .unary
    | some .open => if rest.isEmpty then .operand else .operator .open
    | some found => .operator found

/-! ## Operators -/

def integer (operand : Text) : Except Text Int :=
  match Arithmetic.decimal? operand with
  | some value => .ok value
  | none => .error ("Illegal number: ".toList ++ operand)

def isLink (tree : FileTree) (path : Path) : Bool :=
  match tree.entryOf path with
  | .ok (.found _ (.link _)) => true
  | _ => false

def isExecutable (tree : FileTree) (path : Path) : Bool :=
  match tree.node? path with
  | some (.file _ executable) => executable
  | some (.directory _) => true
  | _ => false

def hasContent (tree : FileTree) (path : Path) : Bool :=
  match tree.node? path with
  | some (.file content _) => content != .text [] && content != .binary []
  | some (.directory _) => true
  | _ => false

def unary (tree : FileTree) (operator operand : Text) : Except Text Bool :=
  let path : Path := ⟨operand⟩
  let isOutside := Program.isSystemDirectory operand || Program.isDevice operand ||
    Program.isProgramFile operand
  match String.ofList operator with
  | "-z" => .ok operand.isEmpty
  | "-n" => .ok (!operand.isEmpty)
  | "-e" | "-r" | "-w" | "-O" | "-G" => .ok (tree.contains path || isOutside)
  | "-x" => .ok (isExecutable tree path || (isOutside && !Program.isDevice operand))
  | "-f" => .ok (tree.isFile path || Program.isProgramFile operand)
  | "-d" => .ok (tree.isDirectory path || Program.isSystemDirectory operand)
  | "-c" => .ok (Program.isDevice operand)
  | "-h" | "-L" => .ok (isLink tree path)
  | "-s" => .ok (hasContent tree path || (isOutside && !Program.isDevice operand))
  | "-t" => (integer operand).map fun _ => false
  | _ => .ok false

def isSameFile (tree : FileTree) (left right : Path) : Bool :=
  match tree.canonical left, tree.canonical right with
  | .ok first, .ok second => first == second
  | _, _ => false

/-- Whether an operator holds between two operands. No file is taken to be older than another. -/
def binary (tree : FileTree) (operator left right : Text) : Except Text Bool :=
  let compare (holds : Int → Int → Bool) : Except Text Bool := do
    let a ← integer left
    let b ← integer right
    pure (holds a b)
  match String.ofList operator with
  | "=" => .ok (left == right)
  | "!=" => .ok (left != right)
  | "<" => .ok (Text.before left right)
  | ">" => .ok (Text.before right left)
  | "-eq" => compare (· == ·)
  | "-ne" => compare (· != ·)
  | "-ge" => compare (fun a b => decide (a ≥ b))
  | "-gt" => compare (fun a b => decide (a > b))
  | "-le" => compare (fun a b => decide (a ≤ b))
  | "-lt" => compare (fun a b => decide (a < b))
  | "-ef" => .ok (isSameFile tree ⟨left⟩ ⟨right⟩)
  | _ => .ok false

/-! ## Expressions -/

/-- Whether an expression holds, with the last argument of it and the arguments behind it. -/
structure Finding where
  holds : Bool
  last : Text
  rest : List Text

def misuse (operator : Text) (message : String) : Except Text Finding :=
  .error (if operator.isEmpty then message.toList else operator ++ ": ".toList ++ message.toList)

mutual

def either (tree : FileTree) : Nat → List Text → Except Text Finding
  | 0, _ => .error []
  | fuel + 1, arguments => do
    let first ← all tree fuel arguments
    if token first.rest = .operator .or then
      let second ← either tree fuel (first.rest.drop 1)
      pure { second with holds := first.holds || second.holds }
    else pure first

def all (tree : FileTree) : Nat → List Text → Except Text Finding
  | 0, _ => .error []
  | fuel + 1, arguments => do
    let first ← turned tree fuel arguments
    if token first.rest = .operator .and then
      let second ← all tree fuel (first.rest.drop 1)
      pure { second with holds := first.holds && second.holds }
    else pure first

def turned (tree : FileTree) : Nat → List Text → Except Text Finding
  | 0, _ => .error []
  | fuel + 1, arguments => do
    if token arguments = .operator .not then
      if arguments.length ≤ 1 then pure ⟨true, arguments.headD [], []⟩
      else
        let inside ← turned tree fuel (arguments.drop 1)
        pure { inside with holds := !inside.holds }
    else primary tree fuel arguments

/-- An expression in parentheses, an operator with its operands, or a lone operand. -/
def primary (tree : FileTree) : Nat → List Text → Except Text Finding
  | 0, _ => .error []
  | fuel + 1, arguments =>
    match token arguments, arguments with
    | _, [] => .ok ⟨false, [], []⟩
    | .operator .open, first :: rest => do
      if token rest = .operator .close then pure ⟨false, first, rest⟩
      else
        let inside ← either tree fuel rest
        if token inside.rest = .operator .close then
          pure ⟨inside.holds, inside.rest.headD [], inside.rest.drop 1⟩
        else misuse [] "closing paren expected"
    | .operator .unary, operator :: operand :: rest => do
      pure ⟨← unary tree operator operand, operand, rest⟩
    | .operator .unary, [operator] => misuse operator "argument expected"
    | _, left :: operator :: rest =>
      if token (operator :: rest) = .operator .binary then
        match rest with
        | right :: others => do pure ⟨← binary tree operator left right, right, others⟩
        | [] => misuse operator "argument expected"
      else .ok ⟨!left.isEmpty, left, operator :: rest⟩
    | _, [alone] => .ok ⟨!alone.isEmpty, alone, []⟩

end

/-- Whether an expression holds that all arguments are to be part of. -/
def whole (tree : FileTree) (arguments : List Text) : Except Text Bool := do
  let found ← either tree (8 * arguments.length + 8) arguments
  if found.rest.isEmpty then pure found.holds
  else throw ((← (misuse found.last "unexpected operator").map Finding.last))

def holdsWithin (tree : FileTree) : Nat → List Text → Except Text Bool
  | 0, _ => .error []
  | fuel + 1, arguments =>
    match arguments with
    | [] => .ok false
    | [left, operator, right] =>
      if kind? operator = some .binary then binary tree operator left right
      else if left = ['('] && right = [')'] then whole tree [operator]
      else if left = ['!'] then (holdsWithin tree fuel [operator, right]).map (!·)
      else whole tree arguments
    | [first, second, third, fourth] =>
      if first = ['('] && fourth = [')'] then whole tree [second, third]
      else if first = ['!'] then (holdsWithin tree fuel [second, third, fourth]).map (!·)
      else whole tree arguments
    | _ => whole tree arguments

def holds (tree : FileTree) (arguments : List Text) : Except Text Bool :=
  holdsWithin tree 3 arguments

end Relink.Script.Condition
