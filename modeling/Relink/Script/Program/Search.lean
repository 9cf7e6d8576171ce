import Relink.Script.Program.Filter
import Relink.Script.Regex

/-!
# Searching

Programs that look for lines that match, for files by their names, and the calculator that matches
texts, too.
-/

set_option autoImplicit false

namespace Relink.Script.Program

/-! ## Lines -/

/-- What a search goes by: whether a line matches, and all that matches in it. -/
structure Searcher where
  matching : Text → Bool
  parts : Text → List Text

/-- All matches of an expression in a text that are not empty; at most one starts at each place. -/
def allMatches (regex : Regex) (fold : Bool) : Nat → Option Char → Text → List Text
  | 0, _, _ => []
  | fuel + 1, before, text =>
    match regex.find? fold before text with
    | none => []
    | some found =>
      let passed := (found.front ++ found.matched).getLast?.or before
      if found.matched.isEmpty then
        match found.rest with
        | c :: rest => allMatches regex fold fuel (some c) rest
        | [] => []
      else found.matched :: allMatches regex fold fuel passed found.rest

def patternRegex (given : Given) (pattern : Text) : Except String Regex := do
  let bare : Regex ←
    if given.has 'F' then
      pure (pattern.foldr (fun c rest => .sequence (.char c) rest) .nothing)
    else Regex.ofText (given.has 'E') pattern
  if given.has 'x' then pure (.sequence .lineStart (.sequence bare .lineEnd))
  else if given.has 'w' then
    let edge := Regex.wordEdge true true
    pure (.sequence edge (.sequence bare edge))
  else pure bare

def searcher (given : Given) (patterns : List Text) : Except String Searcher := do
  let regexes ← patterns.mapM (patternRegex given)
  let any := (regexes.reverse.foldl (fun rest regex =>
    match rest with
    | none => some regex
    | some others => some (.either regex others)) none : Option Regex)
  let fold := given.has 'i' || given.has 'y'
  pure {
    matching := fun line => any.any fun regex => (regex.find? fold none line).isSome
    parts := fun line =>
      match any with
      | some regex => allMatches regex fold (line.length + 1) none line
      | none => [] }

/-- The lines that are printed of one file, with their numbers. -/
def foundLines (given : Given) (searcher : Searcher) (text : Text) : List (Nat × Text) :=
  let all := (bareLines text).zipIdx.map fun (line, i) => (i + 1, line)
  let found := all.filter fun (_, line) => searcher.matching line != given.has 'v'
  match (given.value? 'm').bind Arithmetic.decimal? with
  | some most => found.take most.toNat
  | none => found

def printFound (given : Given) (searcher : Searcher) (named : Bool) (path : Text)
    (found : List (Nat × Text)) : Run Unit := do
  let name := if path = ['-'] then "(standard input)".toList else path
  let front := if named then name ++ [':'] else []
  if given.has 'q' then pure ()
  else if given.has 'l' then
    if !found.isEmpty then printLines [name]
  else if given.has 'L' then
    if found.isEmpty then printLines [name]
  else if given.has 'c' then printLines [front ++ Text.ofNat found.length]
  else
    found.forM fun (number, line) => do
      let start := front ++ (if given.has 'n' then Text.ofNat number ++ [':'] else [])
      if given.has 'o' then printLines ((searcher.parts line).map (start ++ ·))
      else printLines [start ++ line]

/-- The files below a path, or the path itself. -/
def filesAt (tree : FileTree) (path : Text) : List Text :=
  match tree.node? ⟨path⟩ with
  | some (.directory entries) =>
    (Node.directory entries).files.map fun location =>
      ((Path.mk path).join location.path).spelling
  | _ => [path]

def misuseSearch (message : Option String) : Run Unit := do
  match message with
  | some text => complain text
  | none => pure ()
  print 2 ("Usage: grep [OPTION]... PATTERNS [FILE]...\n" ++
    "Try 'grep --help' for more information.\n").toList
  setStatus 2

def search (given : Given) (patterns paths : List Text) : Run Unit := do
  match searcher given (patterns.flatMap (Text.splitOn '\n')) with
  | .error message =>
    complain message
    setStatus 2
  | .ok searcher =>
    let tree := (← get).tree
    let deep := given.has 'r' || given.has 'R'
    let files := if deep then
      (if paths.isEmpty then [['.']] else paths).flatMap (filesAt tree) else paths
    let named := (1 < files.length || deep || given.has 'H') && !given.has 'h'
    let results ← (if files.isEmpty then [['-']] else files).mapM fun path => do
      match ← readInput path with
      | .ok text =>
        let found := foundLines given searcher text
        printFound given searcher named path found
        pure (some !found.isEmpty)
      | .error message =>
        if !given.has 's' then complain (String.ofList path ++ ": " ++ message)
        pure none
    let any := results.contains (some true)
    setStatus (if results.contains none && !(any && given.has 'q') then 2
      else if any then 0 else 1)

def grep (arguments : List Text) : Run Unit :=
  let allowed : Allowed :=
    ⟨"abcEe:FGhHiIlLm:noPqrRsvwxyz",
      [("quiet", 'q'), ("silent", 'q'), ("count", 'c'), ("ignore-case", 'i'), ("invert-match", 'v'),
        ("extended-regexp", 'E'), ("fixed-strings", 'F'), ("line-number", 'n'), ("regexp", 'e'),
        ("files-with-matches", 'l'), ("only-matching", 'o'), ("no-messages", 's'),
        ("recursive", 'r'), ("word-regexp", 'w'), ("line-regexp", 'x'), ("max-count", 'm')]⟩
  match readArguments allowed (totalSize arguments + arguments.length + 1) arguments with
  | .error message => misuseSearch (some message)
  | .ok given =>
    let patterns := (given.options.filter fun entry => entry.1 == 'e').map Prod.snd
    match patterns, given.operands with
    | [], [] => misuseSearch none
    | [], pattern :: paths => search given [pattern] paths
    | _, paths => search given patterns paths

/-! ## Files by their names -/

/-- A test of a file that is looked for. -/
inductive FileTest where
  | named (pattern : Pattern)
  | underPath (pattern : Pattern)
  | ofType (letter : Char)
  | empty
  | not (test : FileTest)

def FileTest.holds (path : Text) (node : Node) : FileTest → Bool
  | .named pattern => pattern.accepts (nameOf path [])
  | .underPath pattern => pattern.accepts path
  | .ofType letter =>
    match node with
    | .file _ _ => letter == 'f'
    | .directory _ => letter == 'd'
    | .link _ => letter == 'l'
  | .empty =>
    match node with
    | .directory entries => entries.isEmpty
    | .file content executable => (bytesOf (.file content executable)).isEmpty
    | .link _ => false
  | .not test => !test.holds path node

/-- What is looked for. -/
structure Wanted where
  least : Nat
  greatest : Option Nat
  tests : List FileTest
  deletes : Bool
  /-- What is wrong with the arguments. -/
  fault : Option String

/-- A pattern that a text is, all of it unquoted. -/
def barePattern (text : Text) : Pattern := patternOf (text.map fun c => ⟨c, false⟩)

def Wanted.ofArguments : List Text → Wanted
  | [] => ⟨0, none, [], false, none⟩
  | ['!'] :: rest =>
    let more := Wanted.ofArguments rest
    match more.tests with
    | test :: others => { more with tests := .not test :: others }
    | [] => more
  | name :: rest =>
    let number := fun value : Text => ((Arithmetic.decimal? value).getD 0).toNat
    match String.ofList name, rest with
    | "-print", others | "-a", others => Wanted.ofArguments others
    | "-delete", others => { Wanted.ofArguments others with deletes := true }
    | "-empty", others =>
      let more := Wanted.ofArguments others
      { more with tests := .empty :: more.tests }
    | "-name", value :: others =>
      let more := Wanted.ofArguments others
      { more with tests := .named (barePattern value) :: more.tests }
    | "-path", value :: others =>
      let more := Wanted.ofArguments others
      { more with tests := .underPath (barePattern value) :: more.tests }
    | "-type", value :: others =>
      let more := Wanted.ofArguments others
      { more with tests := .ofType (value.headD 'f') :: more.tests }
    | "-mindepth", value :: others => { Wanted.ofArguments others with least := number value }
    | "-maxdepth", value :: others =>
      { Wanted.ofArguments others with greatest := some (number value) }
    | other, others =>
      { Wanted.ofArguments others with fault := some ("unknown predicate \x60" ++ other ++ "'") }

mutual

/-- The paths at and below a node, each with its depth and its node. -/
def below (path : Text) (depth : Nat) : Node → List (Text × Nat × Node)
  | .directory entries =>
    (path, depth, .directory entries) :: belowAll (path ++ ['/']) (depth + 1) entries
  | node => [(path, depth, node)]

/-- The same for each entry of a directory. -/
def belowAll (front : Text) (depth : Nat) : List (Text × Node) → List (Text × Nat × Node)
  | [] => []
  | (name, node) :: rest => below (front ++ name) depth node ++ belowAll front depth rest

end

def find (arguments : List Text) : Run Unit := do
  let isOperand := fun argument : Text => argument.head? != some '-' && argument != ['!']
  let given := arguments.takeWhile isOperand
  let wanted := Wanted.ofArguments (arguments.drop given.length)
  match wanted.fault with
  | some message => complain message
  | none =>
    (if given.isEmpty then [['.']] else given).forM fun start => do
      match FileTree.arrive ((← get).tree.entryOf ⟨start⟩) with
      | .error fault => complain (inMarks start ++ ": " ++ fault.phrase)
      | .ok (_, node) =>
        let found := (below start 0 node).filter fun (path, depth, child) =>
          wanted.least ≤ depth && wanted.greatest.all (fun most => depth ≤ most) &&
            wanted.tests.all (FileTest.holds path child)
        if wanted.deletes then
          found.reverse.forM fun (path, _, _) => change (FileTree.remove ⟨path⟩) fun _ => pure ()
        else printLines (found.map Prod.fst)

/-! ## Calculating -/

/-- Why an expression has no value. -/
abbrev Calculation := Except String

def integerOf (text : Text) : Calculation Int :=
  match Arithmetic.decimal? text with
  | some value => .ok value
  | none => .error "non-integer argument"

def isVoid (text : Text) : Bool := text.isEmpty || Arithmetic.decimal? text = some 0

/-- What matches of a text from its start: its first group, or how much it is. -/
def matchStart (text pattern : Text) : Calculation Text := do
  let regex ← Regex.ofText false pattern
  let hasGroup := Text.containsPart ['\\', '('] pattern
  match (Regex.sequence .lineStart regex).find? false none text with
  | some found =>
    if hasGroup then pure (((found.groups.find? fun group => group.1 == 1).map Prod.snd).getD [])
    else pure (Text.ofNat found.matched.length)
  | none => pure (if hasGroup then [] else ['0'])

def combine (operator : String) (left right : Text) : Calculation Text := do
  let compare (byNumber : Int → Int → Bool) (byText : Text → Text → Bool) : Text :=
    let holds := match Arithmetic.decimal? left, Arithmetic.decimal? right with
      | some a, some b => byNumber a b
      | _, _ => byText left right
    if holds then ['1'] else ['0']
  let calculate (apply : Int → Int → Int) : Calculation Text := do
    pure (Arithmetic.render (apply (← integerOf left) (← integerOf right)))
  match operator with
  | "|" => pure (if isVoid left then (if isVoid right then ['0'] else right) else left)
  | "&" => pure (if isVoid left || isVoid right then ['0'] else left)
  | "=" | "==" => pure (compare (· == ·) (· == ·))
  | "!=" => pure (compare (· != ·) (· != ·))
  | "<" => pure (compare (fun a b => decide (a < b)) Text.before)
  | ">" => pure (compare (fun a b => decide (a > b)) fun a b => Text.before b a)
  | "<=" => pure (compare (fun a b => decide (a ≤ b)) fun a b => !Text.before b a)
  | ">=" => pure (compare (fun a b => decide (a ≥ b)) fun a b => !Text.before a b)
  | "+" => calculate (· + ·)
  | "-" => calculate (· - ·)
  | "*" => calculate (· * ·)
  | "/" | "%" =>
    if (← integerOf right) = 0 then
      let _ ← integerOf left
      throw "division by zero"
    calculate (if operator = "/" then Int.tdiv else Int.tmod)
  | _ => matchStart left right

/-- The operators, those that bind least first. -/
def operatorLevels : List (List String) :=
  [["|"], ["&"], ["=", "==", "!=", "<", ">", "<=", ">="], ["+", "-"], ["*", "/", "%"], [":"]]

mutual

/-- A value of operators from some level on, and the arguments behind it. -/
def calculateLevel : Nat → List (List String) → List Text → Calculation (Text × List Text)
  | 0, _, _ => .error "syntax error"
  | fuel + 1, [], arguments => calculateOne fuel arguments
  | fuel + 1, level :: levels, arguments => do
    let (first, rest) ← calculateLevel fuel levels arguments
    calculateRest fuel level levels first rest

/-- What operators of one level make of a value and those behind it. -/
def calculateRest : Nat → List String → List (List String) → Text → List Text →
    Calculation (Text × List Text)
  | 0, _, _, _, _ => .error "syntax error"
  | fuel + 1, level, levels, left, arguments =>
    match arguments with
    | operator :: rest =>
      if level.contains (String.ofList operator) then do
        if rest.isEmpty then
          throw ("syntax error: missing argument after '" ++ String.ofList operator ++ "'")
        let (right, others) ← calculateLevel fuel levels rest
        calculateRest fuel level levels (← combine (String.ofList operator) left right) others
      else .ok (left, arguments)
    | [] => .ok (left, [])

def calculateOne : Nat → List Text → Calculation (Text × List Text)
  | 0, _ => .error "syntax error"
  | fuel + 1, arguments =>
    match arguments with
    | [] => .error "syntax error"
    | ['('] :: rest => do
      match ← calculateLevel fuel operatorLevels rest with
      | (value, [')'] :: others) => pure (value, others)
      | _ => throw "syntax error: expecting ')'"
    | first :: rest =>
      match String.ofList first, rest with
      | "length", text :: others => .ok (Text.ofNat (Octet.bytesOf text).length, others)
      | "substr", text :: start :: size :: others =>
        let place := ((Arithmetic.decimal? start).getD 0).toNat
        let count := ((Arithmetic.decimal? size).getD 0).toNat
        .ok (if place = 0 then [] else (text.drop (place - 1)).take count, others)
      | "match", text :: pattern :: others => do pure (← matchStart text pattern, others)
      | _, _ => .ok (first, rest)

end

def expr (arguments : List Text) : Run Unit := do
  let given := if arguments.head? = some ['-', '-'] then arguments.drop 1 else arguments
  let fuel := 16 * given.length + 32
  if given.isEmpty then misuse 2 "missing operand"
  else
    match calculateLevel fuel operatorLevels given with
    | .ok (value, []) =>
      printLines [value]
      setStatus (if isVoid value then 1 else 0)
    | .ok (_, extra :: _) =>
      complain ("syntax error: unexpected argument " ++ inMarks extra)
      setStatus 2
    | .error message =>
      complain message
      setStatus 2

end Relink.Script.Program
