import Relink.Script.Program.File

/-!
# Filters

Programs that read texts and print what they make of them: whole, in part, in another order, or
counted.
-/

set_option autoImplicit false

namespace Relink.Script.Program

/-! ## Input -/

/-- The contents of a file, or its input where a dash is given. -/
def readInput (path : Text) : Run (Except String Text) := do
  let shell ← get
  if path = ['-'] then
    if shell.readsDirectory 0 then pure (.error SystemFault.isDirectory.phrase)
    else
      let chars := shell.readable 0
      set (shell.consume 0 chars.length)
      pure (.ok chars)
  else
    match shell.tree.resolve ⟨path⟩ with
    | .ok (_, .directory _) => pure (.error SystemFault.isDirectory.phrase)
    | .ok (_, node) => pure (.ok (Octet.textOf (bytesOf node)))
    | .error fault =>
      if path = "/dev/null".toList then pure (.ok []) else pure (.error fault.phrase)

/-- The contents of each of some files, or the input where none is given. About those that cannot be
read there is a complaint; `front` is what it begins with. -/
def readEach (front : String) (paths : List Text) : Run (List (Text × Text)) := do
  let found ← (if paths.isEmpty then [['-']] else paths).mapM fun path => do
    match ← readInput path with
    | .ok chars => pure (some (path, chars))
    | .error message =>
      complain (front ++ String.ofList path ++ ": " ++ message)
      pure none
  pure (found.filterMap id)

def readAll (front : String) (paths : List Text) : Run Text := do
  pure ((← readEach front paths).flatMap Prod.snd)

/-- The lines of a text, each with the line feed that ends it. -/
def lines (text : Text) : List Text :=
  let parts := Text.splitOn '\n' text
  let ended := parts.dropLast.map fun line => line ++ ['\n']
  match parts.getLast? with
  | some last => if last.isEmpty then ended else ended ++ [last]
  | none => ended

/-- The lines of a text without what ends them. -/
def bareLines (text : Text) : List Text :=
  let parts := Text.splitOn '\n' text
  if parts.getLast? = some [] then parts.dropLast else parts

def printLines (texts : List Text) : Run Unit :=
  print 1 (texts.flatMap fun line => line ++ ['\n'])

/-! ## Whole texts -/

def numbered (width number : Nat) : Text :=
  let digits := Text.ofNat number
  List.replicate (width - digits.length) ' ' ++ digits

/-- Lines with their numbers, from a number on. Without `all` empty lines have none. -/
def numberLines (all : Bool) : Nat → List Text → Text
  | _, [] => []
  | number, line :: rest =>
    if all || line ≠ ['\n'] then
      numbered 6 number ++ '\t' :: line ++ numberLines all (number + 1) rest
    else line ++ numberLines all number rest

def cat (arguments : List Text) : Run Unit :=
  withOptions 1 "AbeEnstTuv" [("number", 'n'), ("number-nonblank", 'b')] arguments fun given => do
    if given.has 'n' || given.has 'b' then
      print 1 (numberLines (!given.has 'b') 1 (lines (← readAll "" given.operands)))
    else
      (if given.operands.isEmpty then [['-']] else given.operands).forM fun path => do
        match ← readInput path with
        | .ok chars => print 1 chars
        | .error message => complain (String.ofList path ++ ": " ++ message)

def tee (arguments : List Text) : Run Unit :=
  withOptions 1 "aip" [("append", 'a')] arguments fun given => do
    match ← readInput ['-'] with
    | .error _ => pure ()
    | .ok chars =>
      given.operands.forM fun path => do
        let tree := (← get).tree
        let old := if given.has 'a' then ((tree.node? ⟨path⟩).map bytesOf).getD [] else []
        let content := Content.ofBytes (old ++ Octet.bytesOf chars)
        changeAtOnce (FileTree.writeFile ⟨path⟩ content none) fun fault =>
          complain (String.ofList path ++ ": " ++ fault.phrase)
      print 1 chars

/-! ## Parts of texts -/

def withCount (arguments : List Text) : List Text :=
  match arguments with
  | ('-' :: d :: digits) :: rest =>
    if (d :: digits).all Char.isDigit then ['-', 'n'] :: (d :: digits) :: rest else arguments
  | _ => arguments

/-- A text under its name, where several are printed. -/
def titled (isFirst : Bool) (path text : Text) : Text :=
  let name := if path = ['-'] then "standard input".toList else path
  (if isFirst then [] else ['\n']) ++ "==> ".toList ++ name ++ " <==\n".toList ++ text

/-- Prints a part of each of some files. -/
def printParts (given : Given) (part : Text → Text) : Run Unit := do
  let front := fun path : Text => "cannot open " ++ inMarks path ++ " for reading: "
  let paths := if given.operands.isEmpty then [['-']] else given.operands
  paths.zipIdx.forM fun (path, place) => do
    match ← readInput path with
    | .ok chars =>
      print 1 (if 1 < paths.length && !given.has 'q' then titled (place = 0) path (part chars)
        else part chars)
    | .error message =>
      if message = SystemFault.isDirectory.phrase then
        complain ("error reading " ++ inMarks path ++ ": " ++ message)
      else complain (front path ++ message)

/-- The bytes at the front of a text, all but the last ones if the number is negative. -/
def firstBytes (number : Text) (text : Text) : Text :=
  let bytes := Octet.bytesOf text
  let count := (Arithmetic.decimal? number).getD 10
  let kept := if count < 0 || number.head? = some '-' then bytes.length - count.natAbs
    else count.natAbs
  Octet.textOf (bytes.take kept)

/-- The lines at the front of a text, all but the last ones if the number is negative. -/
def firstLines (number : Text) (text : Text) : Text :=
  let all := lines text
  let count := (Arithmetic.decimal? number).getD 10
  let kept := if number.head? = some '-' then all.length - count.natAbs else count.natAbs
  (all.take kept).flatten

def head (arguments : List Text) : Run Unit :=
  withOptions 1 "c:n:qvz" [("lines", 'n'), ("bytes", 'c'), ("quiet", 'q')] (withCount arguments)
    fun given =>
      match given.value? 'c' with
      | some number => printParts given (firstBytes number)
      | none => printParts given (firstLines ((given.value? 'n').getD "10".toList))

/-- What is left of a list where its end is asked for, or where it is to start at an element. -/
def lastOf {α : Type} (number : Text) (all : List α) : List α :=
  let count := ((Arithmetic.decimal? number).getD 10).natAbs
  if number.head? = some '+' then all.drop (count - 1) else all.drop (all.length - count)

def tail (arguments : List Text) : Run Unit :=
  withOptions 1 "c:fFn:qsv" [("lines", 'n'), ("bytes", 'c'), ("quiet", 'q')] (withCount arguments)
    fun given =>
      match given.value? 'c' with
      | some number =>
        printParts given fun text => Octet.textOf (lastOf number (Octet.bytesOf text))
      | none =>
        printParts given fun text =>
          (lastOf ((given.value? 'n').getD "10".toList) (lines text)).flatten

def ranges (text : Text) : List (Nat × Option Nat) :=
  (Text.splitOn ',' text).map fun part =>
    let first := part.takeWhile Char.isDigit
    let number := fun digits : Text => (String.ofList digits).toNat?
    match part.drop first.length with
    | '-' :: last => ((number first).getD 1, number last)
    | _ => ((number first).getD 1, number first)

def elementsAt {α : Type} (places : List (Nat × Option Nat)) (all : List α) : List α :=
  (all.zipIdx.filter fun (_, i) =>
    places.any fun (first, last) => first ≤ i + 1 && last.all fun n => i + 1 ≤ n).map Prod.fst

def cut (arguments : List Text) : Run Unit :=
  withOptions 1 "b:c:d:f:sn"
      [("delimiter", 'd'), ("fields", 'f'), ("characters", 'c'), ("only-delimited", 's')] arguments
    fun given => do
      let separator := (((given.value? 'd').bind List.head?).getD '\t')
      match given.value? 'f', (given.value? 'c').or (given.value? 'b') with
      | some places, none =>
        let all := bareLines (← readAll "" given.operands)
        let shown := if given.has 's' then all.filter (·.contains separator) else all
        printLines (shown.map fun line =>
          if line.contains separator then
            Text.joinWith [separator] (elementsAt (ranges places) (Text.splitOn separator line))
          else line)
      | none, some places =>
        let all := bareLines (← readAll "" given.operands)
        printLines (all.map fun line =>
          Octet.textOf (elementsAt (ranges places) (Octet.bytesOf line)))
      | some _, some _ => misuse 1 "only one type of list may be specified"
      | none, none => misuse 1 "you must specify a list of bytes, characters, or fields"

/-! ## Counting and ordering -/

def wordsOf (text : Text) : List Text :=
  (Text.splitOn ' ' (text.map fun c => if Arithmetic.isSpace c then ' ' else c)).filter (· != [])

def countsOf (given : Given) (text : Text) : List Nat :=
  let all := !given.has 'l' && !given.has 'w' && !given.has 'c' && !given.has 'm'
  (if all || given.has 'l' then [text.count '\n'] else []) ++
    (if all || given.has 'w' then [(wordsOf text).length] else []) ++
    (if given.has 'm' then [text.length] else []) ++
    (if all || given.has 'c' then [(Octet.bytesOf text).length] else [])

def wc (arguments : List Text) : Run Unit :=
  withOptions 1 "clLmw" [("lines", 'l'), ("words", 'w'), ("bytes", 'c'), ("chars", 'm')] arguments
    fun given => do
      let texts ← readEach "" given.operands
      let rows := texts.map fun (path, text) => (path, countsOf given text)
      let total := (List.range 4).filterMap fun i =>
        if rows.any fun row => i < row.2.length then
          some (rows.foldl (fun sum row => sum + (row.2[i]?).getD 0) 0)
        else none
      let bytes := texts.foldl (fun sum entry => sum + (Octet.bytesOf entry.2).length) 0
      let usual := if given.operands.isEmpty || given.operands.contains ['-'] then 7
        else (Text.ofNat bytes).length
      let width := if total.length ≤ 1 && given.operands.length ≤ 1 then 1 else usual
      let shown (counts : List Nat) (name : Text) : Text :=
        Text.joinWith [' '] (counts.map (numbered width) ++ (if name.isEmpty then [] else [name]))
      printLines (rows.map fun (path, counts) =>
        shown counts (if given.operands.isEmpty then [] else path))
      if 1 < given.operands.length then printLines [shown total "total".toList]

def leadingNumber (line : Text) : Int :=
  let bare := line.dropWhile fun c => c == ' ' || c == '\t'
  let digits := (if bare.head? = some '-' then bare.drop 1 else bare).takeWhile Char.isDigit
  let value : Int := (String.ofList digits).toNat?.getD 0
  if bare.head? = some '-' then -value else value

def sort (arguments : List Text) : Run Unit :=
  withOptions 2 "bcCdfgik:mMno:rRsS:t:T:uVz"
      [("numeric-sort", 'n'), ("reverse", 'r'), ("unique", 'u'), ("output", 'o')] arguments
    fun given => do
      let all := bareLines (← readAll "cannot read: " given.operands)
      let isBefore (a b : Text) : Bool :=
        if given.has 'n' && leadingNumber a ≠ leadingNumber b then
          leadingNumber a < leadingNumber b
        else Text.before a b
      let inOrder := all.mergeSort fun a b =>
        if given.has 'r' then !isBefore a b else !isBefore b a
      let shown := if given.has 'u' then inOrder.eraseDups else inOrder
      match given.value? 'o' with
      | some path =>
        let content := Content.ofBytes (Octet.bytesOf (shown.flatMap fun line => line ++ ['\n']))
        changeAtOnce (FileTree.writeFile ⟨path⟩ content none) fun fault =>
          misuse 2 ("open failed: " ++ String.ofList path ++ ": " ++ fault.phrase)
      | none => printLines shown

/-- Runs of equal lines, with their lengths. -/
def runsOf : List Text → List (Text × Nat)
  | [] => []
  | line :: rest =>
    match runsOf rest with
    | (other, count) :: others =>
      if other = line then (line, count + 1) :: others else (line, 1) :: (other, count) :: others
    | [] => [(line, 1)]

/-- Prints lines, those that follow one another only once. -/
def uniq (arguments : List Text) : Run Unit :=
  withOptions 1 "cdDf:is:uw:z" [("count", 'c'), ("repeated", 'd'), ("unique", 'u')] arguments
    fun given => do
      let runs := runsOf (bareLines (← readAll "" (given.operands.take 1)))
      let shown := runs.filter fun (_, count) =>
        (!given.has 'd' || 1 < count) && (!given.has 'u' || count = 1)
      printLines (shown.map fun (line, count) =>
        if given.has 'c' then numbered 7 count ++ ' ' :: line else line)

def tac (arguments : List Text) : Run Unit :=
  withOptions 1 "bs:r" [] arguments fun given => do
    print 1 ((lines (← readAll "" given.operands)).reverse.flatten)

def rev (arguments : List Text) : Run Unit := do
  printLines ((bareLines (← readAll "" arguments)).map List.reverse)

def printRange (first step last : Int) : Run Unit :=
  let count := if step = 0 then 0 else ((last - first).fdiv step + 1).toNat
  printLines ((List.range count).map fun n => Arithmetic.render (first + step * Int.ofNat n))

def seq (arguments : List Text) : Run Unit :=
  let numbers := arguments.map fun argument => (Arithmetic.decimal? argument).getD 0
  match numbers with
  | [] => misuse 1 "missing operand"
  | [last] => printRange 1 1 last
  | [first, last] => printRange first 1 last
  | first :: step :: last :: _ => printRange first step last

/-! ## Characters -/

def asciiChars : Text := (List.range 128).map Char.ofNat

/-- The characters of a set, with its ranges and classes written out. -/
def charSet : Nat → Text → Text
  | 0, _ => []
  | _, [] => []
  | fuel + 1, '\\' :: rest =>
    let found := Format.escape rest
    found.1 :: charSet fuel found.2
  | fuel + 1, '[' :: ':' :: rest =>
    let name := rest.takeWhile Char.isAlpha
    asciiChars.filter (inClass (String.ofList name)) ++ charSet fuel (rest.drop (name.length + 2))
  | fuel + 1, a :: '-' :: b :: rest =>
    (List.range (b.toNat + 1 - a.toNat)).map (fun n => Char.ofNat (a.toNat + n)) ++
      charSet fuel rest
  | fuel + 1, c :: rest => c :: charSet fuel rest

/-- A text in which a character that follows itself is dropped if it is in a set. -/
def squeeze (set : Char → Bool) : Text → Text
  | a :: b :: rest =>
    if a = b && set a then squeeze set (b :: rest) else a :: squeeze set (b :: rest)
  | text => text

/-- Replaces, deletes or squeezes characters of the input. -/
def tr (arguments : List Text) : Run Unit :=
  withOptions 1 "cCdst" [("delete", 'd'), ("squeeze-repeats", 's'), ("complement", 'c')] arguments
    fun given => do
      let sets := given.operands.map fun set => charSet (set.length + 1) set
      let isIn (set : Text) (c : Char) : Bool :=
        set.contains c != (given.has 'c' || given.has 'C')
      match sets, ← readInput ['-'] with
      | [set], .ok chars =>
        if given.has 'd' then print 1 (chars.filter fun c => !isIn set c)
        else if given.has 's' then print 1 (squeeze (isIn set) chars)
        else
          misuse 1 ("missing operand after " ++ inMarks (given.operands.headD []) ++
            "\nTwo strings must be given when translating.")
      | old :: new :: _, .ok chars =>
        let replaced := chars.map fun c =>
          if given.has 'c' then (if old.contains c then c else new.getLastD c)
          else
            match old.findIdx? (· == c) with
            | some i => (new[i]?).getD (new.getLastD c)
            | none => c
        print 1 (if given.has 's' then squeeze new.contains replaced else replaced)
      | _, _ => misuse 1 "missing operand"

/-! ## Names -/

def dropSlashes (path : Text) : Text := (path.reverse.dropWhile (· == '/')).reverse

/-- The last name of a path, less an ending. -/
def nameOf (path ending : Text) : Text :=
  let bare := dropSlashes path
  let name := if bare.isEmpty && !path.isEmpty then ['/'] else
    (bare.reverse.takeWhile (· != '/')).reverse
  if ending != name then (Text.dropEnd? name ending).getD name else name

def basename (arguments : List Text) : Run Unit :=
  withOptions 1 "as:z" [("multiple", 'a'), ("suffix", 's')] arguments fun given =>
    match given.value? 's', given.operands with
    | _, [] => misuse 1 "missing operand"
    | some ending, paths => printLines (paths.map fun path => nameOf path ending)
    | none, [path] => printLines [nameOf path []]
    | none, path :: ending :: others =>
      if given.has 'a' then printLines (given.operands.map fun path => nameOf path [])
      else
        match others with
        | [] => printLines [nameOf path ending]
        | extra :: _ => misuse 1 ("extra operand " ++ inMarks extra)

def directoryOf (path : Text) : Text :=
  let bare := dropSlashes path
  let front := (bare.reverse.dropWhile (· != '/')).reverse
  if bare.isEmpty then (if path.isEmpty then ['.'] else ['/'])
  else if front.isEmpty then ['.']
  else if (dropSlashes front).isEmpty then ['/'] else dropSlashes front

def dirname (arguments : List Text) : Run Unit :=
  withOptions 1 "z" [] arguments fun given => do
    if given.operands.isEmpty then misuse 1 "missing operand"
    printLines (given.operands.map directoryOf)

end Relink.Script.Program
