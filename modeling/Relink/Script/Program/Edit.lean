import Relink.Script.Program.Search

/-!
# Editing streams

Edit scripts: commands that are selected by line numbers or by what matches, and that replace,
delete or print the line at hand.
-/

set_option autoImplicit false

namespace Relink.Script.Program

/-! ## Edit scripts -/

/-- A line that an edit is selected by. -/
inductive EditAddress where
  | line (number : Nat)
  | last
  | matching (regex : Regex) (fold : Bool)

/-- A piece of what replaces a match. The group zero is the whole match. -/
inductive ReplacementPart where
  | chars (text : Text)
  | group (number : Nat)

/-- How a match is replaced. -/
structure Substitution where
  regex : Regex
  fold : Bool
  replacement : List ReplacementPart
  /-- The first match that is replaced, counted from one. -/
  first : Nat
  /-- Whether those behind it are replaced, too. -/
  all : Bool
  prints : Bool

/-- What an edit does. -/
inductive EditAction where
  | substitute (substitution : Substitution)
  | transliterate (before after : Text)
  | delete | deleteFirst | print | printFirst | number | next | appendNext
  | quit (prints : Bool) (status : Nat)
  | insert (text : Text)
  | append (text : Text)
  | change (text : Text)
  | hold | holdMore | fetch | fetchMore | exchange
  | openBlock | closeBlock
  | label (name : Text)
  | branch (ifSubstituted : Bool) (name : Text)

/-- An edit and the lines that it is for. -/
structure Edit where
  first : Option EditAddress
  second : Option EditAddress
  negated : Bool
  action : EditAction

/-! ## Reading edit scripts -/

/-- Reading, which may be refused: what is left of the script then, and why. -/
abbrev EditReading := Except (Text × String)

def refuse {α : Type} (rest : Text) (message : String) : EditReading α :=
  .error (rest, message)

/-- The characters up to a delimiter, and what follows it. A delimiter behind a backslash is none and
loses the backslash. -/
def untilDelimiter (delimiter : Char) : Text → Option (Text × Text)
  | [] => none
  | '\\' :: c :: rest =>
    (untilDelimiter delimiter rest).map fun more =>
      (if c = delimiter then c :: more.1 else '\\' :: c :: more.1, more.2)
  | c :: rest =>
    if c = delimiter then some ([], rest)
    else (untilDelimiter delimiter rest).map fun more => (c :: more.1, more.2)

def editRegex (extended : Bool) (text rest : Text) : EditReading Regex :=
  (Regex.ofText extended text).mapError fun message => (rest, message)

def editAddress? (extended : Bool) (text : Text) : EditReading (Option EditAddress × Text) :=
  let byPattern (delimiter : Char) (inside : Text) : EditReading (Option EditAddress × Text) :=
    match untilDelimiter delimiter inside with
    | none => refuse [] "unterminated address regex"
    | some (pattern, rest) => do
      let fold := rest.head? == some 'I'
      let regex ← editRegex extended pattern rest
      pure (some (.matching regex fold), if fold then rest.drop 1 else rest)
  match text with
  | '$' :: rest => .ok (some .last, rest)
  | '/' :: rest => byPattern '/' rest
  | '\\' :: delimiter :: rest => byPattern delimiter rest
  | c :: _ =>
    if c.isDigit then
      let digits := text.takeWhile Char.isDigit
      .ok (some (.line ((String.ofList digits).toNat?.getD 0)), text.drop digits.length)
    else .ok (none, text)
  | [] => .ok (none, [])

def replacementParts : Text → List ReplacementPart
  | [] => []
  | '&' :: rest => .group 0 :: replacementParts rest
  | '\\' :: c :: rest =>
    if c.isDigit then .group (c.toNat - '0'.toNat) :: replacementParts rest
    else .chars [if c = 'n' then '\n' else if c = 't' then '\t' else c] :: replacementParts rest
  | c :: rest => .chars [c] :: replacementParts rest

def greatestGroup (parts : List ReplacementPart) : Nat :=
  parts.foldl (fun most part =>
    match part with
    | .group number => max most number
    | .chars _ => most) 0

def groupCount : Regex → Nat
  | .group _ inside => groupCount inside + 1
  | .sequence first second => groupCount first + groupCount second
  | .either first second => groupCount first + groupCount second
  | .repeated _ _ inside => groupCount inside
  | _ => 0

def substitutionFlags (substitution : Substitution) : Nat → Text → EditReading (Substitution × Text)
  | 0, rest => .ok (substitution, rest)
  | _, [] => .ok (substitution, [])
  | fuel + 1, c :: rest =>
    if c = 'g' then substitutionFlags { substitution with all := true } fuel rest
    else if c = 'p' then substitutionFlags { substitution with prints := true } fuel rest
    else if c = 'i' || c = 'I' then
      substitutionFlags { substitution with fold := true } fuel rest
    else if c.isDigit then
      let digits := (c :: rest).takeWhile Char.isDigit
      let first := (String.ofList digits).toNat?.getD 1
      substitutionFlags { substitution with first := first } fuel
        ((c :: rest).drop digits.length)
    else if c = ' ' || c = '\n' || c = ';' || c = '\x7d' || c = '#' then
      .ok (substitution, c :: rest)
    else refuse rest "unknown option to \x60s'"

def substitution (extended : Bool) (text : Text) : EditReading (EditAction × Text) :=
  match text with
  | [] => refuse [] "unterminated \x60s' command"
  | delimiter :: inside =>
    match untilDelimiter delimiter inside with
    | none => refuse [] "unterminated \x60s' command"
    | some (pattern, behind) =>
      match untilDelimiter delimiter behind with
      | none => refuse [] "unterminated \x60s' command"
      | some (written, rest) => do
        let parts := replacementParts written
        let plain : Substitution := ⟨.nothing, false, parts, 1, false, false⟩
        let (flagged, others) ← substitutionFlags plain (rest.length + 1) rest
        let regex ← editRegex extended pattern others
        if groupCount regex < greatestGroup parts then
          refuse others ("invalid reference \\" ++ toString (greatestGroup parts) ++
            " on \x60s' command's RHS")
        pure (.substitute { flagged with regex := regex }, others)

/-- The line at the front and what follows it. A backslash protects the character behind it. -/
def protectedLine : Nat → Text → Text × Text
  | 0, rest => ([], rest)
  | _, [] => (['\n'], [])
  | _ + 1, '\n' :: rest => (['\n'], rest)
  | fuel + 1, '\\' :: c :: rest =>
    let more := protectedLine fuel rest
    (c :: more.1, more.2)
  | fuel + 1, c :: rest =>
    let more := protectedLine fuel rest
    (c :: more.1, more.2)

/-- The text of an edit, from after its letter: the rest of the line, and the lines that backslashes
join to it. -/
def editText (text : Text) : Text × Text :=
  let isSpace := fun c : Char => c == ' ' || c == '\t'
  let start := match text.dropWhile isSpace with
    | '\\' :: '\n' :: rest => rest
    | '\\' :: rest => rest.dropWhile isSpace
    | rest => rest
  protectedLine (start.length + 1) start

def labelName (text : Text) : Text × Text :=
  let bare := text.dropWhile (· == ' ')
  let name := bare.takeWhile fun c => c != '\n' && c != ';' && c != ' ' && c != '\x7d'
  (name, bare.drop name.length)

def editAction (extended : Bool) (text : Text) : EditReading (EditAction × Text) :=
  match text with
  | [] => refuse [] "missing command"
  | c :: rest =>
    match c with
    | 's' => substitution extended rest
    | 'y' =>
      match rest with
      | delimiter :: inside =>
        match (untilDelimiter delimiter inside).bind fun (before, others) =>
            (untilDelimiter delimiter others).map fun (after, behind) => (before, after, behind) with
        | some (before, after, behind) =>
          if before.length = after.length then .ok (.transliterate before after, behind)
          else refuse behind "strings for \x60y' command are different lengths"
        | none => refuse [] "unterminated \x60y' command"
      | [] => refuse [] "unterminated \x60y' command"
    | 'd' => .ok (.delete, rest)
    | 'D' => .ok (.deleteFirst, rest)
    | 'p' => .ok (.print, rest)
    | 'P' => .ok (.printFirst, rest)
    | '=' => .ok (.number, rest)
    | 'n' => .ok (.next, rest)
    | 'N' => .ok (.appendNext, rest)
    | 'h' => .ok (.hold, rest)
    | 'H' => .ok (.holdMore, rest)
    | 'g' => .ok (.fetch, rest)
    | 'G' => .ok (.fetchMore, rest)
    | 'x' => .ok (.exchange, rest)
    | 'q' | 'Q' =>
      let bare := rest.dropWhile (· == ' ')
      let digits := bare.takeWhile Char.isDigit
      .ok (.quit (c == 'q') ((String.ofList digits).toNat?.getD 0), bare.drop digits.length)
    | 'i' =>
      let found := editText rest
      .ok (.insert found.1, found.2)
    | 'a' =>
      let found := editText rest
      .ok (.append found.1, found.2)
    | 'c' =>
      let found := editText rest
      .ok (.change found.1, found.2)
    | '\x7b' => .ok (.openBlock, rest)
    | '\x7d' => .ok (.closeBlock, rest)
    | ':' =>
      let found := labelName rest
      .ok (.label found.1, found.2)
    | 'b' =>
      let found := labelName rest
      .ok (.branch false found.1, found.2)
    | 't' =>
      let found := labelName rest
      .ok (.branch true found.1, found.2)
    | _ => refuse rest ("unknown command: \x60" ++ String.ofList [c] ++ "'")

def isBetweenEdits (c : Char) : Bool := c == ' ' || c == '\t' || c == '\n' || c == ';'

def editAt (extended : Bool) (text : Text) : EditReading (Edit × Text) := do
  let isSpace := fun c : Char => c == ' ' || c == '\t'
  let (first, afterFirst) ← editAddress? extended text
  let bare := afterFirst.dropWhile isSpace
  let (second, afterSecond) ←
    match bare with
    | ',' :: rest => do
      match ← editAddress? extended (rest.dropWhile isSpace) with
      | (none, others) => refuse others "unexpected \x60,'"
      | found => pure found
    | _ => pure (none, bare)
  let plain := afterSecond.dropWhile isSpace
  let negated := plain.head? == some '!'
  let (action, rest) ←
    editAction extended (if negated then (plain.drop 1).dropWhile isSpace else plain)
  pure (⟨first, second, negated, action⟩, rest)

/-- The edits of a script, with the number of blocks that are open. -/
def editsOf (extended : Bool) : Nat → Nat → Text → EditReading (List Edit)
  | 0, _, _ => .ok []
  | fuel + 1, depth, text =>
    match text.dropWhile isBetweenEdits with
    | [] => if depth = 0 then .ok [] else refuse text "unmatched \x60\x7b'"
    | '#' :: rest => editsOf extended fuel depth (rest.dropWhile (· != '\n'))
    | found => do
      let (edit, rest) ← editAt extended found
      let inside ←
        match edit.action with
        | .openBlock => pure (depth + 1)
        | .closeBlock => if depth = 0 then refuse rest "unexpected \x60\x7d'" else pure (depth - 1)
        | _ => pure depth
      pure (edit :: (← editsOf extended fuel inside rest))

/-! ## Running edit scripts -/

/-- What is edited: the line at hand, without the line feed that may end it, and all else. -/
structure Editing where
  space : Text
  isEnded : Bool
  held : Text
  number : Nat
  rest : List Text
  /-- What is printed so far, and whether its last line lacks its end. -/
  printed : Text
  lacksEnd : Bool
  queue : Text
  substituted : Bool
  /-- The edits whose range of lines has begun. -/
  begun : List Nat

namespace Editing

def add (editing : Editing) (text : Text) : Editing :=
  let front := if editing.lacksEnd && !text.isEmpty then ['\n'] else []
  { editing with printed := editing.printed ++ front ++ text, lacksEnd := false }

/-- Printing a line, with its end if the line at hand has one. -/
def addLine (editing : Editing) (line : Text) : Editing :=
  if editing.isEnded then editing.add (line ++ ['\n'])
  else { editing.add line with lacksEnd := true }

def addQueue (editing : Editing) : Editing := { editing.add editing.queue with queue := [] }

def next? (editing : Editing) : Option Editing :=
  match editing.rest with
  | [] => none
  | line :: rest =>
    let isEnded := line.getLast? == some '\n'
    some { editing with
      space := if isEnded then line.dropLast else line, isEnded := isEnded
      number := editing.number + 1, rest := rest }

def isAt (editing : Editing) : EditAddress → Bool
  | .line number => editing.number == number
  | .last => editing.rest.isEmpty
  | .matching regex fold => (regex.find? fold none editing.space).isSome

/-- Whether an edit is for the line at hand, and the edits whose range goes on behind it. -/
def selects (editing : Editing) (place : Nat) (edit : Edit) : Bool × List Nat :=
  let others := editing.begun.filter (· != place)
  match edit.first, edit.second with
  | none, _ => (true, editing.begun)
  | some first, none => (editing.isAt first, editing.begun)
  | some first, some second =>
    if editing.begun.contains place then
      let isOver : Bool := match second with
        | .line number => decide (number ≤ editing.number)
        | other => editing.isAt other
      let isBehind : Bool := match second with
        | .line number => decide (number < editing.number)
        | _ => false
      (!isBehind || editing.isAt first, if isOver then others else editing.begun)
    else if editing.isAt first then
      let goesOn : Bool := match second with
        | .line number => decide (editing.number < number)
        | .last => !editing.rest.isEmpty
        | _ => true
      (true, if goesOn then place :: others else others)
    else (false, others)

end Editing

def replacementOf (found : Regex.Found) : List ReplacementPart → Text
  | [] => []
  | .chars text :: rest => text ++ replacementOf found rest
  | .group 0 :: rest => found.matched ++ replacementOf found rest
  | .group number :: rest =>
    ((found.groups.find? fun group => group.1 == number).map Prod.snd).getD [] ++
      replacementOf found rest

/-- A text with matches replaced, and whether there were any. `count` of them were passed. -/
def substituteIn (substitution : Substitution) :
    Nat → Nat → Option Char → Bool → Text → Text × Bool
  | 0, _, _, _, text => (text, false)
  | fuel + 1, count, before, afterMatch, text =>
    match substitution.regex.find? substitution.fold before text with
    | none => (text, false)
    | some found =>
      let isVoid := found.matched.isEmpty && found.front.isEmpty && afterMatch
      let counts := !isVoid
      let place := if counts then count + 1 else count
      let replaces := counts && (place = substitution.first ||
        (substitution.all && substitution.first ≤ place))
      let shown := if replaces then replacementOf found substitution.replacement
        else found.matched
      let passed := (found.front ++ found.matched).getLast?.or before
      if replaces && !substitution.all then (found.front ++ shown ++ found.rest, true)
      else if found.matched.isEmpty then
        match found.rest with
        | [] => (found.front ++ shown, replaces)
        | c :: rest =>
          let more := substituteIn substitution fuel place (some c) false rest
          (found.front ++ shown ++ c :: more.1, replaces || more.2)
      else
        let more := substituteIn substitution fuel place passed true found.rest
        (found.front ++ shown ++ more.1, replaces || more.2)

/-- The place behind the end of the block that opens at the front of edits. -/
def behindBlock : Nat → Nat → List Edit → Nat
  | place, _, [] => place
  | place, depth, edit :: rest =>
    match edit.action with
    | .openBlock => behindBlock (place + 1) (depth + 1) rest
    | .closeBlock => if depth = 0 then place + 1 else behindBlock (place + 1) (depth - 1) rest
    | _ => behindBlock (place + 1) depth rest

/-- The place of a label; the end of the script where there is no such label. -/
def placeOfLabel (edits : List Edit) (name : Text) : Nat :=
  edits.findIdx fun edit =>
    match edit.action with
    | .label other => other == name && !name.isEmpty
    | _ => false

/-- How the edits of a line end. -/
inductive CycleEnd where
  /-- The line is printed, unless that is turned off. -/
  | finished
  | deleted
  /-- What is left of the line is edited again. -/
  | restarted
  | quitted (prints : Bool) (status : Nat)
deriving DecidableEq, Repr

/-- Runs the edits from a place on, no more steps than so many. -/
def runEdits (quiet : Bool) (edits : List Edit) : Nat → Nat → Editing → CycleEnd × Editing
  | 0, _, editing => (.finished, editing)
  | fuel + 1, place, editing =>
    match edits[place]? with
    | none => (.finished, editing)
    | some edit =>
      let (isSelected, begun) := editing.selects place edit
      let here := { editing with begun := begun }
      let goOn := runEdits quiet edits fuel (place + 1)
      if isSelected = edit.negated then
        match edit.action with
        | .openBlock =>
          runEdits quiet edits fuel (behindBlock (place + 1) 0 (edits.drop (place + 1))) here
        | _ => goOn here
      else
        match edit.action with
        | .substitute substitution =>
          let (space, replaced) :=
            substituteIn substitution (here.space.length + 2) 0 none false here.space
          let changed := { here with
            space := space, substituted := here.substituted || replaced }
          goOn (if replaced && substitution.prints then changed.addLine space else changed)
        | .transliterate before after =>
          goOn { here with
            space := here.space.map fun c =>
              ((before.findIdx? (· == c)).bind fun i => after[i]?).getD c }
        | .delete => (.deleted, here)
        | .deleteFirst =>
          if here.space.contains '\n' then
            (.restarted, { here with space := (here.space.dropWhile (· != '\n')).drop 1 })
          else (.deleted, here)
        | .print => goOn (here.addLine here.space)
        | .printFirst => goOn (here.add (here.space.takeWhile (· != '\n') ++ ['\n']))
        | .number => goOn (here.add (Text.ofNat here.number ++ ['\n']))
        | .next =>
          let shown := if quiet then here else here.addLine here.space
          match shown.addQueue.next? with
          | some after => goOn after
          | none => (.quitted true 0, here)
        | .appendNext =>
          match here.addQueue.next? with
          | some after => goOn { after with space := here.space ++ '\n' :: after.space }
          | none => (.quitted true 0, here)
        | .quit prints status => (.quitted prints status, here)
        | .insert text => goOn (here.add text)
        | .append text => goOn { here with queue := here.queue ++ text }
        | .change text =>
          let isLast := edit.second.isNone || edit.negated || !begun.contains place
          (.deleted, if isLast then here.add text else here)
        | .hold => goOn { here with held := here.space }
        | .holdMore => goOn { here with held := here.held ++ '\n' :: here.space }
        | .fetch => goOn { here with space := here.held }
        | .fetchMore => goOn { here with space := here.space ++ '\n' :: here.held }
        | .exchange => goOn { here with space := here.held, held := here.space }
        | .openBlock | .closeBlock | .label _ => goOn here
        | .branch ifSubstituted name =>
          if ifSubstituted && !here.substituted then goOn here
          else
            runEdits quiet edits fuel (placeOfLabel edits name)
              { here with substituted := here.substituted && !ifSubstituted }

def maxEdits : Nat := 100000

/-- Edits line after line, and gives the status to end with. -/
def runCycles (quiet : Bool) (edits : List Edit) : Nat → Bool → Editing → Nat × Editing
  | 0, _, editing => (0, editing)
  | fuel + 1, keepsLine, editing =>
    match (if keepsLine then some editing else editing.next?) with
    | none => (0, editing)
    | some line =>
      let (ending, after) := runEdits quiet edits maxEdits 0 { line with substituted := false }
      let shown := if quiet then after else after.addLine after.space
      match ending with
      | .finished => runCycles quiet edits fuel false shown.addQueue
      | .deleted => runCycles quiet edits fuel false after.addQueue
      | .restarted => runCycles quiet edits fuel true after.addQueue
      | .quitted prints status => (status, (if prints then shown else after).addQueue)

/-- Edits a text, and gives the status to end with. -/
def editedText (quiet : Bool) (edits : List Edit) (text : Text) : Nat × Text :=
  let all := lines text
  let (status, after) := runCycles quiet edits (text.length + all.length + 2) false
    ⟨[], true, [], 0, all, [], false, [], false, []⟩
  (status, after.printed)

/-- Edits some files: all of them as one text, or each in its place. -/
def editFiles (given : Given) (edits : List Edit) (paths : List Text) : Run Unit := do
  let quiet := given.has 'n'
  let read (path : Text) : Run (Option Text) := do
    match ← readInput path with
    | .ok text => pure (some text)
    | .error message =>
      if message = SystemFault.isDirectory.phrase then
        complain ("couldn't edit " ++ String.ofList path ++ ": not a regular file")
        setStatus 4
      else
        complain ("can't read " ++ String.ofList path ++ ": " ++ message)
        setStatus 2
      pure none
  if given.has 'i' then
    paths.forM fun path => do
      match ← read path with
      | none => pure ()
      | some text =>
        let (status, edited) := editedText quiet edits text
        let suffix := (given.value? 'i').getD []
        if !suffix.isEmpty then
          changeAtOnce (FileTree.writeFile ⟨path ++ suffix⟩
            (.ofBytes (Octet.bytesOf text)) none) fun _ => pure ()
        changeAtOnce (FileTree.writeFile ⟨path⟩ (.ofBytes (Octet.bytesOf edited)) none) fun _ =>
          pure ()
        if status ≠ 0 then setStatus status
  else
    let texts ← (if paths.isEmpty then [['-']] else paths).mapM read
    let joined := (texts.filterMap id).foldl (fun all text =>
      let isOpen := !all.isEmpty && all.getLast? != some '\n' && !text.isEmpty
      all ++ (if isOpen then ['\n'] else []) ++ text) []
    let (status, edited) := editedText quiet edits joined
    print 1 edited
    if status ≠ 0 then setStatus status

def sed (arguments : List Text) : Run Unit :=
  withOptions 1 "bsne:f:i?l:Eruz"
      [("quiet", 'n'), ("silent", 'n'), ("expression", 'e'), ("in-place", 'i'),
        ("regexp-extended", 'E')] arguments
    fun given => do
      let scripts := (given.options.filter fun entry => entry.1 == 'e').map Prod.snd
      let script := if scripts.isEmpty then given.operands.headD []
        else Text.joinWith ['\n'] scripts
      let paths := if scripts.isEmpty then given.operands.drop 1 else given.operands
      match editsOf (given.has 'E' || given.has 'r') (script.length + 1) 0 script with
      | .ok edits => editFiles given edits paths
      | .error (rest, message) =>
        let isBlock := message = "unmatched \x60\x7b'"
        let place := if isBlock then 0 else script.length - rest.length
        complain ("-e expression #1, char " ++ toString place ++ ": " ++ message)
        setStatus 1

end Relink.Script.Program
