import Relink.Script.Pattern

/-!
# Regular expressions

Basic and extended regular expressions: reading them, and finding the leftmost and longest match.
-/

set_option autoImplicit false

namespace Relink.Script

/-- A regular expression. -/
inductive Regex where
  | nothing
  | char (c : Char)
  | anyChar
  | oneOf (inverted : Bool) (tests : List CharTest)
  | lineStart
  | lineEnd
  /-- Where a word starts or ends; the flags say which of them is meant. -/
  | wordEdge (starts ends : Bool)
  | group (number : Nat) (inside : Regex)
  | reference (number : Nat)
  | sequence (first second : Regex)
  | either (first second : Regex)
  | repeated (least : Nat) (greatest : Option Nat) (inside : Regex)

namespace Regex

/-! ## Reading -/

/-- What is read of an expression, what is left, and how many groups there are so far. -/
structure Reading where
  regex : Regex
  rest : Text
  groups : Nat

def letterSet? : Char → Option Regex
  | 'w' => some (.oneOf false [.named "alnum".toList, .range '_' '_'])
  | 'W' => some (.oneOf true [.named "alnum".toList, .range '_' '_'])
  | 's' => some (.oneOf false [.named "space".toList])
  | 'S' => some (.oneOf true [.named "space".toList])
  | 'b' => some (.wordEdge true true)
  | '<' => some (.wordEdge true false)
  | '>' => some (.wordEdge false true)
  | 'n' => some (.char '\n')
  | 't' => some (.char '\t')
  | _ => none

/-- A set of characters, from after its first bracket. No character is protected in it. -/
def set? (text : Text) : Option (Regex × Text) :=
  let inverted := text.head? == some '^'
  let inside := if inverted then text.drop 1 else text
  let glyphs := inside.map fun c => (⟨c, c == '\\'⟩ : Glyph)
  (setTests (glyphs.length + 1) true glyphs).map fun found =>
    (.oneOf inverted found.1, Glyph.text found.2)

/-- Bounds of a repetition, from after the first brace through what closes it. -/
def bounds? (extended : Bool) (text : Text) : Option (Nat × Option Nat × Text) :=
  let number := fun digits : Text => (String.ofList digits).toNat?.getD 0
  let first := text.takeWhile Char.isDigit
  let close := if extended then ['\x7d'] else ['\\', '\x7d']
  match text.drop first.length with
  | ',' :: others =>
    let second := others.takeWhile Char.isDigit
    let rest := others.drop second.length
    if close.isPrefixOf rest then
      some (number first, if second.isEmpty then none else some (number second),
        rest.drop close.length)
    else none
  | rest =>
    if close.isPrefixOf rest && !first.isEmpty then
      some (number first, some (number first), rest.drop close.length)
    else none

/-- The repetition that stands at the front, if one does. -/
def repetition? (extended : Bool) (text : Text) : Option (Nat × Option Nat × Text) :=
  match extended, text with
  | _, '*' :: rest => some (0, none, rest)
  | true, '+' :: rest => some (1, none, rest)
  | true, '?' :: rest => some (0, some 1, rest)
  | true, '\x7b' :: rest => bounds? true rest
  | false, '\\' :: '+' :: rest => some (1, none, rest)
  | false, '\\' :: '?' :: rest => some (0, some 1, rest)
  | false, '\\' :: '\x7b' :: rest => bounds? false rest
  | _, _ => none

def withRepetitions (extended : Bool) : Nat → Reading → Reading
  | 0, reading => reading
  | fuel + 1, reading =>
    match repetition? extended reading.rest with
    | some (least, greatest, rest) =>
      withRepetitions extended fuel
        { reading with regex := .repeated least greatest reading.regex, rest := rest }
    | none => reading

/-- A mark of the grammar at the front, which stands alone in extended expressions and behind a
backslash in basic ones. -/
def afterMark? (extended : Bool) (mark : Char) (text : Text) : Option Text :=
  match extended, text with
  | true, c :: rest => if c = mark then some rest else none
  | false, '\\' :: c :: rest => if c = mark then some rest else none
  | _, _ => none

def endsBranch (extended : Bool) (text : Text) : Bool :=
  text.isEmpty || (afterMark? extended '|' text).isSome || (afterMark? extended ')' text).isSome

/-- What one piece of an expression is, at the start of a branch or not. -/
def piece (extended isFirst : Bool) (text : Text) : Except String (Regex × Text) :=
  match text with
  | [] => .ok (.nothing, [])
  | '.' :: rest => .ok (.anyChar, rest)
  | '[' :: rest =>
    match set? rest with
    | some found => .ok found
    | none => .error "Unmatched [, [^, [:, [., or [="
  | '^' :: rest => .ok (if extended || isFirst then .lineStart else .char '^', rest)
  | '$' :: rest =>
    .ok (if extended || endsBranch extended rest then .lineEnd else .char '$', rest)
  | '\\' :: c :: rest =>
    if c.isDigit && c ≠ '0' then .ok (.reference (c.toNat - '0'.toNat), rest)
    else .ok ((letterSet? c).getD (.char c), rest)
  | ['\\'] => .error "Trailing backslash"
  | c :: rest => .ok (.char c, rest)

mutual

/-- Branches of which any may match. `inGroup` says whether a group is to be closed behind them. -/
def branches (extended inGroup : Bool) (groups : Nat) : Nat → Text → Except String Reading
  | 0, text => .ok ⟨.nothing, text, groups⟩
  | fuel + 1, text => do
    let first ← pieces extended inGroup true groups fuel text
    match afterMark? extended '|' first.rest with
    | some rest =>
      let second ← branches extended inGroup first.groups fuel rest
      pure { second with regex := .either first.regex second.regex }
    | none => pure first

def pieces (extended inGroup isFirst : Bool) (groups : Nat) : Nat → Text → Except String Reading
  | 0, text => .ok ⟨.nothing, text, groups⟩
  | fuel + 1, text => do
    if text.isEmpty || (afterMark? extended '|' text).isSome then
      return ⟨.nothing, text, groups⟩
    if (afterMark? extended ')' text).isSome then
      if inGroup then return ⟨.nothing, text, groups⟩
      if !extended then throw "Unmatched ) or \\)"
    let one ←
      match afterMark? extended '(' text with
      | some inside => do
        let found ← branches extended true (groups + 1) fuel inside
        match afterMark? extended ')' found.rest with
        | some rest => pure { found with regex := .group (groups + 1) found.regex, rest := rest }
        | none => throw "Unmatched ( or \\("
      | none => do
        let isStar := isFirst && text.head? == some '*'
        let found ← if isStar then pure (.char '*', text.drop 1) else piece extended isFirst text
        pure ⟨found.1, found.2, groups⟩
    let whole := withRepetitions extended one.rest.length one
    let others ← pieces extended inGroup false whole.groups fuel whole.rest
    pure { others with regex := .sequence whole.regex others.regex }

end

def ofText (extended : Bool) (text : Text) : Except String Regex := do
  pure (← branches extended false 0 (2 * text.length + 2) text).regex

/-! ## Matching -/

/-- A place in a text, and what the groups matched on the way there. -/
structure Place where
  before : Option Char
  rest : Text
  groups : List (Nat × Text)

def inWord (c : Char) : Bool := c.isAlphanum || c == '_'

def Place.skip (place : Place) (count : Nat) : Place :=
  { place with
    before := ((place.rest.take count).getLast?).or place.before, rest := place.rest.drop count }

/-- Whether two characters are the same, perhaps but for their case. -/
def sameChar (fold : Bool) (a b : Char) : Bool := a == b || (fold && a.toLower == b.toLower)

/-- The places where a match may end that starts at a place, better ones first. Each step of the
matching needs fuel. -/
def ends (fold : Bool) : Nat → Regex → Place → List Place
  | 0, _, _ => []
  | fuel + 1, regex, place =>
    let oneChar (test : Char → Bool) : List Place :=
      match place.rest with
      | c :: _ => if test c then [place.skip 1] else []
      | [] => []
    match regex with
    | .nothing => [place]
    | .char c => oneChar (sameChar fold c)
    | .anyChar => oneChar fun _ => true
    | .oneOf inverted tests =>
      oneChar fun c =>
        let found := tests.any fun test =>
          test.holds c || (fold && (test.holds c.toLower || test.holds c.toUpper))
        found != inverted
    | .lineStart => if place.before.isNone then [place] else []
    | .lineEnd => if place.rest.isEmpty then [place] else []
    | .wordEdge starts ends =>
      let left := place.before.any inWord
      let right := place.rest.head?.any inWord
      if (starts && !left && right) || (ends && left && !right) then [place] else []
    | .group number inside =>
      (Regex.ends fold fuel inside place).map fun found =>
        let matched := place.rest.take (place.rest.length - found.rest.length)
        { found with groups := (number, matched) :: found.groups }
    | .reference number =>
      match place.groups.find? fun entry => entry.1 == number with
      | some (_, matched) =>
        if matched.isPrefixOf place.rest then [place.skip matched.length] else []
      | none => []
    | .sequence first second =>
      (Regex.ends fold fuel first place).flatMap (Regex.ends fold fuel second)
    | .either first second =>
      Regex.ends fold fuel first place ++ Regex.ends fold fuel second place
    | .repeated least greatest inside =>
      let more := if greatest = some 0 then [] else
        (Regex.ends fold fuel inside place).flatMap fun next =>
          if next.rest.length = place.rest.length && least = 0 then []
          else Regex.ends fold fuel (.repeated (least - 1) (greatest.map (· - 1)) inside) next
      more ++ (if least = 0 then [place] else [])

def nodes : Regex → Nat
  | .group _ inside => inside.nodes + 1
  | .sequence first second => first.nodes + second.nodes + 1
  | .either first second => first.nodes + second.nodes + 1
  | .repeated _ _ inside => inside.nodes + 1
  | _ => 1

/-- Of places the one that is furthest, the first of them if there are several. -/
def furthest : List Place → Option Place
  | [] => none
  | place :: rest =>
    match furthest rest with
    | some other => if other.rest.length < place.rest.length then some other else some place
    | none => some place

/-- A match: the text before it, what matched, what the groups matched, and the text behind it. -/
structure Found where
  front : Text
  matched : Text
  groups : List (Nat × Text)
  rest : Text

/-- The leftmost and longest match at a place or behind it, of which `front` has been passed over. -/
def findFrom (regex : Regex) (fold : Bool) (front : Text) : Nat → Place → Option Found
  | 0, _ => none
  | fuel + 1, place =>
    match furthest (regex.ends fold ((place.rest.length + 2) * (regex.nodes + 2)) place) with
    | some found =>
      some ⟨front, place.rest.take (place.rest.length - found.rest.length), found.groups,
        found.rest⟩
    | none =>
      match place.rest with
      | c :: _ => findFrom regex fold (front ++ [c]) fuel (place.skip 1)
      | [] => none

/-- The leftmost and longest match in a text, of which `before` stands in front. -/
def find? (regex : Regex) (fold : Bool) (before : Option Char) (text : Text) : Option Found :=
  findFrom regex fold [] (text.length + 1) ⟨before, text, []⟩

end Regex

end Relink.Script
