import Relink.Text

/-!
# Patterns

Shell patterns: any text, any character, sets of characters, and characters that stand for
themselves because they are quoted or because they mean nothing else.
-/

set_option autoImplicit false

namespace Relink.Script

/-- A test that a set of characters makes. -/
inductive CharTest where
  | range (first last : Char)
  | named (name : Text)
deriving DecidableEq, Repr

/-- A piece of a pattern. -/
inductive PatternPart where
  | char (c : Char)
  | anyChar
  | anyText
  | oneOf (inverted : Bool) (tests : List CharTest)
deriving DecidableEq, Repr

abbrev Pattern := List PatternPart

/-- A character of a word, and whether it is quoted. -/
structure Glyph where
  char : Char
  quoted : Bool
deriving DecidableEq, Repr

def Glyph.text (glyphs : List Glyph) : Text := glyphs.map Glyph.char

/-- Whether a glyph is a given character that is not quoted. -/
def Glyph.isBare (glyph : Glyph) (c : Char) : Bool := glyph.char == c && !glyph.quoted

/-! ## Sets -/

def inClass (name : String) (c : Char) : Bool :=
  match name with
  | "alpha" => c.isAlpha
  | "digit" => c.isDigit
  | "alnum" => c.isAlphanum
  | "upper" => c.isUpper
  | "lower" => c.isLower
  | "space" => c == ' ' || (9 ≤ c.toNat && c.toNat ≤ 13)
  | "blank" => c == ' ' || c == '\t'
  | "punct" => 33 ≤ c.toNat && c.toNat ≤ 126 && !c.isAlphanum
  | "print" => 32 ≤ c.toNat && c.toNat ≤ 126
  | "graph" => 33 ≤ c.toNat && c.toNat ≤ 126
  | "cntrl" => c.toNat < 32 || c.toNat == 127
  | "xdigit" => c.isDigit || ('a' ≤ c && c ≤ 'f') || ('A' ≤ c && c ≤ 'F')
  | _ => false

def CharTest.holds (test : CharTest) (c : Char) : Bool :=
  match test with
  | .range first last => first ≤ c && c ≤ last
  | .named name => inClass (String.ofList name) c

/-- A named class at the front of glyphs, from after its opening bracket. -/
def className? (glyphs : List Glyph) : Option (Text × List Glyph) :=
  match glyphs with
  | ⟨':', _⟩ :: rest =>
    let name := rest.takeWhile fun glyph => glyph.char.isAlpha
    match rest.drop name.length with
    | ⟨':', _⟩ :: ⟨']', _⟩ :: others => some (Glyph.text name, others)
    | _ => none
  | _ => none

/-- The tests of a set, from after its first bracket through its last. The first glyph does not end
the set. -/
def setTests : Nat → Bool → List Glyph → Option (List CharTest × List Glyph)
  | 0, _, _ => none
  | _, _, [] => none
  | fuel + 1, isFirst, glyph :: rest =>
    if glyph.isBare ']' && !isFirst then some ([], rest)
    else
      match (if glyph.isBare '[' then className? rest else none) with
      | some (name, others) =>
        (setTests fuel false others).map fun more => (.named name :: more.1, more.2)
      | none =>
        let start := if glyph.isBare '\\' then rest.head?.getD glyph else glyph
        let others := if glyph.isBare '\\' then rest.drop 1 else rest
        match others with
        | dash :: last :: after =>
          if dash.isBare '-' && !last.isBare ']' then
            (setTests fuel false after).map fun more =>
              (.range start.char last.char :: more.1, more.2)
          else
            (setTests fuel false others).map fun more =>
              (.range start.char start.char :: more.1, more.2)
        | _ =>
          (setTests fuel false others).map fun more =>
            (.range start.char start.char :: more.1, more.2)

/-- A set at the front of glyphs, from after its first bracket. -/
def set? (glyphs : List Glyph) : Option (PatternPart × List Glyph) :=
  let inverted := glyphs.head?.any fun glyph => glyph.isBare '!' || glyph.isBare '^'
  let inside := if inverted then glyphs.drop 1 else glyphs
  (setTests (inside.length + 1) true inside).map fun found => (.oneOf inverted found.1, found.2)

/-! ## Patterns of words -/

/-- The pattern that glyphs are; at most one part is made for each. -/
def patternWithin : Nat → List Glyph → Pattern
  | 0, _ => []
  | _, [] => []
  | fuel + 1, glyph :: rest =>
    if glyph.isBare '*' then .anyText :: patternWithin fuel rest
    else if glyph.isBare '?' then .anyChar :: patternWithin fuel rest
    else if glyph.isBare '[' then
      match set? rest with
      | some (part, others) => part :: patternWithin fuel others
      -- A bracket that no other one closes stands for itself.
      | none => .char '[' :: patternWithin fuel rest
    else
      match glyph.isBare '\\', rest with
      | true, next :: others => .char next.char :: patternWithin fuel others
      | _, _ => .char glyph.char :: patternWithin fuel rest

def patternOf (glyphs : List Glyph) : Pattern := patternWithin glyphs.length glyphs

/-- Whether glyphs are a pattern that more than one text may match. -/
def isWild (glyphs : List Glyph) : Bool :=
  (patternOf glyphs).any fun part =>
    match part with
    | .char _ => false
    | _ => true

def Pattern.accepts : Pattern → Text → Bool
  | [], [] => true
  | [], _ :: _ => false
  | .char _ :: _, [] => false
  | .char c :: pattern, d :: text => c == d && Pattern.accepts pattern text
  | .anyChar :: _, [] => false
  | .anyChar :: pattern, _ :: text => Pattern.accepts pattern text
  | .oneOf _ _ :: _, [] => false
  | .oneOf inverted tests :: pattern, d :: text =>
    (tests.any fun test => test.holds d) != inverted && Pattern.accepts pattern text
  | .anyText :: pattern, [] => Pattern.accepts pattern []
  | .anyText :: pattern, d :: text =>
    Pattern.accepts pattern (d :: text) || Pattern.accepts (.anyText :: pattern) text
termination_by pattern text => pattern.length + text.length

/-! ## Trimming -/

/-- Numbers up to a bound, in rising or falling order. -/
def lengths (falling : Bool) (bound : Nat) : List Nat :=
  if falling then (List.range (bound + 1)).reverse else List.range (bound + 1)

/-- The length of the longest or the shortest front that matches a pattern. -/
def Pattern.front? (pattern : Pattern) (longest : Bool) (value : Text) : Option Nat :=
  (lengths longest value.length).find? fun n => pattern.accepts (value.take n)

/-- The length of what stands before the longest or the shortest end that matches a pattern. -/
def Pattern.beforeBack? (pattern : Pattern) (longest : Bool) (value : Text) : Option Nat :=
  (lengths (!longest) value.length).find? fun n => pattern.accepts (value.drop n)

/-- A text less the longest or the shortest front that matches a pattern. -/
def Pattern.trimFront (pattern : Pattern) (longest : Bool) (value : Text) : Text :=
  value.drop ((pattern.front? longest value).getD 0)

/-- A text less the longest or the shortest end that matches a pattern. -/
def Pattern.trimBack (pattern : Pattern) (longest : Bool) (value : Text) : Text :=
  value.take ((pattern.beforeBack? longest value).getD value.length)

/-- Texts in a row less a front that matches a pattern. It is taken from the first one; the longest
front is everything, if all of the first one matches. -/
def Pattern.trimFirst (pattern : Pattern) (longest : Bool) : List Text → List Text
  | [] => []
  | first :: rest =>
    if longest && pattern.accepts first then [[]] else pattern.trimFront longest first :: rest

/-- Texts in a row less an end that matches a pattern, which starts in the last one where any does,
if there is one; all behind it is taken too. -/
def Pattern.trimLast? (pattern : Pattern) : List Text → Option (List Text)
  | [] => none
  | first :: rest =>
    match pattern.trimLast? rest with
    | some kept => some (first :: kept)
    | none => (pattern.beforeBack? false first).map fun n => [first.take n]

/-- Texts in a row less the longest or the shortest end that matches a pattern. The longest one starts
in the first text. -/
def Pattern.trimEnd (pattern : Pattern) (longest : Bool) (texts : List Text) : List Text :=
  if longest then
    match texts.head?.bind fun first => (pattern.beforeBack? true first).map first.take with
    | some kept => [kept]
    | none => texts
  else (pattern.trimLast? texts).getD texts

end Relink.Script
