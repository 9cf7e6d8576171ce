import Relink.FileTree.Listing
import Relink.Script.Pattern

/-!
# Fields

What a word expands to is split into fields at separators, and a field that is a pattern stands for
the paths that match it.
-/

set_option autoImplicit false

namespace Relink.Script

/-- A piece of what a word expands to. -/
inductive Piece where
  /-- A character. It may separate fields if it comes from an expansion that is not quoted. -/
  | glyph (glyph : Glyph) (splits : Bool)
  /-- Nothing, but quoted, so that there is a field. -/
  | present
  /-- The end of a field, as blanks make one. -/
  | cut
deriving DecidableEq, Repr

namespace Piece

def ofText (chars : Text) (quoted splits : Bool) : List Piece :=
  chars.map fun c => .glyph ⟨c, quoted⟩ splits

def glyphs (pieces : List Piece) : List Glyph :=
  pieces.filterMap fun piece =>
    match piece with
    | .glyph found _ => some found
    | _ => none

def text (pieces : List Piece) : Text := Glyph.text (glyphs pieces)

end Piece

/-! ## Splitting -/

/-- Fields that are made one after another. -/
structure Fields where
  finished : List (List Glyph)
  /-- The field that is still open, its glyphs in reverse. -/
  current : Option (List Glyph)
  /-- Whether the last field was closed by blanks, so that a separator behind them does not close
  another one. -/
  afterBlanks : Bool

namespace Fields

def close (fields : Fields) : Fields :=
  match fields.current with
  | some glyphs => ⟨fields.finished ++ [glyphs.reverse], none, false⟩
  | none => fields

def isSpace (c : Char) : Bool := c == ' ' || c == '\t' || c == '\n'

def add (separators : Text) (fields : Fields) : Piece → Fields
  | .present => { fields with current := some (fields.current.getD []), afterBlanks := false }
  | .cut => if fields.current.isSome then { fields.close with afterBlanks := true } else fields
  | .glyph found splits =>
    if splits && !found.quoted && separators.contains found.char then
      if isSpace found.char then
        if fields.current.isSome then { fields.close with afterBlanks := true } else fields
      else if fields.current.isSome then fields.close
      -- Blanks and the separator behind them close one field together.
      else if fields.afterBlanks then { fields with afterBlanks := false }
      else { fields with finished := fields.finished ++ [[]] }
    else
      { fields with current := some (found :: fields.current.getD []), afterBlanks := false }

end Fields

def splitFields (separators : Text) (pieces : List Piece) : List (List Glyph) :=
  (pieces.foldl (Fields.add separators) ⟨[], none, false⟩).close.finished

/-! ## Paths that match -/

def splitGlyphs : List Glyph → List (List Glyph)
  | [] => [[]]
  | glyph :: rest =>
    if glyph.char = '/' then [] :: splitGlyphs rest
    else
      match splitGlyphs rest with
      | [] => [[glyph]]
      | part :: parts => (glyph :: part) :: parts

/-- The names in a directory that match a pattern. -/
def matchingNames (tree : FileTree) (directory : Text) (glyphs : List Glyph) : List Text :=
  let names := (((tree.node? ⟨if directory.isEmpty then ['.'] else directory⟩).map
    Node.entries).getD []).map Prod.fst
  let all := if glyphs.head?.any (·.char == '.') then ['.'] :: ['.', '.'] :: names else names
  -- Hidden names have to be asked for by their dot.
  let found := all.filter fun name =>
    (patternOf glyphs).accepts name &&
      (name.head? != some '.' || glyphs.head?.any (·.char == '.'))
  (Listing.sortByName (found.map fun name => (name, ()))).map Prod.fst

/-- The paths that match parts of a pattern, from a path on. -/
def matchingPaths (tree : FileTree) (front : Text) : List (List Glyph) → List Text
  | [] => []
  | [last] =>
    if isWild last then (matchingNames tree front last).map (front ++ ·)
    else
      let path := front ++ Glyph.text last
      match tree.entryOf ⟨path⟩ with
      | .ok (.found _ _) => [path]
      | _ => []
  | part :: rest =>
    if isWild part then
      (matchingNames tree front part).flatMap fun name =>
        if tree.isDirectory ⟨front ++ name⟩ then
          matchingPaths tree (front ++ name ++ ['/']) rest
        else []
    else matchingPaths tree (front ++ Glyph.text part ++ ['/']) rest

def Field.paths (tree : FileTree) (plainNames : Bool) (field : List Glyph) : List Text :=
  if plainNames || !(splitGlyphs field).any isWild then [Glyph.text field]
  else
    match matchingPaths tree [] (splitGlyphs field) with
    | [] => [Glyph.text field]
    | found => found

end Relink.Script
