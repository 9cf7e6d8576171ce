import Relink.FileTree

/-!
# Walking along paths

Where a path leads: names are looked up one after another, `..` goes up, and links are followed.
Paths and names have a greatest length, and only so many links are followed on one walk.
-/

set_option autoImplicit false

namespace Relink

/-- Where a path leads. -/
inductive Place where
  /-- To something that is there. -/
  | found (location : Location) (node : Node)
  /-- To a directory without an entry of the path's last name. -/
  | absent (directory : Location) (name : Text)

/-- How a walk treats its last segment: whether a link there is followed, whether it is spelled as a
directory, and whether a file is to be made there if nothing is. -/
structure Footing where
  followLast : Bool
  needsDirectory : Bool
  makesFile : Bool
deriving DecidableEq, Repr

/-- How far one gets without following a link. -/
inductive Stride where
  | arrived (place : Place)
  /-- To a link in a directory, with segments left behind it. -/
  | detour (directory : Location) (target : Path) (rest : List Text)

/-! ## Limits -/

/-- Number of bytes that a name may have. -/
def maxNameSize : Nat := 255

/-- Number of bytes that a path may have. -/
def maxPathSize : Nat := 4095

/-- Number of links that may be followed on one walk. -/
def maxLinks : Nat := 40

/-- What is wrong with the spelling of a path, wherever it leads. The empty path leads nowhere. -/
def Path.spellingFault? (path : Path) : Option SystemFault :=
  if path.spelling.contains '\x00' then some .nulInPath
  else if path.spelling = [] then some .missing
  else if maxPathSize < Octet.size path.spelling then some .nameTooLong
  else none

namespace FileTree

/-! ## Walks -/

def hasDirectory (tree : FileTree) (location : Location) : Bool :=
  (tree.get? location).any Node.isDirectory

def lookUp (tree : FileTree) (directory : Location) (name : Text) :
    Except SystemFault (Option Node) :=
  if !tree.hasDirectory directory then .error .missing
  else if maxNameSize < Octet.size name then .error .nameTooLong
  else .ok (tree.get? (directory ++ [name]))

/-- Walks from a directory along segments, to the end or to the first link. -/
def stride (tree : FileTree) (footing : Footing) :
    Location → List Text → Except SystemFault Stride
  | here, [] =>
    match tree.get? here with
    | some node => .ok (.arrived (.found here node))
    | none => .error .missing
  | here, segment :: rest =>
    if segment = Path.currentSegment then stride tree footing here rest
    -- Links are followed before one goes up, so a name less is the directory above.
    else if segment = Path.parentSegment then stride tree footing here.dropLast rest
    -- No file is made under a name with a slash behind it, whatever is there.
    else if rest.isEmpty && footing.makesFile && footing.needsDirectory then .error .isDirectory
    else
      match tree.lookUp here segment with
      | .error fault => .error fault
      | .ok none =>
        if rest.isEmpty then .ok (.arrived (.absent here segment)) else .error .missing
      | .ok (some (.directory _)) => stride tree footing (here ++ [segment]) rest
      | .ok (some (.file content executable)) =>
        if rest.isEmpty && !footing.needsDirectory then
          .ok (.arrived (.found (here ++ [segment]) (.file content executable)))
        else
          .error .notDirectory
      | .ok (some (.link target)) =>
        if rest.isEmpty && !footing.needsDirectory && !footing.followLast then
          .ok (.arrived (.found (here ++ [segment]) (.link target)))
        else
          .ok (.detour here target rest)

/-- Where a path starts, seen from a directory. -/
def startOf (directory : Location) (path : Path) : Location :=
  if path.isAbsolute then [] else directory

/-- Walks from a directory along segments, following at most `links` links. -/
def travel (tree : FileTree) : Nat → Footing → Location → List Text → Except SystemFault Place
  | 0, _, _, _ => .error .tooManyLinks
  | links + 1, footing, here, segments =>
    match tree.stride footing here segments with
    | .error fault => .error fault
    | .ok (.arrived place) => .ok place
    | .ok (.detour directory target rest) =>
      if target.spelling = [] then .error .missing
      else
        -- The slash at the end of a target counts only if the walk ends with it.
        let needsDirectory := footing.needsDirectory || (rest.isEmpty && target.endsInSlash)
        travel tree links { footing with needsDirectory := needsDirectory }
          (startOf directory target) (target.steps ++ rest)

def journey (tree : FileTree) (footing : Footing) (path : Path) (segments : List Text) :
    Except SystemFault Place :=
  tree.travel (maxLinks + 1) footing (startOf tree.workingDirectory path) segments

def place (tree : FileTree) (footing : Footing) (path : Path) : Except SystemFault Place :=
  match path.spellingFault? with
  | some fault => .error fault
  | none => tree.journey footing path path.steps

/-- Where a path leads when every link is followed. -/
def placeOf (tree : FileTree) (path : Path) : Except SystemFault Place :=
  tree.place ⟨true, path.endsInSlash, false⟩ path

/-- Where a path leads when a link at its end is not followed. -/
def entryOf (tree : FileTree) (path : Path) : Except SystemFault Place :=
  tree.place ⟨false, path.endsInSlash, false⟩ path

/-- Where a file is written under a path, made if it is not there. -/
def fileOf (tree : FileTree) (path : Path) : Except SystemFault Place :=
  tree.place ⟨true, path.endsInSlash, true⟩ path

/-! ## Landings -/

/-- The directory that a path's last segment stands in, and that segment. -/
structure Landing where
  directory : Location
  segment : Text
  /-- Whether the path ends in a slash. -/
  spelledDirectory : Bool
deriving DecidableEq, Repr

def Landing.isEntry (landing : Landing) : Bool :=
  landing.segment != [] && landing.segment != Path.currentSegment &&
    landing.segment != Path.parentSegment

def Landing.location (landing : Landing) : Location := landing.directory ++ [landing.segment]

/-- Walks along a path up to its last segment, which is not looked up. The root has no segment. -/
def landing (tree : FileTree) (path : Path) : Except SystemFault Landing :=
  match path.spellingFault?, path.steps.getLast? with
  | some fault, _ => .error fault
  | none, none => .ok ⟨[], [], true⟩
  | none, some last =>
    match tree.journey ⟨true, true, false⟩ path path.steps.dropLast with
    | .error fault => .error fault
    | .ok (.absent _ _) => .error .missing
    | .ok (.found location _) => .ok ⟨location, last, path.endsInSlash⟩

/-! ## Looking -/

def arrive : Except SystemFault Place → Except SystemFault (Location × Node)
  | .error fault => .error fault
  | .ok (.absent _ _) => .error .missing
  | .ok (.found location node) => .ok (location, node)

def resolve (tree : FileTree) (path : Path) : Except SystemFault (Location × Node) :=
  arrive (tree.placeOf path)

def node? (tree : FileTree) (path : Path) : Option Node :=
  (tree.resolve path).toOption.map Prod.snd

def contains (tree : FileTree) (path : Path) : Bool := (tree.node? path).isSome

def isFile (tree : FileTree) (path : Path) : Bool := (tree.node? path).any Node.isFile

def isDirectory (tree : FileTree) (path : Path) : Bool := (tree.node? path).any Node.isDirectory

/-- The location that a path names, free of links. -/
def canonical (tree : FileTree) (path : Path) : Except SystemFault Location :=
  match path.spellingFault? with
  -- It is found name by name, so the path as a whole may be of any length.
  | none | some .nameTooLong =>
    (arrive (tree.journey ⟨true, path.endsInSlash, false⟩ path path.steps)).map Prod.fst
  | some fault => .error fault

def readText (tree : FileTree) (path : Path) : Except FileFault Text :=
  match tree.resolve path with
  | .error fault => .error (.system fault)
  | .ok (_, .file (.text chars) _) => .ok chars
  | .ok (_, .file (.binary _) _) => .error .notText
  | .ok (_, _) => .error (.system .isDirectory)

end FileTree

end Relink
