import Relink.Text.Octet

/-!
# Paths

A path keeps its spelling. What it names is decided by its components: repeated and final slashes
and `.` segments do not matter, except that a leading `.` is a component of its own; `..` is a
component and is never folded here.
-/

set_option autoImplicit false

namespace Relink

/-- A part of a path. -/
inductive Component where
  | root
  | current
  | parent
  | name (text : Text)
deriving DecidableEq, Repr

/-- A path as it is written. Bytes in it that are no UTF-8 have carriers. -/
structure Path where
  spelling : Text
deriving DecidableEq, Repr

namespace Path

/-! ## Components -/

def parentSegment : Text := ['.', '.']

def currentSegment : Text := ['.']

/-- Segments that are no component. -/
def isVoid (segment : Text) : Bool := segment == [] || segment == currentSegment

/-- What stands before the segments of a path: a slash, a leading dot or nothing. -/
def lead (path : Path) : Text :=
  match path.spelling with
  | '/' :: _ => ['/']
  | ['.'] => ['.']
  | '.' :: '/' :: _ => ['.']
  | _ => []

def leadComponents (lead : Text) : List Component :=
  if lead = ['/'] then [.root] else if lead = ['.'] then [.current] else []

/-- The segments behind the lead, void ones included. -/
def segments (path : Path) : List Text :=
  Text.splitOn '/' (path.spelling.drop path.lead.length)

def component? (segment : Text) : Option Component :=
  if isVoid segment then none
  else if segment = parentSegment then some .parent
  else some (.name segment)

def components (path : Path) : List Component :=
  leadComponents path.lead ++ path.segments.filterMap component?

/-- The segments that a walk along the path takes; a `.` is one of them, empty ones are not. -/
def steps (path : Path) : List Text := (Text.splitOn '/' path.spelling).filter (· != [])

/-- Whether a path is written with a final slash, so that it can only name a directory. -/
def endsInSlash (path : Path) : Bool := path.spelling.getLast? == some '/'

/-- Paths name the same when their components are equal. -/
def same (left right : Path) : Bool := left.components == right.components

def isAbsolute (path : Path) : Bool := path.lead == ['/']

/-- A path in messages, where bytes that are no UTF-8 are replaced. -/
def render (path : Path) : String := String.ofList (Octet.message path.spelling)

def ofString (text : String) : Path := ⟨text.toList⟩

/-! ## Taking apart -/

/-- Segments less the void ones at the end. -/
def solid (segments : List Text) : List Text := (segments.reverse.dropWhile isVoid).reverse

def assemble (lead : Text) (segments : List Text) : Path := ⟨lead ++ Text.joinWith ['/'] segments⟩

/-- A path less its last component, as a leading part of its spelling. The root and the empty path
have none. -/
def parent? (path : Path) : Option Path :=
  match solid path.segments with
  | [] => if path.lead = currentSegment then some ⟨[]⟩ else none
  | _ :: _ => some (assemble path.lead (solid (solid path.segments).dropLast))

def fileName? (path : Path) : Option Text :=
  match path.components.getLast? with
  | some (.name text) => some text
  | _ => none

/-- A file name taken apart at its last dot. A name without a dot, or with a leading dot only, is
all stem. -/
def splitName (name : Text) : Text × Option Text :=
  let ending := (name.reverse.takeWhile (· != '.')).reverse
  let stem := name.take (name.length - ending.length - 1)
  if name.contains '.' && stem != [] then (stem, some ending) else (name, none)

def stem? (path : Path) : Option Text := path.fileName?.map fun name => (splitName name).1

def extension? (path : Path) : Option Text := path.fileName?.bind fun name => (splitName name).2

/-- A path and those above it, the longest first. -/
def ancestorsWithin : Nat → Path → List Path
  | 0, path => [path]
  | bound + 1, path =>
    match path.parent? with
    | some parent => path :: ancestorsWithin bound parent
    | none => [path]

/-- A path, the path less its last component, and so on. Each has a shorter spelling than the one
before it, which bounds their number. -/
def ancestors (path : Path) : List Path := ancestorsWithin path.spelling.length path

/-! ## Putting together -/

/-- A path behind another. An absolute one stands for itself; no slash is put behind an empty path
or another slash. -/
def join (path next : Path) : Path :=
  if next.isAbsolute then next
  else if path.spelling = [] ∨ path.spelling.getLast? = some '/' then
    ⟨path.spelling ++ next.spelling⟩
  else
    ⟨path.spelling ++ '/' :: next.spelling⟩

def push (path : Path) (segment : Text) : Path := path.join ⟨segment⟩

/-- A path with its file name's extension replaced, or added if there is none. What stands behind
the file name is dropped; a path without a file name stays as it is. -/
def withExtension (path : Path) (extension : Text) : Path :=
  match path.fileName? with
  | none => path
  | some name =>
    assemble path.lead
      ((solid path.segments).dropLast ++ [(splitName name).1 ++ '.' :: extension])

/-! ## Following a specifier -/

def step (path : Path) (segment : Text) : Path :=
  if isVoid segment then path
  else if segment = parentSegment then
    -- `..` takes back a name and is kept where there is none to take back.
    match path.components.getLast? with
    | some (.name _) => path.parent?.getD path
    | _ => path.push segment
  else path.push segment

/-- The path that a relative specifier names from a directory. Links are not followed: `.` and `..`
are folded as text. -/
def follow (directory : Path) (specifier : Text) : Path :=
  (Text.splitOn '/' specifier).foldl step directory

end Path

end Relink
