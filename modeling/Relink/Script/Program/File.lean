import Relink.Script.Pattern
import Relink.Script.Program.Option

/-!
# Programs on files

Programs that make, copy, move, remove and list files and directories.
-/

set_option autoImplicit false

namespace Relink.Script.Program

/-! ## Making and removing -/

/-- The fronts of a path that end before a slash or at its end, the shortest first. -/
def fronts (path : Text) : List Text :=
  let ends := (List.range path.length).filter fun n =>
    path[n]? != some '/' && (n + 1 = path.length || path[n + 1]? == some '/')
  ends.map fun n => path.take (n + 1)

/-- Makes a directory and those above it, as far as they are missing. -/
def makeAll (whole : Text) : List Text → Run Unit
  | [] => pure ()
  | path :: rest => do
    let tree := (← get).tree
    if tree.isDirectory ⟨path⟩ then makeAll whole rest
    else
      match tree.makeDirectory ⟨path⟩ with
      | .ok made =>
        modify fun shell => { shell with tree := made }
        makeAll whole rest
      | .error fault =>
        let cause := if fault = .exists && !rest.isEmpty then .notDirectory else fault
        complain ("cannot create directory " ++ inMarks path ++ ": " ++ SystemFault.phrase cause)

def mkdir (arguments : List Text) : Run Unit :=
  withOptions 1 "m:pvZ" [("mode", 'm'), ("parents", 'p'), ("verbose", 'v')] arguments fun given => do
    if given.operands.isEmpty then misuse 1 "missing operand"
    given.operands.forM fun path => do
      if given.has 'p' then
        if path.isEmpty then complain "cannot create directory '': No such file or directory"
        makeAll path (fronts path)
      else
        changeAtOnce (FileTree.makeDirectory ⟨path⟩) fun fault =>
          complain ("cannot create directory " ++ inMarks path ++ ": " ++ fault.phrase)

def dropOne (path : Text) : Run Unit :=
  changeAtOnce (FileTree.dropDirectory ⟨path⟩) fun fault =>
    complain ("failed to remove " ++ inMarks path ++ ": " ++ fault.phrase)

def rmdir (arguments : List Text) : Run Unit :=
  withOptions 1 "pv" [("parents", 'p'), ("verbose", 'v')] arguments fun given => do
    if given.operands.isEmpty then misuse 1 "missing operand"
    given.operands.forM fun path =>
      if given.has 'p' then (fronts path).reverse.forM dropOne else dropOne path

/-- Whether the last name of a path is that of a directory in itself. -/
def isSelfNamed (path : Text) : Bool :=
  let last := (Path.mk path).steps.getLast?
  last == some Path.currentSegment || last == some Path.parentSegment

/-- Removes files, and directories where that is asked for. -/
def rm (arguments : List Text) : Run Unit :=
  withOptions 1 "dfirRvI"
      [("dir", 'd'), ("force", 'f'), ("recursive", 'r'), ("verbose", 'v')] arguments fun given => do
    let deep := given.has 'r' || given.has 'R'
    let quiet := given.has 'f'
    if given.operands.isEmpty && !quiet then misuse 1 "missing operand"
    given.operands.forM fun path => do
      let complaint := fun fault : SystemFault =>
        if quiet && (fault == .missing || fault == .notDirectory) then pure ()
        else complain ("cannot remove " ++ inMarks path ++ ": " ++ fault.phrase)
      if deep && isSelfNamed path then
        complain ("refusing to remove '.' or '..' directory: skipping " ++ inMarks path)
      else if deep then change (FileTree.remove ⟨path⟩) complaint
      else if given.has 'd' && (← get).tree.isDirectory ⟨path⟩ then
        changeAtOnce (FileTree.dropDirectory ⟨path⟩) complaint
      else changeAtOnce (FileTree.unlink ⟨path⟩) complaint

/-! ## Copying and moving -/

/-- The path under which something is put: a directory takes it under its own name. -/
def goal (tree : FileTree) (source target : Text) : Text :=
  if tree.isDirectory ⟨target⟩ then
    ((Path.mk target).push (((Path.mk source).steps.getLast?).getD [])).spelling
  else target

mutual

/-- A node with another one laid over it: directories are joined, and all else is replaced. -/
def overlay : Option Node → Node → Node
  | some (.directory old), .directory new => .directory (overlayAll old new)
  | _, new => new

def overlayAll : List (Text × Node) → List (Text × Node) → List (Text × Node)
  | old, [] => old
  | old, (name, node) :: rest =>
    overlayAll (Entries.put name (overlay (Entries.get? name old) node) old) rest

end

def copyDirectory (source into : Text) (location : Location) (node : Node) : Run Unit := do
  let shell ← get
  match shell.tree.landing ⟨into⟩ with
  | .error fault =>
    complain ("cannot create directory " ++ inMarks into ++ ": " ++ fault.phrase)
  | .ok landing =>
    match shell.tree.get? landing.location with
    | some (.file _ _) =>
      complain ("cannot overwrite non-directory " ++ inMarks into ++ " with directory " ++
        inMarks source)
    | old =>
      if location.isPrefixOf landing.location then
        complain ("cannot copy a directory, " ++ inMarks source ++ ", into itself, " ++
          inMarks into)
      else set { shell with tree := shell.tree.put landing.location (overlay old node) }

/-- Copies one file. One that is there keeps its permission to be executed. -/
def copyOneFile (source into : Text) (location : Location) (content : Content)
    (executable : Bool) : Run Unit := do
  let tree := (← get).tree
  match tree.resolve ⟨into⟩ with
  | .ok (_, .directory _) =>
    complain ("cannot overwrite directory " ++ inMarks into ++ " with non-directory")
  | .ok (other, _) =>
    if other = location then
      complain (inMarks source ++ " and " ++ inMarks into ++ " are the same file")
    else changeAtOnce (FileTree.writeFile ⟨into⟩ content none) fun _ => pure ()
  | .error _ =>
    changeAtOnce (FileTree.writeFile ⟨into⟩ content (some executable)) fun fault =>
      let cause := if fault = .isDirectory then .notDirectory else fault
      complain ("cannot create regular file " ++ inMarks into ++ ": " ++ SystemFault.phrase cause)

def copyOne (deep : Bool) (target source : Text) : Run Unit := do
  let tree := (← get).tree
  let into := goal tree source target
  match tree.resolve ⟨source⟩ with
  | .error fault => complain ("cannot stat " ++ inMarks source ++ ": " ++ fault.phrase)
  | .ok (location, .file content executable) =>
    copyOneFile source into location content executable
  | .ok (location, node) =>
    if deep then copyDirectory source into location node
    else complain ("-r not specified; omitting directory " ++ inMarks source)

def moveOne (target source : Text) : Run Unit := do
  let shell ← get
  let into := goal shell.tree source target
  match FileTree.arrive (shell.tree.entryOf ⟨source⟩), shell.tree.landing ⟨into⟩ with
  | .error fault, _ => complain ("cannot stat " ++ inMarks source ++ ": " ++ fault.phrase)
  | .ok _, .error fault =>
    complain ("cannot move " ++ inMarks source ++ " to " ++ inMarks into ++ ": " ++ fault.phrase)
  | .ok (location, node), .ok landing =>
    let moved := { shell with tree := (shell.tree.erase location).put landing.location node }
    if landing.location = location then
      complain (inMarks source ++ " and " ++ inMarks into ++ " are the same file")
    else if node.isDirectory && location.isPrefixOf landing.location then
      complain ("cannot move " ++ inMarks source ++ " to a subdirectory of itself, " ++
        inMarks into)
    else
      match shell.tree.get? landing.location, node.isDirectory with
      | some (.directory (_ :: _)), true =>
        complain ("cannot overwrite " ++ inMarks into ++ ": Directory not empty")
      | some (.directory _), false =>
        complain ("cannot overwrite directory " ++ inMarks into ++ " with non-directory")
      | some (.directory []), true => set moved
      | some _, true =>
        complain ("cannot overwrite non-directory " ++ inMarks into ++ " with directory " ++
          inMarks source)
      | none, _ =>
        if landing.spelledDirectory && !node.isDirectory then
          complain ("cannot move " ++ inMarks source ++ " to " ++ inMarks into ++
            ": Not a directory")
        else set moved
      | some _, false => set moved

/-- Puts things to a target, of which there is one only where that is no directory. -/
def putAll (put : Text → Text → Run Unit) (given : Given) : Run Unit := do
  let tree := (← get).tree
  match given.value? 't', given.operands.reverse with
  | some target, _ => given.operands.forM (put target)
  | none, [] => misuse 1 "missing file operand"
  | none, [only] => misuse 1 ("missing destination file operand after " ++ inMarks only)
  | none, [target, source] => put target source
  | none, target :: sources =>
    match tree.resolve ⟨target⟩ with
    | .ok (_, .directory _) => sources.reverse.forM (put target)
    | .ok _ => complain ("target " ++ inMarks target ++ ": Not a directory")
    | .error fault => complain ("target " ++ inMarks target ++ ": " ++ fault.phrase)

def cp (arguments : List Text) : Run Unit :=
  withOptions 1 "abdfHilLnpPrRst:TuvxZ"
      [("archive", 'a'), ("force", 'f'), ("recursive", 'r'), ("verbose", 'v'),
        ("target-directory", 't')] arguments fun given =>
    putAll (copyOne (given.has 'r' || given.has 'R' || given.has 'a')) given

def mv (arguments : List Text) : Run Unit :=
  withOptions 1 "bfint:TuvZ" [("force", 'f'), ("verbose", 'v'), ("target-directory", 't')]
    arguments (putAll moveOne)

def linkOne (symbolic force : Bool) (path target : Text) : Run Unit := do
  let into := goal (← get).tree target path
  if force then changeAtOnce (FileTree.unlink ⟨into⟩) fun _ => pure ()
  let tree := (← get).tree
  if symbolic then
    changeAtOnce (FileTree.makeLink ⟨into⟩ ⟨target⟩) fun fault =>
      complain ("failed to create symbolic link " ++ inMarks into ++ ": " ++ fault.phrase)
  else
    match tree.resolve ⟨target⟩, tree.entryOf ⟨into⟩ with
    | .error fault, _ => complain ("failed to access " ++ inMarks target ++ ": " ++ fault.phrase)
    | .ok (_, .directory _), _ =>
      complain (String.ofList target ++ ": hard link not allowed for directory")
    | .ok _, .ok (.found _ _) =>
      complain ("failed to create hard link " ++ inMarks into ++ ": File exists")
    | .ok _, _ =>
      changeAtOnce (FileTree.copyFile ⟨target⟩ ⟨into⟩) fun fault =>
        complain ("failed to create hard link " ++ inMarks into ++ " => " ++ inMarks target ++
          ": " ++ fault.phrase)

def ln (arguments : List Text) : Run Unit :=
  withOptions 1 "bdfFiLnPrst:Tv" [("symbolic", 's'), ("force", 'f')] arguments fun given => do
    match given.operands with
    | [target] => linkOne (given.has 's') (given.has 'f') ['.'] target
    | _ => putAll (linkOne (given.has 's') (given.has 'f')) given

def touch (arguments : List Text) : Run Unit :=
  withOptions 1 "acd:fhmr:t:" [("no-create", 'c'), ("date", 'd'), ("reference", 'r')] arguments
    fun given => do
      if given.operands.isEmpty then misuse 1 "missing file operand"
      given.operands.forM fun path => do
        if !(← get).tree.contains ⟨path⟩ && !given.has 'c' then
          changeAtOnce (FileTree.writeFile ⟨path⟩ (.text []) none) fun fault =>
            let cause := if path.isEmpty then .missing else fault
            complain ("cannot touch " ++ inMarks path ++ ": " ++ SystemFault.phrase cause)

def freshName (tree : FileTree) (front : Text) : Nat → Text
  | 0 => front
  | fuel + 1 =>
    let path := front ++ Text.ofNat (1000000000 + fuel)
    if tree.contains ⟨path⟩ then freshName tree front fuel else path

def mktemp (arguments : List Text) : Run Unit :=
  withOptions 1 "dp:qtu" [("directory", 'd')] arguments fun given => do
    let tree := (← get).tree
    let template := (given.operands.head?.getD "/tmp/tmp.XXXXXXXXXX".toList)
    let front := (template.reverse.dropWhile (· == 'X')).reverse
    let path := freshName tree front 1000
    let complaint := fun fault : SystemFault =>
      complain ("failed to create file via template " ++ inMarks template ++ ": " ++ fault.phrase)
    if given.has 'd' then changeAtOnce (FileTree.makeDirectory ⟨path⟩) complaint
    else changeAtOnce (FileTree.writeFile ⟨path⟩ (.text []) none) complaint
    if (← get).status = 0 then print 1 (path ++ ['\n'])

/-! ## Modes -/

/-- Whether a clause of a mode, such as `u+x`, lets a file be executed. None if it is no clause. -/
def applyClause (old : Bool) (clause : Text) : Option Bool :=
  match clause.dropWhile fun c => "ugoa".toList.contains c with
  | sign :: letters =>
    if !letters.all fun c => "rwxXstugo".toList.contains c then none
    else if sign = '+' then some (old || letters.contains 'x')
    else if sign = '-' then some (old && !letters.contains 'x')
    else if sign = '=' then some (letters.contains 'x' || (letters.contains 'X' && old))
    else none
  | [] => none

/-- Whether a mode lets a file be executed. None if it is no mode. -/
def applyMode (mode : Text) (old : Bool) : Option Bool :=
  if !mode.isEmpty && mode.all Format.isOctal then
    some ((mode.reverse.take 3).any fun c => c.toNat % 2 = 1)
  else (Text.splitOn ',' mode).foldlM applyClause old

def chmod (arguments : List Text) : Run Unit := do
  let isOption := fun argument : Text =>
    argument.length ≤ 1 || argument.head? != some '-' || (applyMode argument false).isSome
  match arguments.filter isOption with
  | [] => misuse 1 "missing operand"
  | [mode] => misuse 1 ("missing operand after " ++ inMarks mode)
  | mode :: paths =>
    if (applyMode mode false).isNone then misuse 1 ("invalid mode: " ++ inMarks mode)
    else
      paths.forM fun path => do
        let shell ← get
        match shell.tree.resolve ⟨path⟩ with
        | .ok (location, .file content old) =>
          let node := Node.file content ((applyMode mode old).getD old)
          set { shell with tree := shell.tree.put location node }
        | .ok _ => pure ()
        | .error fault => complain ("cannot access " ++ inMarks path ++ ": " ++ fault.phrase)

/-! ## Listing -/

def sorted (texts : List Text) : List Text :=
  (Listing.sortByName (texts.map fun text => (text, ()))).map Prod.fst

def listedNames (given : Given) (entries : List (Text × Node)) : List Text :=
  let hidden := given.has 'a' || given.has 'A'
  let shown := (entries.map Prod.fst).filter fun name => hidden || name.head? != some '.'
  let all := sorted ((if given.has 'a' then [['.'], ['.', '.']] else []) ++ shown)
  let ordered := if given.has 'r' then all.reverse else all
  ordered.map fun name =>
    let isDirectory := (Entries.get? name entries).any Node.isDirectory ||
      name = ['.'] || name = ['.', '.']
    let isExecutable := match Entries.get? name entries with
      | some (.file _ executable) => executable
      | _ => false
    if (given.has 'p' || given.has 'F') && isDirectory then name ++ ['/']
    else if given.has 'F' && isExecutable then name ++ ['*']
    else name

def listDirectory (given : Given) (path : Text) (titled isLater : Bool) : Run Unit := do
  match (← get).tree.resolve ⟨path⟩ with
  | .ok (_, .directory entries) =>
    if isLater then print 1 ['\n']
    if titled then print 1 (path ++ [':', '\n'])
    print 1 ((listedNames given entries).flatMap fun name => name ++ ['\n'])
  | _ => pure ()

def ls (arguments : List Text) : Run Unit :=
  withOptions 2 "aAbBcCdfFghHiIklLmnNopqQrRsStTuUvwxXZ1"
      [("all", 'a'), ("almost-all", 'A'), ("directory", 'd'), ("reverse", 'r')] arguments
    fun given => do
      let paths := if given.operands.isEmpty then [['.']] else given.operands
      let tree := (← get).tree
      paths.forM fun path => do
        match tree.resolve ⟨path⟩ with
        | .error fault =>
          complain ("cannot access " ++ inMarks path ++ ": " ++ fault.phrase)
          setStatus 2
        | .ok _ => pure ()
      let found := sorted (paths.filter fun path => tree.contains ⟨path⟩)
      let (directories, files) := found.partition fun path =>
        !given.has 'd' && tree.isDirectory ⟨path⟩
      print 1 (files.flatMap fun path => path ++ ['\n'])
      directories.zipIdx.forM fun (path, place) =>
        listDirectory given path (1 < paths.length) (!files.isEmpty || 0 < place)

def readlink (arguments : List Text) : Run Unit :=
  withOptions 1 "femnqsvz" [] arguments fun given => do
    if given.operands.isEmpty then misuse 1 "missing operand"
    given.operands.forM fun path => do
      match (← get).tree.entryOf ⟨path⟩ with
      | .ok (.found _ (.link target)) =>
        print 1 (target.spelling ++ (if given.has 'n' then [] else ['\n']))
      | _ => setStatus 1

end Relink.Script.Program
