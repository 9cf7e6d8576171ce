import Relink.Specifier

/-!
# Resolution

How a specifier has to be written so that it names an existing module. The files that exist are
given by a predicate; a resolution also says for which paths it was asked, in order.
-/

set_option autoImplicit false

namespace Relink

/-! ## Candidates -/

/-- What a local specifier may stand for: a module whose extension is left out, the index module of
a directory, or an index that was not emitted. -/
inductive Candidate where
  | file | directoryIndex | sourceIndex
deriving DecidableEq, Repr

namespace Candidate

/-- The order in which candidates are tried. -/
def order : List Candidate := [.file, .directoryIndex, .sourceIndex]

def name : Candidate → String
  | .file => "file"
  | .directoryIndex => "directory_index"
  | .sourceIndex => "untranspiled_index"

/-- The specifiers that name a candidate's files. -/
def targets (options : Options) (specifier : Text) : Candidate → List Text
  | .file =>
    -- `./dir/` can only name a directory.
    if Specifier.namesDirectory specifier then []
    else [Specifier.withExtension specifier options.extension.spelling]
  | .directoryIndex => [Specifier.indexOf specifier options.extension.spelling]
  | .sourceIndex => options.sourceExtensions.map (Specifier.indexOf specifier)

end Candidate

/-! ## Probing -/

/-- A value and the paths whose existence was asked for on the way to it. -/
structure Probed (α : Type) where
  value : α
  probes : List Path
deriving DecidableEq, Repr

namespace Probed

def unasked {α : Type} (value : α) : Probed α := ⟨value, []⟩

def after {α : Type} (probes : List Path) (probed : Probed α) : Probed α :=
  ⟨probed.value, probes ++ probed.probes⟩

def map {α β : Type} (f : α → β) (probed : Probed α) : Probed β := ⟨f probed.value, probed.probes⟩

end Probed

/-- The first target that names a file, seen from a directory. -/
def firstTarget (isFile : Path → Bool) (directory : Path) : List Text → Probed (Option Text)
  | [] => .unasked none
  | target :: rest =>
    let path := directory.follow target
    if isFile path then ⟨some target, [path]⟩
    else (firstTarget isFile directory rest).after [path]

/-- What a candidate makes of a specifier. -/
inductive Lookup where
  /-- The specifier must be written so. -/
  | replacement (specifier : Text)
  /-- The specifier stays as it is. -/
  | keep
  | notApplicable
deriving DecidableEq, Repr

namespace Candidate

def found : Candidate → Text → Lookup
  -- An index that was left out of the build goes by its directory.
  | .sourceIndex, _ => .keep
  | _, target => .replacement target

def lookup (isFile : Path → Bool) (options : Options) (directory : Path) (specifier : Text)
    (candidate : Candidate) : Probed Lookup :=
  (firstTarget isFile directory (candidate.targets options specifier)).map fun target =>
    match target with
    | some target => candidate.found target
    | none => .notApplicable

end Candidate

/-! ## Resolution -/

/-- What becomes of a specifier. -/
inductive Resolution where
  | replaced (specifier : Text) (candidate : Candidate)
  /-- It already has the extension of emitted modules. -/
  | alreadyResolved
  /-- It names a directory whose index was not emitted. -/
  | keptSourceIndex
  /-- It is not found from the directory of its module. -/
  | nonLocal
  /-- It is local, but no candidate exists. -/
  | unresolved
deriving DecidableEq, Repr

namespace Resolution

def isReplaced : Resolution → Bool
  | .replaced _ _ => true
  | _ => false

def replacement? : Resolution → Option Text
  | .replaced specifier _ => some specifier
  | _ => none

def name : Resolution → String
  | .replaced _ _ => "rewrite"
  | .alreadyResolved => "already_resolved"
  | .keptSourceIndex => "kept_untranspiled_index"
  | .nonLocal => "non_local"
  | .unresolved => "unresolved"

/-- A resolution in the log, where only specifiers that are kept appear. -/
def label : Resolution → String
  | .replaced _ _ => "Rewrite"
  | .alreadyResolved => "AlreadyResolved"
  | .keptSourceIndex => "KeptUntranspiledIndex"
  | .nonLocal => "NonLocal"
  | .unresolved => "Unresolved"

def ofCandidates (isFile : Path → Bool) (options : Options) (directory : Path)
    (specifier : Text) : List Candidate → Probed Resolution
  | [] => .unasked .unresolved
  | candidate :: rest =>
    let tried := candidate.lookup isFile options directory specifier
    match tried.value with
    | .replacement target => ⟨.replaced target candidate, tried.probes⟩
    | .keep => ⟨.keptSourceIndex, tried.probes⟩
    | .notApplicable =>
      (ofCandidates isFile options directory specifier rest).after tried.probes

/-- How a specifier in a module of `directory` has to be written. Candidates are tried only for a
local specifier without the extension. -/
def ofSpecifier (isFile : Path → Bool) (options : Options) (directory : Path)
    (specifier : Text) : Probed Resolution :=
  if !Specifier.isLocal specifier then .unasked .nonLocal
  else if Specifier.hasExtension specifier options.extension.spelling then .unasked .alreadyResolved
  else ofCandidates isFile options directory specifier Candidate.order

end Resolution

end Relink
