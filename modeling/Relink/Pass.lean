import Relink.Relinking

/-!
# Passes

Relinking the modules of an output tree, one after another. A module that fails is reported and
left; the others are not affected.
-/

set_option autoImplicit false

namespace Relink

/-- How a module fared. -/
inductive ModuleStatus where
  | relinked (requests : Nat)
  | unchanged
  | failed (fault : ModuleFault)
deriving DecidableEq, Repr

namespace ModuleStatus

def name : ModuleStatus → String
  | .relinked _ => "rewritten"
  | .unchanged => "unchanged"
  | .failed (.unparsable _ _) => "parse_failed"
  | .failed (.inaccessible _ _ _) => "file_system_failed"

def isRelinked : ModuleStatus → Bool
  | .relinked _ => true
  | _ => false

/-- Whether the module was left as it is because nothing in it had to change. -/
def isUnchanged : ModuleStatus → Bool
  | .unchanged => true
  | _ => false

def isFailed : ModuleStatus → Bool
  | .failed _ => true
  | _ => false

def ofResult : Except ModuleFault Outcome → ModuleStatus
  | .ok outcome => if outcome.isRelinked then .relinked outcome.replacedRequests else .unchanged
  | .error fault => .failed fault

end ModuleStatus

/-- A module, by its path below the output root, and how it fared. -/
structure ModuleReport where
  path : Path
  status : ModuleStatus
deriving DecidableEq, Repr

/-- One entry for each module of a pass, in order. -/
structure PassReport where
  modules : List ModuleReport
deriving DecidableEq, Repr

namespace PassReport

def relinked (report : PassReport) : Nat :=
  report.modules.countP fun entry => entry.status.isRelinked

def unchanged (report : PassReport) : Nat :=
  report.modules.countP fun entry => entry.status.isUnchanged

def failures (report : PassReport) : List ModuleReport :=
  report.modules.filter fun entry => entry.status.isFailed

end PassReport

/-- What a run says of a finished module, behind what it said on the way. -/
def finishEvents (options : Options) (file : Path) : ModuleStatus → List Event
  | .failed fault => [.failed fault]
  | .unchanged => if options.verbose then [.scanned file] else []
  | .relinked requests =>
    if options.verbose then [.scanned file, .relinked file requests] else []

/-- Relinks modules, given by their paths below `root`. -/
def relinkModules {Files : Type} [ModuleFiles Files] (options : Options) (root : Path)
    (files : Files) : List Path → Run Files (List ModuleReport)
  | [] => ⟨files, [], [], []⟩
  | path :: rest =>
    let file := root.join path
    -- Existence is asked of the files as they are now, those relinked before included.
    let first := relinkModule options files file
    let status := ModuleStatus.ofResult first.result
    let others := relinkModules options root first.files rest
    ⟨others.files, ⟨path, status⟩ :: others.result, first.trace ++ others.trace,
      first.events ++ finishEvents options file status ++ others.events⟩

end Relink
