import Relink.FileFault
import Relink.Script.Ending

/-!
# Build faults

Why a build fails, from the outside in: each fault names what was tried and, behind it, its cause.
-/

set_option autoImplicit false

namespace Relink.Build

/-- Why a compiler fails. -/
inductive CompilerFault where
  | reported (text : Text)
  | filing (fault : SystemFault)
  | notStarted (program : Path) (fault : SystemFault)
  | exited (program : Path) (ending : Script.Ending) (complaint : Text)
deriving DecidableEq, Repr

def CompilerFault.message : CompilerFault → String
  | .reported text => String.ofList text
  | .filing fault => fault.message
  | .notStarted program fault => "spawn compiler at " ++ program.render ++ ": " ++ fault.message
  | .exited program ending complaint =>
    program.render ++ " exited with " ++ ending.message ++ ": " ++ String.ofList complaint

/-- Why a build fails. -/
inductive BuildFault where
  | noSources (directory : Path)
  | noOutput (directory : Path)
  /-- Clearing the output would delete the sources, and copying would overwrite them. -/
  | outputHoldsSources (output source : Path)
  | resolving (path : Path) (fault : SystemFault)
  | clearing (directory : Path) (fault : SystemFault)
  | creating (directory : Path) (fault : SystemFault)
  | copying (source target : Path) (fault : SystemFault)
  | compiling (source : Path) (fault : CompilerFault)
deriving DecidableEq, Repr

def BuildFault.message : BuildFault → String
  | .noSources directory => "source directory not found at " ++ directory.render
  | .noOutput directory => "output directory not found at " ++ directory.render
  | .outputHoldsSources output source =>
    "output directory " ++ output.render ++ " contains the source directory " ++ source.render
  | .resolving path fault => "resolve " ++ path.render ++ ": " ++ fault.message
  | .clearing directory fault => "clear " ++ directory.render ++ ": " ++ fault.message
  | .creating directory fault => "create " ++ directory.render ++ ": " ++ fault.message
  | .copying source target fault =>
    "copy " ++ source.render ++ " to " ++ target.render ++ ": " ++ fault.message
  | .compiling source fault => "compile " ++ source.render ++ ": " ++ fault.message

end Relink.Build
