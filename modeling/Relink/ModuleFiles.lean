import Relink.FileFault

/-!
# Files of modules

What relinking needs of a place that holds modules: to ask whether a file exists, to read one and to
replace the contents of one.
-/

set_option autoImplicit false

namespace Relink

/-- A place that holds modules. -/
class ModuleFiles (Files : Type) where
  isFile : Files → Path → Bool
  read : Files → Path → Except FileFault Text
  write : Files → Path → Text → Except FileFault Files

/-- A use of files, as a trace lists it. -/
inductive Access where
  | isFile (path : Path) (found : Bool)
  | read (path : Path)
  /-- An attempt to write, whether or not it is let through. -/
  | write (path : Path)
deriving DecidableEq, Repr

def Access.ofProbes (isFile : Path → Bool) (probes : List Path) : List Access :=
  probes.map fun path => .isFile path (isFile path)

end Relink
