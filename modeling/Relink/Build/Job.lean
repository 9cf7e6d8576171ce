import Relink.Build.Config

/-!
# Compiler jobs

What a compiler is asked to do: one run over all entry points of a source tree.
-/

set_option autoImplicit false

namespace Relink.Build

/-- One run of a compiler. Entry points are paths below the source directory. -/
structure Job where
  source : Path
  output : Path
  entryPoints : List Path
  format : Format
  minify : Bool
deriving DecidableEq, Repr

/-- Where the module of an entry point is emitted, below the output directory. -/
def emittedPath (entryPoint : Path) (extension : ModuleExtension) : Path :=
  entryPoint.withExtension extension.spelling

namespace Job

def emitted (job : Job) : List Path :=
  job.entryPoints.map fun entry => emittedPath entry job.format.extension

def flag (name : String) (value : Text) : Text := ("--" ++ name ++ "=").toList ++ value

/-- The flag that renames emitted modules. It is left out where their extension is the usual one. -/
def extensionFlags (extension : ModuleExtension) : List Text :=
  if extension = .js then [] else [flag "out-extension:.js" ('.' :: extension.spelling)]

def arguments (job : Job) : List Text :=
  (job.entryPoints.map fun entry => (job.source.join entry).spelling) ++
    [flag "outdir" job.output.spelling, flag "outbase" job.source.spelling,
      flag "format" job.format.name.toList, flag "platform" "node".toList,
      flag "target" "esnext".toList] ++
    extensionFlags job.format.extension ++
    (if job.minify then ["--minify".toList] else [])

end Job

end Relink.Build
