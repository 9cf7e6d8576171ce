import Relink.Build.Compiler
import Relink.Build.Discovery
import Relink.Pass

/-!
# Building

A build discovers sources, prepares the output directory, copies assets, compiles the entry points
in one run and, where the format asks for it, relinks the emitted modules. It stops at the first
fault and leaves what it has done so far.
-/

set_option autoImplicit false

namespace Relink.Build

/-! ## Reports -/

/-- What a build made, as paths below the output directory. Modules are relinked only where the
format needs it. -/
structure BuildReport where
  format : Format
  copied : List Path
  compiled : List Path
  relinked : Option PassReport
deriving DecidableEq, Repr

/-! ## Progress -/

/-- The file tree, what a build has said and the jobs it has given to the compiler. -/
structure Progress where
  tree : FileTree
  events : List Event
  jobs : List Job

def Progress.start (tree : FileTree) : Progress := ⟨tree, [], []⟩

abbrev Building := ExceptT BuildFault (StateM Progress)

def look {α : Type} (query : FileTree → Except BuildFault α) : Building α := fun progress =>
  (query progress.tree, progress)

def say (event : Event) : Building Unit := fun progress =>
  (.ok (), { progress with events := progress.events ++ [event] })

/-- Changes the tree; `blame` puts what goes wrong into the terms of the build. -/
def perform (blame : SystemFault → BuildFault) (change : FileTree.Change Unit) : Building Unit :=
  fun progress =>
    match change progress.tree with
    | (.ok _, tree) => (.ok (), { progress with tree := tree })
    | (.error fault, tree) => (.error (blame fault), { progress with tree := tree })

/-! ## Output directory -/

/-- Whether an output directory is, or contains, a source directory, once links are resolved. -/
def holdsSources (source output : Path) (tree : FileTree) : Except BuildFault Bool :=
  match tree.canonical source, tree.canonical output with
  | .error fault, _ => .error (.resolving source fault)
  | .ok _, .error fault => .error (.resolving output fault)
  | .ok sourceLocation, .ok outputLocation => .ok (outputLocation.isPrefixOf sourceLocation)

/-- Refuses an output directory that holds the sources, and clears it if that is asked for. -/
def reclaimOutput (source output : Path) (clear : Bool) : Building Unit := do
  if ← look (holdsSources source output) then
    throw (.outputHoldsSources output source)
  else if clear then
    -- The path is removed as it is spelled, not as it was resolved.
    perform (.clearing output) (FileTree.removeDirectory output)
    say (.cleared output)

/-- Brings an output directory about. One that is there is cleared if that is asked for, and is
refused if it holds the sources. -/
def prepareOutput (source output : Path) (clear : Bool) : Building Unit := do
  -- A way through something missing leads nowhere yet, even if it comes back to what is there.
  if ← look (fun tree => .ok (tree.contains output)) then
    reclaimOutput source output clear
  perform (.creating output) (FileTree.makeDirectories output)

/-! ## Assets -/

def makeParent (path : Path) : Building Unit :=
  match path.parent? with
  | none => pure ()
  | some parent => perform (.creating parent) (FileTree.makeDirectories parent)

def copyAssets (source output : Path) : List Path → Building Unit
  | [] => pure ()
  | asset :: rest => do
    let origin := source.join asset
    let target := output.join asset
    makeParent target
    perform (.copying origin target) (FileTree.atOnce (FileTree.copyFile origin target))
    copyAssets source output rest

/-! ## Compiling and relinking -/

def compile (compiler : Compiler) (job : Job) : Building Unit := fun progress =>
  let started := { progress with jobs := progress.jobs ++ [job] }
  match compiler job progress.tree with
  | (.ok _, tree) => (.ok (), { started with tree := tree })
  | (.error fault, tree) => (.error (.compiling job.source fault), { started with tree := tree })

/-- Gives a job to the compiler unless there is nothing to compile. -/
def compileIfAny (compiler : Compiler) (job : Job) : Building Unit :=
  if job.entryPoints.isEmpty then pure ()
  else do
    compile compiler job
    say (.compiled job.output job.entryPoints.length)

def relink (options : Options) (root : Path) (modules : List Path) : Building PassReport :=
  fun progress =>
    let run := relinkModules options root progress.tree modules
    (.ok ⟨run.result⟩,
      { progress with tree := run.files, events := progress.events ++ run.events })

/-- Relinks emitted modules where their format needs it. -/
def relinkIfNeeded (config : Config) (modules : List Path) : Building (Option PassReport) :=
  if config.format.needsExtensions then
    some <$> relink config.options config.output modules
  else
    pure none

/-! ## Builds -/

def Config.job (config : Config) (entryPoints : List Path) : Job :=
  ⟨config.source, config.output, entryPoints, config.format, config.minify⟩

def run (config : Config) (compiler : Compiler) : Building BuildReport := do
  -- Listed before the output directory is cleared: what lies in both is listed, too.
  let sources ← look fun tree => discoverSources tree config.source config.sourceExtensions
  say (.discovered config.source sources.entryPoints.length sources.assets.length)
  prepareOutput config.source config.output config.clear
  copyAssets config.source config.output sources.assets
  let job := config.job sources.entryPoints
  compileIfAny compiler job
  -- Relinking asks which files are there, so every asset and module has to be in its place.
  let relinked ← relinkIfNeeded config job.emitted
  pure ⟨config.format, sources.assets, job.emitted, relinked⟩

def runProgram (config : Config) : Building BuildReport :=
  run config (Compiler.program config.compiler)

def fixModules (directory : Path) (options : Options) : Building PassReport := do
  let modules ← look fun tree => discoverModules tree directory options.extension
  say (.fixing directory modules.length)
  relink options directory modules

end Relink.Build
