import Relink.Build.Fault
import Relink.FileTree.Listing
import Relink.Options

/-!
# Discovery

Which files of a directory are compiled, which are copied, and which are modules.
-/

set_option autoImplicit false

namespace Relink.Build

def hasExtension (extensions : List Text) (path : Path) : Bool :=
  (path.extension?.bind Octet.unicode?).any fun extension => extensions.contains extension

/-- Whether a file only declares types, so that nothing is emitted for it. One whose stem is no UTF-8
passes for none, whatever its ending. -/
def isDeclaration (path : Path) : Bool :=
  (path.stem?.bind Octet.unicode?).any fun stem => Text.endsWith stem ['.', 'd']

def isEntryPoint (extensions : List Text) (path : Path) : Bool :=
  hasExtension extensions path && !isDeclaration path

/-- The files of a source directory, relative to it and in order: those that are compiled and those
that are copied. -/
structure SourceListing where
  entryPoints : List Path
  assets : List Path
deriving DecidableEq, Repr

def SourceListing.ofFiles (extensions : List Text) (files : List Path) : SourceListing :=
  ⟨files.filter (isEntryPoint extensions), files.filter fun file => !isEntryPoint extensions file⟩

def discoverSources (tree : FileTree) (directory : Path) (extensions : List Text) :
    Except BuildFault SourceListing :=
  if tree.isDirectory directory then .ok (.ofFiles extensions (tree.filesBelow directory))
  else .error (.noSources directory)

/-- The modules of an output directory, relative to it and in order. -/
def discoverModules (tree : FileTree) (directory : Path) (extension : ModuleExtension) :
    Except BuildFault (List Path) :=
  if tree.isDirectory directory then
    .ok ((tree.filesBelow directory).filter (hasExtension [extension.spelling]))
  else .error (.noOutput directory)

end Relink.Build
