import Relink.Text

/-!
# Options

How modules are relinked: the extension of emitted modules, the extensions of sources, and two
switches.
-/

set_option autoImplicit false

namespace Relink

/-- Extension of emitted modules, which specifiers get. -/
inductive ModuleExtension where
  | js | mjs | cjs
deriving DecidableEq, Repr

namespace ModuleExtension

/-- An extension without its dot. -/
def spelling : ModuleExtension → Text
  | .js => ['j', 's']
  | .mjs => ['m', 'j', 's']
  | .cjs => ['c', 'j', 's']

def name (extension : ModuleExtension) : String := String.ofList extension.spelling

def dropDots (text : Text) : Text := text.dropWhile (· == '.')

/-- The extension that is written so, with any number of leading dots. -/
def ofText? (text : Text) : Option ModuleExtension :=
  [.js, .mjs, .cjs].find? fun extension => extension.spelling == dropDots text

def unsupported (text : Text) : String :=
  "unsupported output extension '" ++ String.ofList (dropDots text) ++ "'"

end ModuleExtension

/-- Options of a run. Without `minify`, adjacent statements are put on lines of their own. -/
structure Options where
  extension : ModuleExtension
  sourceExtensions : List Text
  minify : Bool
  verbose : Bool
deriving DecidableEq, Repr

namespace Options

def defaultSourceExtensions : List Text := [['t', 's'], ['t', 's', 'x']]

/-- Options with both switches off. -/
def standard (extension : ModuleExtension) : Options :=
  ⟨extension, defaultSourceExtensions, false, false⟩

/-- The options with other extensions of sources, whose leading dots do not count. -/
def withSourceExtensions (options : Options) (extensions : List Text) : Options :=
  { options with sourceExtensions := extensions.map ModuleExtension.dropDots }

end Options

end Relink
