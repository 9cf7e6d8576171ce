import Relink.Options
import Relink.Path

/-!
# Build configuration

What is built from where to where, in which module format and by which compiler.
-/

set_option autoImplicit false

namespace Relink.Build

/-! ## Formats -/

/-- Module format of the emitted code. -/
inductive Format where
  | cjs | esm | iife
deriving DecidableEq, Repr

namespace Format

def name : Format → String
  | .cjs => "cjs"
  | .esm => "esm"
  | .iife => "iife"

def extension : Format → ModuleExtension
  | .esm => .mjs
  | .cjs | .iife => .js

/-- Whether relative specifiers must name files to load under a format. -/
def needsExtensions : Format → Bool
  | .esm => true
  | .cjs | .iife => false

/-- The format that is written so, in any case of ASCII letters if `ignoreCase` is set. -/
def ofString? (ignoreCase : Bool) (text : String) : Option Format :=
  let written := if ignoreCase then text.toList.map Char.toLower else text.toList
  [Format.cjs, .esm, .iife].find? fun format => format.name.toList == written

def invalid (text : String) : String := "invalid variant: " ++ text

end Format

/-! ## Configuration -/

/-- A build. Files with one of the source extensions are compiled, all others are copied; `clear`
empties the output directory first. -/
structure Config where
  source : Path
  output : Path
  format : Format
  minify : Bool
  clear : Bool
  verbose : Bool
  sourceExtensions : List Text
  compiler : Path
deriving DecidableEq, Repr

namespace Config

/-- The build that is made unless something else is asked for. -/
def standard : Config where
  source := .ofString "src"
  output := .ofString "build"
  format := .cjs
  minify := false
  clear := true
  verbose := false
  sourceExtensions := Options.defaultSourceExtensions
  compiler := .ofString "esbuild"

/-- The configuration with other extensions of sources, whose leading dots do not count. -/
def withSourceExtensions (config : Config) (extensions : List Text) : Config :=
  { config with sourceExtensions := extensions.map ModuleExtension.dropDots }

def options (config : Config) : Options :=
  { Options.standard config.format.extension with
    minify := config.minify
    verbose := config.verbose
    sourceExtensions := config.sourceExtensions.map ModuleExtension.dropDots }

def same (left right : Config) : Bool :=
  left.source.same right.source && left.output.same right.output &&
    left.format == right.format && left.minify == right.minify && left.clear == right.clear &&
    left.verbose == right.verbose && left.sourceExtensions == right.sourceExtensions &&
    left.compiler.same right.compiler

end Config

end Relink.Build
