import Relink.Options
import Relink.Path

/-!
# Specifiers

What a specifier says by its form alone.
-/

set_option autoImplicit false

namespace Relink.Specifier

/-- Whether a specifier is found from the directory of the module that holds it. Package names,
absolute paths and locations with a scheme are not. -/
def isLocal (specifier : Text) : Bool :=
  "./".toList.isPrefixOf specifier || "../".toList.isPrefixOf specifier ||
    specifier == Path.currentSegment || specifier == Path.parentSegment

/-- Whether a specifier can only name a directory. -/
def namesDirectory (specifier : Text) : Bool :=
  specifier.getLast? == some '/' || specifier == Path.currentSegment ||
    specifier == Path.parentSegment

/-- A specifier less one final slash. -/
def directoryBase (specifier : Text) : Text :=
  if specifier.getLast? = some '/' then specifier.dropLast else specifier

def withExtension (specifier extension : Text) : Text := specifier ++ '.' :: extension

/-- The index module of the directory that a specifier names. -/
def indexOf (specifier extension : Text) : Text :=
  withExtension (directoryBase specifier ++ "/index".toList) extension

/-- Whether a specifier ends with an extension and its dot. -/
def hasExtension (specifier extension : Text) : Bool := ('.' :: extension).isSuffixOf specifier

end Relink.Specifier
