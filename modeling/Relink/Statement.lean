import Relink.Span

/-!
# Statements

The top-level statements of a module and the module requests among them.
-/

set_option autoImplicit false

namespace Relink

/-- How a statement requests a module: `import "x"`, `import … from "x"` or `export … from "x"`. -/
inductive RequestForm where
  | sideEffect | bindings | reExport
deriving DecidableEq, Repr

def RequestForm.name : RequestForm → String
  | .sideEffect => "SideEffect"
  | .bindings => "Bindings"
  | .reExport => "ReExport"

/-- A static request. `specifier` is the inside of the string literal, quotes excluded. -/
structure ModuleRequest where
  form : RequestForm
  specifier : Span
deriving DecidableEq, Repr

/-- A statement, from its first token to the end of its last one; a written `;` belongs to it. -/
structure Statement where
  request : Option ModuleRequest
  span : Span
deriving DecidableEq, Repr

namespace Statement

def other (span : Span) : Statement := ⟨none, span⟩

def isRequest (statement : Statement) : Bool := statement.request.isSome

/-- The same statement, `distance` bytes later. -/
def shift (statement : Statement) (distance : Nat) : Statement :=
  ⟨statement.request.map fun request =>
      { request with specifier := request.specifier.shift distance },
    statement.span.shift distance⟩

end Statement

end Relink
