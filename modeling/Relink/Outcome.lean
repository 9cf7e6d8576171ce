import Relink.ModuleFiles
import Relink.Resolution
import Relink.SyntaxFault
import Relink.Span

/-!
# Outcomes

What relinking a module finds: how each of its requests is resolved, which statements are odd, and
the new text if there is one.
-/

set_option autoImplicit false

namespace Relink

/-! ## Anomalies -/

/-- A request whose specifier cannot be handled. Its statement is copied verbatim. -/
inductive Anomaly where
  | outOfBounds (statement specifier : Span)
  | notCharBoundary (specifier : Span)
  | escaped (specifier : Text)
  | empty (statement : Span)
deriving DecidableEq, Repr

namespace Anomaly

def name : Anomaly → String
  | .outOfBounds _ _ => "specifier_out_of_bounds"
  | .notCharBoundary _ => "not_char_boundary"
  | .escaped _ => "escaped_specifier"
  | .empty _ => "empty_specifier"

def message : Anomaly → String
  | .outOfBounds statement specifier =>
    "specifier at " ++ specifier.render ++ " lies outside its statement at " ++ statement.render
  | .notCharBoundary specifier =>
    "specifier at " ++ specifier.render ++ " does not fall on character boundaries"
  | .escaped specifier =>
    "specifier \x60" ++ String.ofList specifier ++ "\x60 contains escape sequences"
  | .empty statement => "empty specifier in statement at " ++ statement.render

end Anomaly

/-! ## Outcomes -/

/-- A specifier without the blanks around it, and what becomes of it. -/
structure ResolvedRequest where
  specifier : Text
  resolution : Resolution
deriving DecidableEq, Repr

/-- What relinking a module comes to. `text` is the new text; it is there only if a specifier was
replaced. Requests and anomalies are in source order. -/
structure Outcome where
  text : Option Text
  requests : List ResolvedRequest
  anomalies : List Anomaly
deriving DecidableEq, Repr

namespace Outcome

def isRelinked (outcome : Outcome) : Bool := outcome.text.isSome

def replacedRequests (outcome : Outcome) : Nat :=
  outcome.requests.countP fun request => request.resolution.isReplaced

end Outcome

/-! ## Faults -/

/-- What was done to a file when it failed. -/
inductive FileOperation where
  | read | write
deriving DecidableEq, Repr

def FileOperation.name : FileOperation → String
  | .read => "read"
  | .write => "write"

/-- Why a module cannot be relinked. It is left as it is. -/
inductive ModuleFault where
  | unparsable (file : Path) (fault : SyntaxFault)
  | inaccessible (file : Path) (operation : FileOperation) (fault : FileFault)
deriving DecidableEq, Repr

def ModuleFault.message : ModuleFault → String
  | .unparsable file fault => "failed to parse " ++ file.render ++ ": " ++ fault.render
  | .inaccessible file operation fault =>
    "failed to " ++ operation.name ++ " " ++ file.render ++ ": " ++ fault.message

end Relink
