import Relink.Outcome

/-!
# Events

What a run tells of its progress, as facts. Their wording and severity are in one place.
-/

set_option autoImplicit false

namespace Relink

/-- How much an event matters. -/
inductive Severity where
  | error | warning | information
deriving DecidableEq, Repr

def Severity.name : Severity → String
  | .error => "ERROR"
  | .warning => "WARN"
  | .information => "INFO"

/-- Something a run came across or finished. -/
inductive Event where
  | keptRequest (file : Path) (request : ResolvedRequest)
  | oddStatement (file : Path) (anomaly : Anomaly)
  | scanned (file : Path)
  | relinked (file : Path) (requests : Nat)
  | failed (fault : ModuleFault)
  | discovered (directory : Path) (entryPoints assets : Nat)
  | cleared (directory : Path)
  | compiled (directory : Path) (modules : Nat)
  | fixing (directory : Path) (modules : Nat)
deriving DecidableEq, Repr

namespace Event

def severity : Event → Severity
  | .failed _ => .error
  | .oddStatement _ _ => .warning
  | _ => .information

def message : Event → String
  | .keptRequest _ _ => "import left unchanged"
  | .oddStatement _ anomaly => anomaly.message ++ "; statement copied verbatim"
  | .scanned file => file.render ++ " has been scanned"
  | .relinked file _ => "rewrote " ++ file.render
  | .failed fault => fault.message
  | .discovered directory _ _ => "discovered " ++ directory.render
  | .cleared directory => "cleared " ++ directory.render
  | .compiled directory _ => "compiled to " ++ directory.render
  | .fixing directory _ => "fixing imports under " ++ directory.render

def details : Event → List (String × String)
  | .keptRequest file request =>
    [("file", file.render), ("specifier", String.ofList request.specifier),
      ("resolution", request.resolution.label)]
  | .oddStatement file _ => [("file", file.render)]
  | .relinked _ requests => [("imports", toString requests)]
  | .discovered _ entryPoints assets =>
    [("entry_points", toString entryPoints), ("assets", toString assets)]
  | .compiled _ modules => [("modules", toString modules)]
  | .fixing _ modules => [("modules", toString modules)]
  | _ => []

end Event

end Relink
