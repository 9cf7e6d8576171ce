import Relink.Build.Run
import Relink.JsonValue

/-!
# Reports

What runs come to, as JSON values and as lines of text.
-/

set_option autoImplicit false

namespace Relink

/-! ## Parts of reports -/

def Span.json (span : Span) : JsonValue := .array [.number span.start, .number span.stop]

def Path.json (path : Path) : JsonValue := .string path.render

/-- A statement, its kind first. -/
def Statement.json (statement : Statement) : JsonValue :=
  match statement.request with
  | none => .object [("kind", .string "Other"), ("loc", statement.span.json)]
  | some request =>
    .object [("kind", .string "Import"), ("form", .string request.form.name),
      ("specifier", request.specifier.json), ("loc", statement.span.json)]

def ModuleStatus.fields (status : ModuleStatus) : List (String × JsonValue) :=
  ("status", .string status.name) ::
    match status with
    | .relinked requests => [("imports", .number requests)]
    | .unchanged => []
    | .failed fault => [("message", .string fault.message)]

def ModuleReport.json (entry : ModuleReport) : JsonValue :=
  .object (("path", entry.path.json) :: entry.status.fields)

/-! ## Whole reports -/

def PassReport.fields (report : PassReport) : List (String × JsonValue) :=
  [("modules", .listOf ModuleReport.json report.modules)]

def Build.BuildReport.fields (report : Build.BuildReport) : List (String × JsonValue) :=
  [("format", .string report.format.name), ("copied", .listOf Path.json report.copied),
    ("compiled", .listOf Path.json report.compiled),
    ("rewrite", .optional (fun pass : PassReport => .object pass.fields) report.relinked)]

/-- The paths that a report shows. -/
def PassReport.paths (report : PassReport) : List Path := report.modules.map ModuleReport.path

def Build.BuildReport.paths (report : Build.BuildReport) : List Path :=
  report.copied ++ report.compiled ++ (report.relinked.map PassReport.paths).getD []

def listingFields (file : Path) (statements : List Statement) : List (String × JsonValue) :=
  [("file", file.json), ("statements", .listOf Statement.json statements)]

def reportVersion : Nat := 1

/-- A report, its version first. -/
def versioned (fields : List (String × JsonValue)) : JsonValue :=
  .object (("schema_version", .number reportVersion) :: fields)

/-! ## Summaries -/

def PassReport.summary (report : PassReport) : String :=
  "rewrote " ++ toString report.relinked ++ " of " ++ toString report.modules.length ++
    " module(s), " ++ toString report.failures.length ++ " failed\n"

/-- A build into `output` on a line, followed by a line for its pass if there is one. -/
def Build.BuildReport.summary (report : Build.BuildReport) (output : Path) : String :=
  "copied " ++ toString report.copied.length ++ " file(s), compiled " ++
    toString report.compiled.length ++ " module(s) to " ++ output.render ++ "\n" ++
    ((report.relinked.map PassReport.summary).getD "")

end Relink
