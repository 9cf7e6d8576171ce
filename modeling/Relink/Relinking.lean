import Relink.Event
import Relink.Scan.Statements
import Relink.Text.Blank

/-!
# Relinking a module

Every request of a module gets a specifier that names a file, where a file is found for it. All
other text stays: between statements that touch, a line break is put unless that is switched off.
-/

set_option autoImplicit false

namespace Relink

/-! ## Pieces -/

/-- A statement with its text and the text between it and the statement before. -/
structure Piece where
  gap : Text
  body : Text
  statement : Statement
deriving DecidableEq, Repr

/-- The pieces of `rest`, which begins at byte `offset` of its module, and what stands behind the
last statement. -/
def pieces (offset : Nat) (rest : Text) : List Statement → List Piece × Text
  | [] => ([], rest)
  | statement :: others =>
    let gap := Text.cut (statement.span.start - offset) rest
    let body := Text.cut statement.span.length gap.2
    let after := pieces statement.span.stop body.2 others
    (⟨gap.1, body.1, statement⟩ :: after.1, after.2)

/-! ## One request -/

/-- The text of a request around its specifier: through the opening quote, the blanks before the
specifier, the specifier, the blanks behind it, and the rest from the closing quote on. -/
structure RequestText where
  front : Text
  leading : Text
  specifier : Text
  trailing : Text
  back : Text
deriving DecidableEq, Repr

namespace RequestText

/-- Takes the text of a request apart. `raw` is the text between its quotes, with `front` before it
and `back` behind it. -/
def of (front raw back : Text) : RequestText :=
  ⟨front, raw.takeWhile isBlank, raw.trim, (raw.trimStart.reverse.takeWhile isBlank).reverse, back⟩

def withSpecifier (request : RequestText) (specifier : Text) : Text :=
  request.front ++ request.leading ++ specifier ++ request.trailing ++ request.back

end RequestText

/-- The text of a piece around a span within its statement, or none if an end of the span is no
character boundary. -/
def Piece.around? (piece : Piece) (span : Span) : Option (Text × Text × Text) :=
  let start := span.start - piece.statement.span.start
  let stop := span.stop - piece.statement.span.start
  (Text.slice? piece.body start stop).map fun inside =>
    ((Text.cut start piece.body).1, inside, (Text.cut stop piece.body).2)

/-- The request of a piece, taken apart, or why it cannot be handled. -/
def Piece.requestText (piece : Piece) (specifier : Span) : Except Anomaly RequestText :=
  if !piece.statement.span.contains specifier || specifier.stop < specifier.start then
    .error (.outOfBounds piece.statement.span specifier)
  else
    match piece.around? specifier with
    | none => .error (.notCharBoundary specifier)
    | some (front, raw, back) =>
      -- Escapes are not decoded, so what the specifier names is not known.
      if raw.contains '\\' then .error (.escaped raw)
      else if raw.trim.isEmpty then .error (.empty piece.statement.span)
      else .ok (.of front raw back)

/-! ## One piece -/

/-- What becomes of a statement. -/
inductive Treatment where
  | copied
  | resolved (request : ResolvedRequest) (newText : Option Text)
  | odd (anomaly : Anomaly)
deriving DecidableEq, Repr

namespace Treatment

def request? : Treatment → Option ResolvedRequest
  | .resolved request _ => some request
  | _ => none

def anomaly? : Treatment → Option Anomaly
  | .odd anomaly => some anomaly
  | _ => none

def newText? : Treatment → Option Text
  | .resolved _ newText => newText
  | _ => none

def events (file : Path) : Treatment → List Event
  | .copied => []
  | .resolved request _ =>
    if request.resolution.isReplaced then [] else [.keptRequest file request]
  | .odd anomaly => [.oddStatement file anomaly]

end Treatment

/-- Resolves the request of a piece, in a module of `directory`. -/
def Piece.treat (isFile : Path → Bool) (options : Options) (directory : Path) (piece : Piece) :
    Probed Treatment :=
  match piece.statement.request with
  | none => .unasked .copied
  | some request =>
    match piece.requestText request.specifier with
    | .error anomaly => .unasked (.odd anomaly)
    | .ok parts =>
      (Resolution.ofSpecifier isFile options directory parts.specifier).map fun resolution =>
        .resolved ⟨parts.specifier, resolution⟩
          (resolution.replacement?.map parts.withSpecifier)

/-- A line break where two statements touch. -/
def lineBreak (options : Options) (isFirst : Bool) (gap : Text) : Text :=
  if !isFirst && gap.isEmpty && !options.minify then ['\n'] else []

def reassemble (options : Options) : Bool → List (Piece × Treatment) → Text
  | _, [] => []
  | isFirst, (piece, treatment) :: rest =>
    lineBreak options isFirst piece.gap ++ piece.gap ++ treatment.newText?.getD piece.body ++
      reassemble options false rest

/-! ## One module -/

/-- An outcome, the paths that were asked for and what a run says about it. -/
structure Relinking where
  outcome : Outcome
  probes : List Path
  events : List Event
deriving DecidableEq, Repr

def Outcome.ofPieces (options : Options) (treated : List (Piece × Treatment)) (tail : Text) :
    Outcome :=
  let treatments := treated.map Prod.snd
  { text :=
      if treatments.any fun treatment => treatment.newText?.isSome then
        some (reassemble options true treated ++ tail)
      else
        none
    requests := treatments.filterMap Treatment.request?
    anomalies := treatments.filterMap Treatment.anomaly? }

def relinkStatements (isFile : Path → Bool) (options : Options) (file : Path) (text : Text)
    (statements : List Statement) : Relinking :=
  let directory := file.parent?.getD ⟨[]⟩
  let split := pieces 0 text statements
  let treated := split.1.map fun piece => (piece, piece.treat isFile options directory)
  { outcome :=
      Outcome.ofPieces options (treated.map fun entry => (entry.1, entry.2.value)) split.2
    probes := treated.flatMap fun entry => entry.2.probes
    events :=
      if options.verbose then treated.flatMap fun entry => entry.2.value.events file else [] }

/-- Relinks the text of the module at `file`, given which paths are files. -/
def relinkText (isFile : Path → Bool) (options : Options) (file : Path) (text : Text) :
    Except SyntaxFault Relinking :=
  (Statement.split text).map (relinkStatements isFile options file text)

/-- Files after a run, its result, and how it got there. -/
structure Run (Files α : Type) where
  files : Files
  result : α
  trace : List Access
  events : List Event

def writeOutcome {Files : Type} [ModuleFiles Files] (files : Files) (file : Path)
    (trace : List Access) (events : List Event) (outcome : Outcome) :
    Run Files (Except ModuleFault Outcome) :=
  match outcome.text with
  | none => ⟨files, .ok outcome, trace, events⟩
  | some newText =>
    match ModuleFiles.write files file newText with
    | .error fault =>
      ⟨files, .error (.inaccessible file .write fault), trace ++ [.write file], events⟩
    | .ok written => ⟨written, .ok outcome, trace ++ [.write file], events⟩

/-- Relinks the module at `file` in place. It is written only if a specifier is replaced. -/
def relinkModule {Files : Type} [ModuleFiles Files] (options : Options) (files : Files)
    (file : Path) : Run Files (Except ModuleFault Outcome) :=
  match ModuleFiles.read files file with
  | .error fault => ⟨files, .error (.inaccessible file .read fault), [.read file], []⟩
  | .ok text =>
    match relinkText (ModuleFiles.isFile files) options file text with
    | .error fault => ⟨files, .error (.unparsable file fault), [.read file], []⟩
    | .ok relinking =>
      writeOutcome files file
        (.read file :: Access.ofProbes (ModuleFiles.isFile files) relinking.probes)
        relinking.events relinking.outcome

end Relink
