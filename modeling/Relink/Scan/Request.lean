import Relink.Scan.Simple
import Relink.Statement

/-!
# Module requests

`import` and `export … from` statements, from after their first words on.
-/

set_option autoImplicit false

namespace Relink.Scan

/-- A statement and the unit that was read past its end, if any. -/
structure Scanned where
  statement : Statement
  pending : Option Token
deriving DecidableEq, Repr

def Scanned.of (request : Option ModuleRequest) (start : Nat) (ending : Ending) : Scanned :=
  ⟨⟨request, ⟨start, ending.stop⟩⟩, ending.pending⟩

/-- Whether `next` introduces import attributes: `with`, or `assert` on the same line. -/
def introducesAttributes (next : Token) : Bool :=
  next.isKeyword .withWord || (next.isWord "assert" && !next.onNewLine)

/-- The end of a request whose specifier ends at `stop`, past any attributes and `;`. -/
def requestEnding (unit : Scan Token) (stop : Nat) : Scan Ending := do
  let next ← unit
  if introducesAttributes next then do
    let attributes ← unit
    require (.punctuator .braceOpen) attributes
    let after ← unit
    terminator attributes.span.stop after
  else
    terminator stop next

/-- A request that started at `start` and whose specifier should be `specifier`. -/
def request (unit : Scan Token) (start : Nat) (form : RequestForm) (specifier : Token) :
    Scan Scanned :=
  if specifier.kind = .literal .string then do
    let ending ← requestEnding unit specifier.span.stop
    -- The quotes are one byte each.
    pure (.of (some ⟨form, ⟨specifier.span.start + 1, specifier.span.stop - 1⟩⟩) start ending)
  else
    fail (.atToken (.missing .specifierString) specifier)

def requestNext (unit : Scan Token) (start : Nat) (form : RequestForm) : Scan Scanned := do
  let specifier ← unit
  request unit start form specifier

/-- Units that bind names in an import clause. -/
def bindsNames (token : Token) : Bool :=
  token.kind == .identifier || token.isPunctuator .asterisk || token.isPunctuator .braceOpen

/-- Passes over an import clause, from `token` through the `from` behind it. `bound` says that a
binding was seen: only then does `from` end the clause and may a comma stand. -/
def importClause (unit : Scan Token) : Nat → Bool → Token → Scan Unit
  | 0, _, _ => outOfFuel
  | fuel + 1, bound, token =>
    if bound && token.isWord "from" then pure ()
    else if bindsNames token then do
      let next ← unit
      importClause unit fuel true next
    else if bound && token.isPunctuator .comma then do
      let next ← unit
      importClause unit fuel bound next
    else
      fail (.atToken (.missing .importClause) token)

/-- The rest of an `import` statement, of which `next` is the second unit. -/
def importStatement (unit : Scan Token) (fuel : Nat) (start : Nat) (next : Token) :
    Scan Scanned :=
  if next.kind = .literal .string then request unit start .sideEffect next
  else do
    importClause unit fuel false next
    requestNext unit start .bindings

/-- Names under which a module may be exported. -/
def isExportedName (token : Token) : Bool :=
  token.kind == .identifier || token.kind == .literal .string || token.kind.isKeyword

/-- The rest of `export … from`, of which `token` should be the `from`. -/
def exportFrom (unit : Scan Token) (start : Nat) (token : Token) : Scan Scanned :=
  if token.isWord "from" then requestNext unit start .reExport
  else fail (.atToken (.missing .fromClause) token)

def exportAll (unit : Scan Token) (start : Nat) : Scan Scanned := do
  let token ← unit
  if token.isWord "as" then do
    let name ← unit
    if isExportedName name then do
      let after ← unit
      exportFrom unit start after
    else
      fail (.atToken (.missing .exportedName) name)
  else
    exportFrom unit start token

/-- The rest of an export list that ends at `stop`: a request, or else a local list. -/
def exportList (unit : Scan Token) (start stop : Nat) : Scan Scanned := do
  let token ← unit
  if token.isWord "from" then requestNext unit start .reExport
  else do
    let ending ← terminator stop token
    pure (.of none start ending)

end Relink.Scan
