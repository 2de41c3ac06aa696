import AuditPanel.Failure
import AuditPanel.Report.ContractInfo
import AuditPanel.Source.Characteristics
import AuditPanel.Source.Complexity
import AuditPanel.Source.Extraction
import AuditPanel.Source.Record
import AuditPanel.Source.RuleScan

/-!
The static analysis of a source: its declarations, the findings of the scan, its complexity and its
size.
-/

set_option autoImplicit false

namespace AuditPanel.Source

/-- What the static analysis finds out. -/
structure Analysis where
  declarations : Declarations
  findings : List Finding
  complexity : Nat
  linesOfCode : Nat
  deriving Inhabited

def emptySource : Failure :=
  ⟨.parse, "source is empty"⟩

namespace Analysis

def ofSource (source : List Char) : Analysis :=
  let cleaned := blankComments source
  let declarations := extract cleaned
  { declarations := declarations
    findings := scan source (blankLiterals cleaned) declarations.hasCheckedArithmetic
    complexity := cyclomatic cleaned
    linesOfCode := Source.linesOfCode cleaned }

def characteristics (a : Analysis) (source : List Char) : Characteristics :=
  .derive a.declarations source a.complexity a.linesOfCode

def contractInfo (a : Analysis) : ContractInfo :=
  let d := a.declarations
  { name := d.primaryContract.getD "Unknown"
    contracts := d.contracts.map (·.name)
    functionCount := d.functions.length
    modifierCount := d.modifiers.length
    eventCount := d.events.length
    stateVariableCount := d.stateVariables.length
    payableFunctionCount := d.payableFunctions.length
    complexity := a.complexity
    linesOfCode := a.linesOfCode
    bytecodeSize := none }

def toJson (a : Analysis) : Json :=
  .ofMembers
    [("facts", a.declarations.toJson), ("findings", .array (a.findings.map Finding.toJson)),
    ("complexity", .nat a.complexity), ("linesOfCode", .nat a.linesOfCode)]

end Analysis

/-- The static analysis of a source. Only a blank source fails. -/
def analyze (source : List Char) : Except Failure Analysis :=
  if Text.isAllBlank source then .error emptySource else .ok (.ofSource source)

end AuditPanel.Source
