import AuditPanel.Report.Basic
import AuditPanel.Report.Phrase

/-!
The outline of a report: the lines in which a person reads it.
-/

set_option autoImplicit false

namespace AuditPanel.AuditReport

/-- The line of a finding, with the first of its lines in the source. -/
def findingLine (f : Finding) : String :=
  let place := match f.affectedLines with
    | [] => ""
    | line :: _ => s!" (line {line})"
  "  [" ++ f.severity.name ++ "] " ++ f.name ++ place

def placeLines (r : AuditReport) : List String :=
  match r.chain, r.address with
  | some chain, some address => ["Deployed: " ++ address ++ " on " ++ chain]
  | _, _ => []

def verdictLine (r : AuditReport) : String :=
  "Score: " ++ Decimal.fixed 0 r.overallScore ++ "/100  Risk: " ++ r.riskLevel.name ++
    "  Confidence: " ++ Decimal.fixed 2 r.confidenceScore

def adviceLines (r : AuditReport) : List String :=
  if r.recommendations.isEmpty then [] else "Recommendations:" :: r.recommendations.map
    ("  - " ++ ·)

def outline (r : AuditReport) : List String :=
  ["Audit " ++ r.auditId ++ " (" ++ r.status.name ++ ")"]
    ++ (if r.contractInfo.name.isEmpty then [] else ["Contract: " ++ r.contractInfo.name])
    ++ r.placeLines
    ++ [r.verdictLine, "Findings: " ++ r.counts.phrase]
    ++ r.findings.map findingLine
    ++ r.adviceLines
    ++ ["Completed in " ++ Report.durationText r.executionTime]

end AuditPanel.AuditReport
