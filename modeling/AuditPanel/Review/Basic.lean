import AuditPanel.Finding.Basic
import AuditPanel.Review.Reviewer
import AuditPanel.Time.Instant

/-!
What a reviewer reports, and what became of asking one.
-/

set_option autoImplicit false

namespace AuditPanel

/-- Remarks on the quality of the code. -/
structure CodeQuality where
  score : Option Float
  notes : List String
  deriving Inhabited

namespace CodeQuality

def empty : CodeQuality :=
  ⟨none, []⟩

def toJson (q : CodeQuality) : Json :=
  .ofMembers [("score", .option .real q.score), ("notes", .strings q.notes)]

def ofJson? (v : Json) : Option CodeQuality := do
  match ← v.slots? ["score", "notes"] with
  | [s1, s2] =>
    some
      { score := ← s1.optional? Json.asFloat?
        notes := ← s2.required? (Json.asList? Json.asString?) }
  | _ => none

end CodeQuality

/-- One reviewer's report in the panel's own form. -/
structure Review where
  reviewer : Reviewer
  score : Float
  riskLevel : RiskLevel
  summary : String
  findings : List Finding
  recommendations : List String
  gasOptimizations : List String
  codeQuality : CodeQuality
  deriving Inhabited

namespace Review

/-- The score of a reviewer who gives none. -/
def defaultScore : Float := 50.0

def neutral (r : Reviewer) : Review :=
  { reviewer := r
    score := defaultScore
    riskLevel := .medium
    summary := r.name ++ " analysis unavailable: reviewer output could not be parsed"
    findings := []
    recommendations := []
    gasOptimizations := []
    codeQuality := .empty }

def toJson (a : Review) : Json :=
  .ofMembers [
    ("agentType", a.reviewer.toJson), ("score", .real a.score), ("riskLevel", a.riskLevel.toJson),
    ("summary", .string a.summary), ("vulnerabilities", .array (a.findings.map Finding.toJson)),
    ("recommendations", .strings a.recommendations),
    ("gasOptimizations", .strings a.gasOptimizations), ("codeQuality", a.codeQuality.toJson)]

def fieldNames : List String :=
  ["agentType", "score", "riskLevel", "summary", "vulnerabilities", "recommendations",
    "gasOptimizations", "codeQuality"]

def ofJson? (v : Json) : Option Review := do
  match ← v.slots? fieldNames with
  | [s1, s2, s3, s4, s5, s6, s7, s8] =>
    some
      { reviewer := ← s1.required? Reviewer.ofJson?
        score := ← s2.required? Json.asFloat?
        riskLevel := ← s3.required? RiskLevel.ofJson?
        summary := ← s4.required? Json.asString?
        findings := ← s5.required? (Json.asList? Finding.ofJson?)
        recommendations := ← s6.required? (Json.asList? Json.asString?)
        gasOptimizations := ← s7.required? (Json.asList? Json.asString?)
        codeQuality := ← s8.required? CodeQuality.ofJson? }
  | _ => none

end Review

def Instant.ofJson? (v : Json) : Option Instant :=
  v.asString?.bind Instant.ofText?

/-- What became of asking one reviewer. A well-formed result has a report when it succeeded and an
error text when it did not. -/
structure ReviewResult where
  reviewer : Reviewer
  success : Bool
  review : Option Review
  error : Option String
  executionTimeMs : Nat
  timestamp : Instant
  deriving Inhabited

namespace ReviewResult

def succeeded (a : Review) (executionTimeMs : Nat) (timestamp : Instant) : ReviewResult :=
  ⟨a.reviewer, true, some a, none, executionTimeMs, timestamp⟩

/-- The result of a reviewer who gave none. -/
def failed (r : Reviewer) (error : String) (executionTimeMs : Nat) (timestamp : Instant) :
    ReviewResult :=
  ⟨r, false, none, some error, executionTimeMs, timestamp⟩

/-- The number of findings in the report, zero without one. -/
def findingCount (r : ReviewResult) : Nat :=
  match r.review with
  | some a => a.findings.length
  | none => 0

def toJson (r : ReviewResult) : Json :=
  .ofMembers [
    ("agentType", r.reviewer.toJson), ("success", .bool r.success),
    ("analysis", .option Review.toJson r.review), ("error", .option .string r.error),
    ("executionTimeMs", .nat r.executionTimeMs), ("timestamp", .string r.timestamp.toText)]

def fieldNames : List String :=
  ["agentType", "success", "analysis", "error", "executionTimeMs", "timestamp"]

def ofJson? (v : Json) : Option ReviewResult := do
  match ← v.slots? fieldNames with
  | [s1, s2, s3, s4, s5, s6] =>
    some
      { reviewer := ← s1.required? Reviewer.ofJson?
        success := ← s2.required? Json.asBool?
        review := ← s3.optional? Review.ofJson?
        error := ← s4.optional? Json.asString?
        executionTimeMs := ← s5.required? Json.asNat?
        timestamp := ← s6.required? Instant.ofJson? }
  | _ => none

end ReviewResult

end AuditPanel
