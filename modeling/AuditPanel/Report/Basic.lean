import AuditPanel.Report.ContractInfo
import AuditPanel.Report.Counts
import AuditPanel.Review.Basic

/-!
Audit reports: what an audit found, or why it failed.
-/

set_option autoImplicit false

namespace AuditPanel

/-- How an audit ended. -/
inductive AuditStatus where
  | completed
  | failed
  | bytecodeOnly
  deriving Repr, DecidableEq, Inhabited

namespace AuditStatus

def name : AuditStatus → String
  | .completed => "completed"
  | .failed => "failed"
  | .bytecodeOnly => "bytecode-only"

def ofName? : String → Option AuditStatus
  | "completed" => some .completed
  | "failed" => some .failed
  | "bytecode-only" => some .bytecodeOnly
  | _ => none

def toJson (s : AuditStatus) : Json :=
  .string s.name

def ofJson? (v : Json) : Option AuditStatus :=
  v.asName?.bind ofName?

end AuditStatus

/-- The outcome of an audit. Contributions stand in the order of their names, each name once. -/
structure AuditReport where
  auditId : String
  status : AuditStatus
  contractInfo : ContractInfo
  findings : List Finding
  overallScore : Float
  riskLevel : RiskLevel
  confidenceScore : Float
  counts : SeverityCounts
  summary : String
  recommendations : List String
  gasOptimizations : List String
  codeQuality : CodeQuality
  contributions : List (String × Nat)
  staticFindingCount : Nat
  chain : Option String
  address : Option String
  error : Option String
  executionTime : Nat
  timestamp : Instant
  deriving Inhabited

namespace AuditReport

/-- A report with a verdict and nothing else. -/
def bare (auditId : String) (status : AuditStatus) (score : Float) (risk : RiskLevel)
    (timestamp : Instant) :
    AuditReport :=
  { auditId := auditId
    status := status
    contractInfo := .empty
    findings := []
    overallScore := score
    riskLevel := risk
    confidenceScore := 0.0
    counts := .zero
    summary := ""
    recommendations := []
    gasOptimizations := []
    codeQuality := .empty
    contributions := []
    staticFindingCount := 0
    chain := none
    address := none
    error := none
    executionTime := 0
    timestamp := timestamp }

def failed (auditId error : String) (executionTime : Nat) (timestamp : Instant) : AuditReport :=
  { bare auditId .failed 0.0 .critical timestamp with
    summary := "Audit failed: " ++ error
    error := some error
    executionTime := executionTime }

def hasCritical (r : AuditReport) : Bool :=
  0 < r.counts.critical

/-- A member of a record that is left out when there is no value. -/
def optionalMember (name : String) (value : Option String) : List (String × Json) :=
  value.toList.map fun s => (name, .string s)

def toJson (r : AuditReport) : Json :=
  .ofMembers <|
    [("auditId", .string r.auditId), ("status", r.status.toJson),
      ("contractInfo", r.contractInfo.toJson),
      ("vulnerabilities", .array (r.findings.map Finding.toJson)),
      ("overallScore", .real r.overallScore), ("riskLevel", r.riskLevel.toJson),
      ("confidenceScore", .real r.confidenceScore), ("severityCounts", r.counts.toJson),
      ("summary", .string r.summary), ("recommendations", .strings r.recommendations),
      ("gasOptimizations", .strings r.gasOptimizations), ("codeQuality", r.codeQuality.toJson),
      ("agentContributions", .ofMembers (r.contributions.map fun m => (m.1, .nat m.2))),
      ("staticFindingCount", .nat r.staticFindingCount)]
    ++ optionalMember "chain" r.chain ++ optionalMember "address" r.address ++
      optionalMember "error" r.error
    ++ [("executionTime", .nat r.executionTime), ("timestamp", .string r.timestamp.toText)]

def fieldNames : List String :=
  ["auditId", "status", "contractInfo", "vulnerabilities", "overallScore", "riskLevel",
    "confidenceScore", "severityCounts", "summary", "recommendations", "gasOptimizations",
    "codeQuality", "agentContributions", "staticFindingCount", "chain", "address", "error",
    "executionTime", "timestamp"]

def contributionsOf? (v : Json) : Option (List (String × Nat)) := do
  (← v.asObject?).mapM fun (name, n) => n.asNat?.map fun n => (name, n)

def ofJson? (v : Json) : Option AuditReport := do
  match ← v.slots? fieldNames with
  | [s1, s2, s3, s4, s5, s6, s7, s8, s9, s10, s11, s12, s13, s14, s15, s16, s17, s18, s19] =>
    some
      { auditId := ← s1.required? Json.asString?
        status := ← s2.required? AuditStatus.ofJson?
        contractInfo := ← s3.required? ContractInfo.ofJson?
        findings := ← s4.required? (Json.asList? Finding.ofJson?)
        overallScore := ← s5.required? Json.asFloat?
        riskLevel := ← s6.required? RiskLevel.ofJson?
        confidenceScore := ← s7.required? Json.asFloat?
        counts := ← s8.required? SeverityCounts.ofJson?
        summary := ← s9.required? Json.asString?
        recommendations := ← s10.required? (Json.asList? Json.asString?)
        gasOptimizations := ← s11.required? (Json.asList? Json.asString?)
        codeQuality := ← s12.required? CodeQuality.ofJson?
        contributions := ← s13.required? contributionsOf?
        staticFindingCount := ← s14.required? Json.asNat?
        chain := ← s15.optional? Json.asString?
        address := ← s16.optional? Json.asString?
        error := ← s17.optional? Json.asString?
        executionTime := ← s18.required? Json.asNat?
        timestamp := ← s19.required? Instant.ofJson? }
  | _ => none

end AuditReport

end AuditPanel
