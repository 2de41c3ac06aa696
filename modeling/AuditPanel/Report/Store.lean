import AuditPanel.Failure
import AuditPanel.Json.Printer
import AuditPanel.Json.Reader
import AuditPanel.Report.Basic

/-!
The report store: one row for each audit, with the record of the report as text and a summary for
listings.
-/

set_option autoImplicit false

namespace AuditPanel

/-- What a listing shows of a report. The counts are kept in signed words of 64 bits. -/
structure AuditSummary where
  auditId : String
  status : String
  contractName : String
  chain : Option String
  address : Option String
  overallScore : Float
  riskLevel : String
  critical : Int
  high : Int
  medium : Int
  low : Int
  error : Option String
  createdAt : String
  deriving Inhabited

namespace AuditSummary

def signedWord (n : Nat) : Int :=
  Int.bmod n (1 <<< 64)

/-- A score as listings show it: zero has no sign, and what is no number is stored as zero. -/
def listedScore (score : Float) : Float :=
  if score == 0 || score.isNaN then 0 else score

def ofReport (r : AuditReport) : AuditSummary :=
  { auditId := r.auditId
    status := r.status.name
    contractName := r.contractInfo.name
    chain := r.chain
    address := r.address
    overallScore := listedScore r.overallScore
    riskLevel := r.riskLevel.name
    critical := signedWord r.counts.critical
    high := signedWord r.counts.high
    medium := signedWord r.counts.medium
    low := signedWord r.counts.low
    error := r.error
    createdAt := r.timestamp.toOffsetText }

def toJson (s : AuditSummary) : Json :=
  .ofMembers [
    ("auditId", .string s.auditId), ("status", .string s.status),
    ("contractName", .string s.contractName), ("chain", .option .string s.chain),
    ("address", .option .string s.address), ("overallScore", .real s.overallScore),
    ("riskLevel", .string s.riskLevel), ("critical", .integer s.critical),
    ("high", .integer s.high), ("medium", .integer s.medium), ("low", .integer s.low),
    ("error", .option .string s.error), ("createdAt", .string s.createdAt)]

/-- Whether a summary stands before another in a listing: the later one by the text of its instant
first, then the one with the smaller id. -/
def standsBefore (a b : AuditSummary) : Bool :=
  ((compare b.createdAt a.createdAt).then (compare a.auditId b.auditId)).isLE

end AuditSummary

/-- A row of the store. -/
structure StoreRow where
  summary : AuditSummary
  record : String
  deriving Inhabited

/-- A store: rows with different ids. -/
structure ReportStore where
  rows : List StoreRow
  deriving Inhabited

namespace ReportStore

def empty : ReportStore :=
  ⟨[]⟩

def row? (s : ReportStore) (id : String) : Option StoreRow :=
  s.rows.find? (·.summary.auditId = id)

/-- A report put in the place of the one with its id. -/
def save (s : ReportStore) (r : AuditReport) : ReportStore :=
  ⟨⟨.ofReport r, r.toJson.compact⟩ :: s.rows.filter (·.summary.auditId ≠ r.auditId)⟩

def unreadable : Failure :=
  ⟨.json, "the stored record is no report"⟩

def get (s : ReportStore) (id : String) : Except Failure (Option AuditReport) :=
  match s.row? id with
  | none => .ok none
  | some row =>
    match (Json.read? row.record.toList).bind AuditReport.ofJson? with
    | some r => .ok (some r)
    | none => .error unreadable

/-- The first summaries in the order of a listing, as many as a limit says; a limit below zero is
none. -/
def list (s : ReportStore) (limit : Int) : List AuditSummary :=
  let all := (s.rows.map (·.summary)).mergeSort AuditSummary.standsBefore
  if limit < 0 then all else all.take limit.toNat

end ReportStore

end AuditPanel
