import AuditPanel.Finding.Basic

/-!
Numbers of findings by severity.
-/

set_option autoImplicit false

namespace AuditPanel

/-- How many findings there are of each severity. -/
structure SeverityCounts where
  critical : Nat
  high : Nat
  medium : Nat
  low : Nat
  deriving Repr, DecidableEq, Inhabited

namespace SeverityCounts

def zero : SeverityCounts :=
  ⟨0, 0, 0, 0⟩

def countOf (severity : Severity) (findings : List Finding) : Nat :=
  findings.countP (·.severity = severity)

def ofFindings (findings : List Finding) : SeverityCounts :=
  ⟨countOf .critical findings, countOf .high findings, countOf .medium findings,
    countOf .low findings⟩

def total (c : SeverityCounts) : Nat :=
  c.critical + c.high + c.medium + c.low

def phrase (c : SeverityCounts) : String :=
  s!"{c.critical} critical, {c.high} high, {c.medium} medium, {c.low} low"

def toJson (c : SeverityCounts) : Json :=
  .ofMembers [("critical", .nat c.critical), ("high", .nat c.high), ("medium", .nat c.medium),
    ("low", .nat c.low)]

def ofJson? (v : Json) : Option SeverityCounts := do
  match ← v.slots? ["critical", "high", "medium", "low"] with
  | [s1, s2, s3, s4] =>
    some
      { critical := ← s1.required? Json.asNat?
        high := ← s2.required? Json.asNat?
        medium := ← s3.required? Json.asNat?
        low := ← s4.required? Json.asNat? }
  | _ => none

end SeverityCounts

end AuditPanel
