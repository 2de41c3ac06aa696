import AuditPanel.Json.Decode
import AuditPanel.Text.LowerCase
import AuditPanel.Text.Lines

/-!
Scales of a finding and of a report: severity, risk level and confidence.
-/

set_option autoImplicit false

namespace AuditPanel

/-- A word as scales read it: without blanks at its ends and in lower case for ASCII letters. -/
def foldWord (s : String) : String :=
  String.ofList (Text.toAsciiLower (Text.trim s.toList))

/-- How severe a finding is, from least to most. -/
inductive Severity where
  | low
  | medium
  | high
  | critical
  deriving Repr, DecidableEq, Inhabited

namespace Severity

/-- The place on the scale, the most severe first. -/
def rank : Severity → Nat
  | .critical => 0
  | .high => 1
  | .medium => 2
  | .low => 3

/-- The height on the scale, the least severe lowest. -/
def level : Severity → Nat
  | .low => 0
  | .medium => 1
  | .high => 2
  | .critical => 3

def name : Severity → String
  | .critical => "Critical"
  | .high => "High"
  | .medium => "Medium"
  | .low => "Low"

def parse? (value : String) : Option Severity :=
  match foldWord value with
  | "critical" => some .critical
  | "crit" => some .critical
  | "high" => some .high
  | "major" => some .high
  | "medium" => some .medium
  | "moderate" => some .medium
  | "med" => some .medium
  | "low" => some .low
  | "minor" => some .low
  | "info" => some .low
  | "informational" => some .low
  | _ => none

def max (a b : Severity) : Severity :=
  if a.level ≤ b.level then b else a

def ofName? : String → Option Severity
  | "Critical" => some .critical
  | "High" => some .high
  | "Medium" => some .medium
  | "Low" => some .low
  | _ => none

def ofJson? (v : Json) : Option Severity :=
  v.asName?.bind ofName?

def toJson (s : Severity) : Json :=
  .string s.name

end Severity

/-- The verdict on a contract, on the scale of severities. -/
inductive RiskLevel where
  | low
  | medium
  | high
  | critical
  deriving Repr, DecidableEq, Inhabited

namespace RiskLevel

/-- The height on the scale, the least risk lowest. -/
def level : RiskLevel → Nat
  | .low => 0
  | .medium => 1
  | .high => 2
  | .critical => 3

def name : RiskLevel → String
  | .critical => "Critical"
  | .high => "High"
  | .medium => "Medium"
  | .low => "Low"

def parse? (value : String) : Option RiskLevel :=
  match foldWord value with
  | "critical" => some .critical
  | "high" => some .high
  | "medium" => some .medium
  | "low" => some .low
  | _ => none

def ofName? : String → Option RiskLevel
  | "Critical" => some .critical
  | "High" => some .high
  | "Medium" => some .medium
  | "Low" => some .low
  | _ => none

def ofJson? (v : Json) : Option RiskLevel :=
  v.asName?.bind ofName?

def toJson (r : RiskLevel) : Json :=
  .string r.name

end RiskLevel

/-- How sure a source is of a finding. -/
inductive Confidence where
  | low
  | medium
  | high
  deriving Repr, DecidableEq, Inhabited

namespace Confidence

/-- The height on the scale, the least sure lowest. -/
def level : Confidence → Nat
  | .low => 0
  | .medium => 1
  | .high => 2

def value : Confidence → Float
  | .high => 0.9
  | .medium => 0.7
  | .low => 0.4

def name : Confidence → String
  | .high => "High"
  | .medium => "Medium"
  | .low => "Low"

/-- The confidence that a number between zero and one means: high from 0.8 on, medium from 0.5
on. -/
def ofScalar (x : Float) : Confidence :=
  if 0.8 ≤ x then .high else if 0.5 ≤ x then .medium else .low

def parse? (value : String) : Option Confidence :=
  match foldWord value with
  | "high" => some .high
  | "medium" => some .medium
  | "moderate" => some .medium
  | "low" => some .low
  | _ => none

def max (a b : Confidence) : Confidence :=
  if a.level ≤ b.level then b else a

def ofName? : String → Option Confidence
  | "High" => some .high
  | "Medium" => some .medium
  | "Low" => some .low
  | _ => none

def ofJson? (v : Json) : Option Confidence :=
  v.asName?.bind ofName?

def toJson (c : Confidence) : Json :=
  .string c.name

end Confidence

end AuditPanel
