import AuditPanel.Consensus.Merge
import AuditPanel.Consensus.Taxonomy
import AuditPanel.Review.Basic

/-!
Scores of findings and of reports.

Sums run from left to right over the list and start at minus zero, which no first summand notices.
-/

set_option autoImplicit false

namespace AuditPanel.Consensus

def maxScore : Float := 100.0

/-- The share of sources above which a finding is boosted. -/
def boostThreshold : Float := 0.6

def boostFactor : Float := 1.2

/-- A double moved into a range; one that is no number stays. -/
def clamp (x low high : Float) : Float :=
  let x := if x < low then low else x
  if high < x then high else x

def sum (xs : List Float) : Float :=
  xs.foldl (· + ·) (-0.0)

/-- Points taken off for a finding of each severity. -/
structure Penalties where
  critical : Float
  high : Float
  medium : Float
  low : Float
  deriving Inhabited

namespace Penalties

def standard : Penalties :=
  ⟨40.0, 25.0, 15.0, 5.0⟩

def of (p : Penalties) : Severity → Float
  | .critical => p.critical
  | .high => p.high
  | .medium => p.medium
  | .low => p.low

def toJson (p : Penalties) : Json :=
  .ofMembers [("critical", .real p.critical), ("high", .real p.high), ("medium", .real p.medium),
    ("low", .real p.low)]

def ofJson? (v : Json) : Option Penalties := do
  match ← v.slots? ["critical", "high", "medium", "low"] with
  | [s1, s2, s3, s4] =>
    some
      { critical := ← s1.required? Json.asFloat?
        high := ← s2.required? Json.asFloat?
        medium := ← s3.required? Json.asFloat?
        low := ← s4.required? Json.asFloat? }
  | _ => none

end Penalties

/-- The least score of each band of risk; what lies under the last is critical. -/
structure Thresholds where
  low : Float
  medium : Float
  high : Float
  deriving Inhabited

namespace Thresholds

def standard : Thresholds :=
  ⟨80.0, 60.0, 40.0⟩

def classify (t : Thresholds) (score : Float) : RiskLevel :=
  if t.low ≤ score then .low
  else if t.medium ≤ score then .medium
  else if t.high ≤ score then .high
  else .critical

def isDescending (t : Thresholds) : Bool :=
  t.medium < t.low && t.high < t.medium && 0.0 ≤ t.high && t.low ≤ maxScore

end Thresholds

/-- How findings and reports are scored. -/
structure ScoringRules where
  minConfidence : Float
  penalties : Penalties
  thresholds : Thresholds
  weights : List (Reviewer × Float)
  deriving Inhabited

namespace ScoringRules

def standard : ScoringRules :=
  ⟨0.4, .standard, .standard, Reviewer.all.map fun r => (r, r.defaultWeight)⟩

def weight (s : ScoringRules) (r : Reviewer) : Float :=
  match s.weights.find? (·.1 = r) with
  | some (_, w) => w
  | none => r.defaultWeight

end ScoringRules

/-- The share of the possible sources that reported a finding, one at most. -/
def consensusRatio (f : Finding) (possible : Nat) : Float :=
  if possible = 0 then 0.0
  else smaller (Float.ofNat f.detectedBy.length / Float.ofNat possible) 1.0

/-- The confidence in a finding, boosted when many sources agree, weighted by category and
agreement. -/
def finalConfidence (f : Finding) (consensus : Float) : Float :=
  let boost := if boostThreshold < consensus then boostFactor else 1.0
  let adjusted := smaller (f.confidence.value * boost) 1.0
  clamp (adjusted * Taxonomy.weight f.category * consensus) 0.0 1.0

/-- The mean of the reviewers' scores by their weights, or the plain mean when no weight is left. -/
def weightedScore? (reviews : List Review) (rules : ScoringRules) : Option Float :=
  let total := sum (reviews.map fun a => rules.weight a.reviewer)
  if reviews.isEmpty then none
  else if total ≤ 0.0 then some (sum (reviews.map (·.score)) / Float.ofNat reviews.length)
  else some (sum (reviews.map fun a => a.score * rules.weight a.reviewer) / total)

/-- A base score less the points of every finding, each by its confidence. -/
def deductedScore (base : Float) (findings : List Finding) (penalties : Penalties) : Float :=
  clamp (base - sum (findings.map fun f => penalties.of f.severity * f.finalConfidence)) 0.0
    maxScore

def reportScore (findings : List Finding) (penalties : Penalties) : Float :=
  clamp (maxScore - sum (findings.map fun f => penalties.of f.severity)) 0.0 maxScore

/-- The band of a score, or critical if there is a critical finding. -/
def riskLevel (score : Float) (findings : List Finding) (thresholds : Thresholds) : RiskLevel :=
  if findings.any (·.severity = .critical) then .critical else thresholds.classify score

/-- The share of reviewers that answered, scaled by the mean confidence in the findings. -/
def coverageScore (successful dispatched : Nat) (findings : List Finding) : Float :=
  if dispatched = 0 then 0.0
  else
    let coverage := Float.ofNat successful / Float.ofNat dispatched
    let certainty :=
      if findings.isEmpty then 1.0 else sum (findings.map (·.finalConfidence)) /
        Float.ofNat findings.length
    clamp (coverage * certainty) 0.0 1.0

/-- A rank of doubles in which every bit counts: negative ones first, zeros apart, and those that
are no number at the ends. -/
def totalRank (x : Float) : Int :=
  let bits := x.toBits.toNat
  let sign : Nat := 1 <<< 63
  if bits < sign then bits else (sign : Int) - 1 - bits

/-- The order of findings in a report: severity and confidence descending, then identity. -/
def reportOrder (a b : Finding) : Ordering :=
  (compare b.severity.level a.severity.level).then <|
  (compare (totalRank b.finalConfidence) (totalRank a.finalConfidence)).then
    (FindingKey.order a.key b.key)

def sortFindings (findings : List Finding) : List Finding :=
  findings.mergeSort fun a b => (reportOrder a b).isLE

end AuditPanel.Consensus
