import AuditPanel.Consensus.Scoring
import AuditPanel.Failure
import AuditPanel.Report.Counts
import AuditPanel.Source.Characteristics

/-!
The panel's view of a contract: all reports and the static findings merged, scored and put in order.
-/

set_option autoImplicit false

namespace AuditPanel.Consensus

/-- The panel's view. Findings under the confidence floor are kept apart. -/
structure Aggregate where
  findings : List Finding
  lowConfidence : List Finding
  overallScore : Float
  riskLevel : RiskLevel
  confidenceScore : Float
  summary : String
  recommendations : List String
  gasOptimizations : List String
  codeQuality : CodeQuality
  contributions : List (String × Nat)
  successful : List Reviewer
  failed : List Reviewer
  possibleSources : Nat
  deriving Inhabited

/-- The texts of a list that are not blank, each normalised text once, after the normalised texts
already seen and the reversed result so far. -/
def dedupFrom : List (List Char) → List String → List String → List String
  | _, out, [] => out.reverse
  | seen, out, item :: rest =>
    let key := normalizeName item.toList
    if Text.isAllBlank item.toList || seen.contains key then dedupFrom seen out rest
    else dedupFrom (key :: seen) (item :: out) rest

/-- The texts of a list that are not blank; of texts with one normalised form the first stays. -/
def dedupText (items : List String) : List String :=
  dedupFrom [] [] items

/-- The remarks of all reviewers: the mean of the scores they give and all notes. -/
def mergeQuality (reviews : List Review) : CodeQuality :=
  let scores := reviews.filterMap (·.codeQuality.score)
  { score := if scores.isEmpty then none else some (sum scores / Float.ofNat scores.length)
    notes := dedupText (reviews.flatMap (·.codeQuality.notes)) }

def profile (c : Source.Characteristics) : String :=
  let traits :=
    (if c.isDefi then ["DeFi"] else []) ++ (if c.isCrossChain then ["cross-chain"] else [])
    ++ (if c.hasMevExposure then ["MEV-exposed"] else [])
  if traits.isEmpty then "" else " Contract profile: " ++ ", ".intercalate traits ++ "."

/-- The summary of a panel: its numbers, the contract's profile and the summaries of the
reviewers. -/
def summaryOf (reviews : List Review) (dispatched : Nat) (kept : List Finding) (dropped : Nat)
    (c : Source.Characteristics) : String :=
  let completed := reviews.length
  let retained := kept.length
  let counts := (SeverityCounts.ofFindings kept).phrase
  let head :=
    s!"{completed} of {dispatched} reviewers completed. {retained} findings retained ({counts}); "
    ++ s!"{dropped} below the confidence floor." ++ profile c
  let parts := reviews.filterMap fun a =>
    if a.summary.isEmpty then none else some ("\n[" ++ a.reviewer.name ++ "] " ++ a.summary)
  head ++ String.join parts

/-- A reviewer's finding as a candidate: its category is canonical and the reviewer is among its
sources. -/
def candidate (r : Reviewer) (f : Finding) : Finding :=
  { f with
    category := Taxonomy.canonicalize f.category
    detectedBy := Ordered.strings (r.name :: f.detectedBy) }

def scored (possible : Nat) (f : Finding) : Finding :=
  let ratio := consensusRatio f possible
  { f with consensus := ratio, finalConfidence := finalConfidence f ratio }

def noneSucceeded (results : List ReviewResult) : Failure :=
  let reasons := results.map fun r => r.reviewer.name ++ ": " ++ r.error.getD "no analysis"
  let count := results.length
  ⟨.noSuccessfulAnalysis, s!"all {count} agents failed (" ++ "; ".intercalate reasons ++ ")"⟩

def inPanelOrder (results : List ReviewResult) : List ReviewResult :=
  results.mergeSort fun a b => a.reviewer.priority ≤ b.reviewer.priority

def successfulReview? (r : ReviewResult) : Option Review :=
  if r.success then r.review else none

/-- The last of the members with one name, in the order of the names. -/
def lastByName (xs : List (String × Nat)) : List (String × Nat) :=
  (Ordered.strings (xs.map (·.1))).filterMap fun name =>
    (xs.reverse.find? (·.1 = name)).map fun m => (name, m.2)

/-- All merged findings of a panel with their scores, in the order of their keys. -/
def scoredFindings (reviews : List Review) (staticFindings : List Finding) : List Finding :=
  let candidates := reviews.flatMap fun a => a.findings.map (candidate a.reviewer)
  (mergeFindings (candidates ++ staticFindings)).map fun m => scored (reviews.length + 1) m.2

/-- The panel's view of reports and static findings. It fails only when no reviewer gave a report.
The static scanner counts as one more source. -/
def aggregate (results : List ReviewResult) (staticFindings : List Finding)
    (c : Source.Characteristics) (rules : ScoringRules) : Except Failure Aggregate :=
  let ordered := inPanelOrder results
  let reviews := ordered.filterMap successfulReview?
  if reviews.isEmpty then .error (noneSucceeded ordered)
  else
    let all := scoredFindings reviews staticFindings
    let (low, kept) := all.partition fun f => f.finalConfidence < rules.minConfidence
    let kept := sortFindings kept
    let low := sortFindings low
    let base := (weightedScore? reviews rules).getD Review.defaultScore
    let score := deductedScore base kept rules.penalties
    .ok
      { findings := kept
        lowConfidence := low
        overallScore := score
        riskLevel := riskLevel score kept rules.thresholds
        confidenceScore := coverageScore reviews.length results.length kept
        summary := summaryOf reviews results.length kept low.length c
        recommendations := dedupText (reviews.flatMap (·.recommendations))
        gasOptimizations := dedupText (reviews.flatMap (·.gasOptimizations))
        codeQuality := mergeQuality reviews
        contributions := lastByName (ordered.map fun r => (r.reviewer.name, r.findingCount))
        successful := reviews.map (·.reviewer)
        failed := (ordered.filter fun r => (successfulReview? r).isNone).map (·.reviewer)
        possibleSources := reviews.length + 1 }

def Aggregate.toJson (a : Aggregate) : Json :=
  .ofMembers [
    ("vulnerabilities", .array (a.findings.map Finding.toJson)),
    ("lowConfidence", .array (a.lowConfidence.map Finding.toJson)),
    ("overallScore", .real a.overallScore), ("riskLevel", a.riskLevel.toJson),
    ("confidenceScore", .real a.confidenceScore), ("summary", .string a.summary),
    ("recommendations", .strings a.recommendations),
    ("gasOptimizations", .strings a.gasOptimizations), ("codeQuality", a.codeQuality.toJson),
    ("agentContributions", .ofMembers (a.contributions.map fun m => (m.1, .nat m.2))),
    ("successfulAgents", .array (a.successful.map Reviewer.toJson)),
    ("failedAgents", .array (a.failed.map Reviewer.toJson)),
    ("totalPossibleSources", .nat a.possibleSources)]

end AuditPanel.Consensus
