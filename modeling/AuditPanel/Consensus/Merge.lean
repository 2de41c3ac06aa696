import AuditPanel.Finding.Basic

/-!
Merging findings of one identity. Sources are united and every scale takes its maximum, while the
texts come from the strongest contributor, so that the result does not depend on the order of
arrival.
-/

set_option autoImplicit false

namespace AuditPanel.Consensus

/-- The greater of two doubles; one that is no number gives way to the other. -/
def greater (x y : Float) : Float :=
  if x.isNaN then y else if x < y then y else x

/-- The smaller of two doubles; one that is no number gives way to the other. -/
def smaller (x y : Float) : Float :=
  if x.isNaN then y else if y < x then y else x

/-- The order that decides whose texts survive: severity, confidence and the length of the
description, and then the smaller texts. -/
def strength (a b : Finding) : Ordering :=
  (compare a.severity.level b.severity.level).then <|
  (compare a.confidence.level b.confidence.level).then <|
  (compare a.description.utf8ByteSize b.description.utf8ByteSize).then <|
  (compare b.name a.name).then <|
  (compare b.description a.description).then <|
  (compare b.recommendation a.recommendation).then <|
  (compare b.impact a.impact).then (compare b.codeSnippet a.codeSnippet)

/-- The stronger of two findings, the second of two equally strong ones. -/
def stronger (a b : Finding) : Finding :=
  if strength a b = .gt then a else b

/-- The strongest of a finding and others, the last of equally strong ones. -/
def strongest (first : Finding) (rest : List Finding) : Finding :=
  rest.foldl stronger first

/-- A finding that takes up the sources and scales of another. -/
def absorb (merged other : Finding) : Finding :=
  { merged with
    detectedBy := Ordered.strings (merged.detectedBy ++ other.detectedBy)
    severity := merged.severity.max other.severity
    confidence := merged.confidence.max other.confidence
    consensus := greater merged.consensus other.consensus
    finalConfidence := greater merged.finalConfidence other.finalConfidence }

def mergeGroup (first : Finding) (rest : List Finding) : Finding :=
  (first :: rest).foldl absorb (strongest first rest)

/-- Groups of neighbours with one key in a list of keyed findings, after an open group with its
members reversed and the reversed groups so far. -/
def groupsFrom : FindingKey → Finding → List Finding → List (FindingKey × Finding × List Finding) →
    List (FindingKey × Finding) → List (FindingKey × Finding × List Finding)
  | key, first, members, out, [] => ((key, first, members.reverse) :: out).reverse
  | key, first, members, out, (k, f) :: rest =>
    if k = key then groupsFrom key first (f :: members) out rest
    else groupsFrom k f [] ((key, first, members.reverse) :: out) rest

/-- The groups of findings with one key, in the order of the keys; within a group the order of
arrival stays. -/
def groups (findings : List Finding) : List (FindingKey × Finding × List Finding) :=
  match (findings.map fun f => (f.key, f)).mergeSort fun a b => FindingKey.le a.1 b.1 with
  | [] => []
  | (k, f) :: rest => groupsFrom k f [] [] rest

/-- One finding for each identity in a list, in the order of the keys. -/
def mergeFindings (findings : List Finding) : List (FindingKey × Finding) :=
  (groups findings).map fun (key, first, rest) => (key, mergeGroup first rest)

end AuditPanel.Consensus
