import AuditPanel.Consensus.Scoring
import AuditPanel.Review.Region
import AuditPanel.Text.Truncation

/-!
A reviewer's free-form answer read into the panel's own form. Nothing in an answer makes this fail:
fields have several names and shapes, texts are trimmed and cut, and what is missing gets a neutral
value.
-/

set_option autoImplicit false

namespace AuditPanel.Review

open AuditPanel.Text

abbrev Members := List (String × Json)

def summaryLimit : Nat := 1000

def textLimit : Nat := 2000

def itemLimit : Nat := 500

/-- How many lines after its first a range of lines may reach. -/
def rangeLimit : Nat := 200

/-- The name of a finding that gives none. -/
def unnamed : String := "Unknown Vulnerability"

def notProvided : String := "Not provided"

/-- The value under the first of the names that is there, unless it is null. -/
def field (members : Members) (names : List String) : Option Json :=
  match names.findSome? fun name => Json.member? name members with
  | none => none
  | some v => if v.isNull then none else some v

/-- A text without blanks and percent signs at its end and without blanks at its start. -/
def trimPercent (s : List Char) : List Char :=
  trim (((trim s).reverse.dropWhile (· == '%')).reverse)

/-- A finite number, which a text may write too, with percent signs after it. -/
def number? (v : Json) : Option Float :=
  let n := match v with
    | .string s => Decimal.read? (trimPercent s.toList)
    | v => v.asFloat?
  match n with
  | some x => if x.isNaN || x.isInf then none else some x
  | none => none

def text? (limit : Nat) (v : Json) : Option String :=
  match v.asString? with
  | none => none
  | some s =>
    let s := trim s.toList
    if s.isEmpty then none else some (String.ofList (truncate s limit))

/-- The text of a list item, which may be an object with a text under one of several names. -/
def item? : Json → Option String
  | .object members =>
    (field members ["description", "suggestion", "recommendation", "text", "title"]).bind
      (text? itemLimit)
  | v => text? itemLimit v

def stringList : Option Json → List String
  | none => []
  | some (.array items) => items.filterMap item?
  | some v => (item? v).toList

def clampScore (x : Float) : Float :=
  Consensus.clamp x 0.0 Consensus.maxScore

/-- Remarks on the quality of the code: an object, a list of notes or a bare score. -/
def qualityOf : Option Json → CodeQuality
  | some (.object members) =>
    { score := ((field members ["score"]).bind number?).map clampScore
      notes := stringList (field members ["notes", "issues", "suggestions"]) }
  | some (.array items) => ⟨none, stringList (some (.array items))⟩
  | some (.integer n) => ⟨(number? (.integer n)).map clampScore, []⟩
  | some (.real x) => ⟨(number? (.real x)).map clampScore, []⟩
  | _ => .empty

/-- The confidence that a number means; numbers above one and up to a hundred are percentages. -/
def scalarConfidence (x : Float) : Confidence :=
  let scaled := if 1.0 < x && x ≤ 100.0 then x / 100.0 else x
  .ofScalar (Consensus.clamp scaled 0.0 1.0)

/-- The confidence that an answer gives, medium if it cannot be told. -/
def confidenceOf : Option Json → Confidence
  | some (.string s) =>
    match Confidence.parse? s with
    | some c => c
    | none => ((number? (.string s)).map scalarConfidence).getD .medium
  | some (.integer n) => ((number? (.integer n)).map scalarConfidence).getD .medium
  | some (.real x) => ((number? (.real x)).map scalarConfidence).getD .medium
  | _ => .medium

def lineBound : Nat := 1 <<< 32

/-- A natural number of 32 bits by its digits, with a plus sign or without. -/
def lineNumber? (s : List Char) : Option Nat :=
  let digits := match s with
    | '+' :: rest => rest
    | _ => s
  if digits.isEmpty || !digits.all Char.isDigit then none
  else
    let n := Decimal.digitsValue digits
    if n < lineBound then some n else none

/-- The numbers from `a` to `b`. -/
def interval (a b : Nat) : List Nat :=
  (List.range (b + 1 - a)).map (a + ·)

/-- The lines that one word means: a number, or two with a dash between them. Letters L before it do
not count. -/
def tokenLines (token : List Char) : List Nat :=
  let part := (trim token).dropWhile fun c => c == 'L' || c == 'l'
  match splitAtChar? '-' part with
  | some (first, last) =>
    match lineNumber? (trim first), lineNumber? (trim last) with
    | some a, some b =>
      if 0 < a ∧ a ≤ b then interval a (min b (min (a + rangeLimit) (lineBound - 1))) else []
    | _, _ => []
  | none =>
    match lineNumber? part with
    | some n => if 0 < n then [n] else []
    | none => []

def textLines (s : List Char) : List Nat :=
  (piecesBetween (fun c => c == ',' || isBlank c) s).flatMap tokenLines

mutual

/-- The lines that a value names, in any order, onto those so far. -/
def collectLines (out : List Nat) : Json → List Nat
  | .integer n => if 0 < n ∧ n.toNat < lineBound then n.toNat :: out else out
  | .string s => textLines s.toList ++ out
  | .array items => collectAll out items
  | _ => out

/-- The lines that the items of a list name, onto those so far. -/
def collectAll (out : List Nat) : List Json → List Nat
  | [] => out
  | v :: rest => collectAll (collectLines out v) rest

end

def linesOf : Option Json → List Nat
  | none => []
  | some v => Ordered.nats (collectLines [] v)

def textOr (default : String) (limit : Nat) (members : Members) (names : List String) : String :=
  ((field members names).bind (text? limit)).getD default

/-- A finding of an answer, with the reviewer as its only source. -/
def findingOf (r : Reviewer) (members : Members) : Finding :=
  { name := textOr unnamed itemLimit members ["name", "title"]
    description := textOr notProvided textLimit members ["description", "details"]
    category :=
      (((field members ["category", "type"]).bind Json.asString?).map Taxonomy.canonicalize).getD
      Taxonomy.defaultCategory
    severity :=
      (((field members ["severity"]).bind Json.asString?).bind Severity.parse?).getD .medium
    confidence := confidenceOf (field members ["confidence"])
    affectedLines := linesOf
      (field members ["affectedLines", "affected_lines", "lines", "line", "lineNumbers",
        "lineNumber"])
    codeSnippet := textOr "" textLimit members ["codeSnippet", "code_snippet", "snippet", "code"]
    recommendation :=
      textOr notProvided textLimit members ["recommendation", "fix", "remediation", "mitigation"]
    impact := textOr notProvided textLimit members ["impact"]
    detectedBy := [r.name]
    consensus := 0.0
    finalConfidence := 0.0 }

/-- The findings of an answer; items that are no objects are passed over. -/
def findingsOf (r : Reviewer) : Option Json → List Finding
  | some (.array items) => (items.filterMap Json.asObject?).map (findingOf r)
  | _ => []

def ofMembers (r : Reviewer) (members : Members) : Review :=
  { reviewer := r
    score :=
      (((field members ["score", "overallScore", "securityScore"]).bind number?).map
        clampScore).getD defaultScore
    riskLevel := (((field members ["riskLevel", "risk_level", "risk"]).bind Json.asString?).bind
      RiskLevel.parse?).getD .medium
    summary := textOr (r.name ++ " analysis completed") summaryLimit members ["summary", "overview"]
    findings := findingsOf r (field members ["vulnerabilities", "findings", "issues"])
    recommendations := stringList (field members ["recommendations"])
    gasOptimizations := stringList (field members ["gasOptimizations", "gas_optimizations", "gas"])
    codeQuality := qualityOf (field members ["codeQuality", "code_quality"]) }

/-- The report that an answer gives; a neutral one if there is no object in it. -/
def normalize (raw : List Char) (r : Reviewer) : Review :=
  match extractObject? raw with
  | some members => ofMembers r members
  | none => neutral r

end AuditPanel.Review
