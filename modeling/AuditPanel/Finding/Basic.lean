import AuditPanel.Finding.Severity
import AuditPanel.Ordered
import AuditPanel.Text.Letters

/-!
Findings and the identity by which reports of one issue are recognised: category, normalised name
and lines.
-/

set_option autoImplicit false

namespace AuditPanel

/-- An issue reported by one or more sources. Lines and sources are increasing lists without
repetition. -/
structure Finding where
  name : String
  description : String
  category : String
  severity : Severity
  confidence : Confidence
  affectedLines : List Nat
  codeSnippet : String
  recommendation : String
  impact : String
  detectedBy : List String
  consensus : Float
  finalConfidence : Float
  deriving Inhabited

/-- The identity of a finding. -/
structure FindingKey where
  category : String
  name : String
  lines : List Nat
  deriving Repr, DecidableEq, Inhabited

namespace FindingKey

/-- Keys by category, then name, then lines. -/
def order (a b : FindingKey) : Ordering :=
  (compare a.category b.category).then ((compare a.name b.name).then (compare a.lines b.lines))

def le (a b : FindingKey) : Bool :=
  (order a b).isLE

end FindingKey

def staticSource : String := "static"

/-- A name in lower case with only letters, digits and single blanks between its words. -/
def normalizeName (name : List Char) : List Char :=
  let kept := (Text.trim (Text.toLower name)).filter fun c => Text.isAlphanumeric c || c == ' '
  Text.joinWith [' '] (Text.words kept)

namespace Finding

def key (f : Finding) : FindingKey :=
  ⟨f.category, String.ofList (normalizeName f.name.toList), f.affectedLines⟩

def isStatic (f : Finding) : Bool :=
  f.detectedBy.contains staticSource

def toJson (f : Finding) : Json :=
  .ofMembers [
    ("name", .string f.name), ("description", .string f.description),
    ("category", .string f.category), ("severity", f.severity.toJson),
    ("confidence", f.confidence.toJson), ("affectedLines", .array (f.affectedLines.map .nat)),
    ("codeSnippet", .string f.codeSnippet), ("recommendation", .string f.recommendation),
    ("impact", .string f.impact), ("detectedBy", .strings f.detectedBy),
    ("consensus", .real f.consensus), ("finalConfidence", .real f.finalConfidence)]

def fieldNames : List String :=
  ["name", "description", "category", "severity", "confidence", "affectedLines", "codeSnippet",
    "recommendation", "impact", "detectedBy", "consensus", "finalConfidence"]

/-- The finding that a record holds. The two scores are zero when they are not there. -/
def ofJson? (v : Json) : Option Finding := do
  match ← v.slots? fieldNames with
  | [s1, s2, s3, s4, s5, s6, s7, s8, s9, s10, s11, s12] =>
    some
      { name := ← s1.required? Json.asString?
        description := ← s2.required? Json.asString?
        category := ← s3.required? Json.asString?
        severity := ← s4.required? Severity.ofJson?
        confidence := ← s5.required? Confidence.ofJson?
        affectedLines := Ordered.nats (← s6.required? (Json.asList? Json.asNat32?))
        codeSnippet := ← s7.required? Json.asString?
        recommendation := ← s8.required? Json.asString?
        impact := ← s9.required? Json.asString?
        detectedBy := Ordered.strings (← s10.required? (Json.asList? Json.asString?))
        consensus := ← s11.orDefault? 0.0 Json.asFloat?
        finalConfidence := ← s12.orDefault? 0.0 Json.asFloat? }
  | _ => none

end Finding

end AuditPanel
