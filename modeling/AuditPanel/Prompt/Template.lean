import AuditPanel.Text.Search
import AuditPanel.Text.Segments

/-!
Prompt templates: names between double braces stand for values. Values are put in as they are and
are not read again.
-/

set_option autoImplicit false

namespace AuditPanel.Prompt

open AuditPanel.Text

/-- The values that a template may name. -/
structure Variables where
  agentName : String
  contractName : String
  analysisMode : String
  chain : Option String
  contractMetadata : Option String
  staticFindings : Option String
  focusAreas : Option String
  sourceCode : String
  responseFormat : String
  deriving Repr, DecidableEq, Inhabited

namespace Variables

/-- The value of a name, if it is one that templates know; optional values are empty when they are
not given. -/
def lookup? (v : Variables) : String → Option String
  | "AGENT_NAME" => some v.agentName
  | "CONTRACT_NAME" => some v.contractName
  | "ANALYSIS_MODE" => some v.analysisMode
  | "SOURCE_CODE" => some v.sourceCode
  | "RESPONSE_FORMAT" => some v.responseFormat
  | "CHAIN" => some (v.chain.getD "")
  | "CONTRACT_METADATA" => some (v.contractMetadata.getD "")
  | "STATIC_FINDINGS" => some (v.staticFindings.getD "")
  | "FOCUS_AREAS" => some (v.focusAreas.getD "")
  | _ => none

end Variables

def isNameChar (c : Char) : Bool :=
  c.isUpper || c == '_'

/-- The name between double braces at the front of a text, and the length of the placeholder. -/
def placeholderAt? (s : List Char) : Option (List Char × Nat) :=
  match s with
  | '\x7b' :: '\x7b' :: rest =>
    let name := rest.takeWhile isNameChar
    match rest.dropWhile isNameChar with
    | '\x7d' :: '\x7d' :: _ => if name.isEmpty then none else some (name, name.length + 4)
    | _ => none
  | _ => none

/-- A template cut into literal text and the names of placeholders. -/
def parts (template : List Char) : List (Segment (List Char)) :=
  segments placeholderAt? template

/-- A piece of a template with the values put in. A name that templates do not know stays as it is
written. -/
def fillPart (v : Variables) : Segment (List Char) → List Char
  | .literal text => text
  | .mark name =>
    match v.lookup? (String.ofList name) with
    | some value => value.toList
    | none => '\x7b' :: '\x7b' :: name ++ ['\x7d', '\x7d']

def interpolate (template : List Char) (v : Variables) : List Char :=
  ((parts template).map (fillPart v)).flatten

end AuditPanel.Prompt
