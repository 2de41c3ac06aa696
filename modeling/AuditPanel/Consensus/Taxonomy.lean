import AuditPanel.Text.Letters
import AuditPanel.Text.LowerCase
import AuditPanel.Text.Search

/-!
The taxonomy of findings: canonical categories, their weights, and the spellings that reviewers use
for them.
-/

set_option autoImplicit false

namespace AuditPanel.Taxonomy

open AuditPanel.Text

/-- The category of a finding that names none. -/
def defaultCategory : String := "other"

/-- The canonical categories and the weight of each in consensus scores. -/
def categoryWeights : List (String × Float) := [
  ("reentrancy", 1.5), ("access-control", 1.4), ("delegatecall", 1.4), ("selfdestruct", 1.4),
  ("oracle-manipulation", 1.3), ("flash-loan", 1.3), ("integer-overflow", 1.2),
  ("unchecked-call", 1.2), ("tx-origin", 1.2), ("cross-chain", 1.2), ("front-running", 1.1),
  ("economic", 1.1), ("denial-of-service", 1.1), ("logic-error", 1.0), ("other", 1.0),
  ("timestamp-dependence", 0.9), ("code-quality", 0.7), ("gas-optimization", 0.6)]

/-- Other spellings and the canonical category that each means. -/
def aliases : List (String × String) := [
  ("re-entrancy", "reentrancy"), ("reentrant", "reentrancy"), ("reentrancy-guard", "reentrancy"),
  ("overflow", "integer-overflow"), ("underflow", "integer-overflow"),
  ("integer-underflow", "integer-overflow"), ("arithmetic", "integer-overflow"),
  ("integer-overflow-underflow", "integer-overflow"), ("access", "access-control"),
  ("authorization", "access-control"), ("missing-access-control", "access-control"),
  ("privilege-escalation", "access-control"), ("unchecked-return", "unchecked-call"),
  ("unchecked-return-value", "unchecked-call"), ("unchecked-external-call", "unchecked-call"),
  ("unchecked-low-level-call", "unchecked-call"), ("unchecked-send", "unchecked-call"),
  ("timestamp", "timestamp-dependence"), ("block-timestamp", "timestamp-dependence"),
  ("timestamp-manipulation", "timestamp-dependence"), ("txorigin", "tx-origin"),
  ("tx-origin-authentication", "tx-origin"), ("delegate-call", "delegatecall"),
  ("unsafe-delegatecall", "delegatecall"), ("self-destruct", "selfdestruct"),
  ("suicide", "selfdestruct"), ("oracle", "oracle-manipulation"),
  ("price-manipulation", "oracle-manipulation"), ("price-oracle", "oracle-manipulation"),
  ("flashloan", "flash-loan"), ("flash-loans", "flash-loan"), ("mev", "front-running"),
  ("frontrunning", "front-running"), ("front-run", "front-running"), ("sandwich", "front-running"),
  ("transaction-ordering", "front-running"), ("transaction-order-dependence", "front-running"),
  ("bridge", "cross-chain"), ("crosschain", "cross-chain"), ("economics", "economic"),
  ("tokenomics", "economic"), ("economic-exploit", "economic"), ("dos", "denial-of-service"),
  ("gas-griefing", "denial-of-service"), ("unbounded-loop", "denial-of-service"),
  ("logic", "logic-error"), ("business-logic", "logic-error"), ("quality", "code-quality"),
  ("best-practice", "code-quality"), ("best-practices", "code-quality"),
  ("gas", "gas-optimization"), ("gas-optimisation", "gas-optimization")]

/-- Endings that say nothing about the category. -/
def noiseEndings : List String :=
  ["-attack", "-vulnerability", "-vulnerabilities", "-issue", "-issues", "-risk", "-bug"]

/-- The slug of the rest of a text, where `gap` says that a separator is due before the next letter,
onto the reversed slug so far. -/
def slugFrom (gap : Bool) (out : List Char) : List Char → List Char
  | [] => out.reverse
  | c :: rest =>
    if isAlphanumeric c then
      let out := if gap && !out.isEmpty then '-' :: out else out
      slugFrom false ((lowerChar c).reverse ++ out) rest
    else slugFrom true out rest

/-- The letters and digits of a text in lower case with one dash for each run of other characters
between them. -/
def slugify (raw : List Char) : List Char :=
  slugFrom false [] (trim raw)

def resolve? (slug : String) : Option String :=
  match categoryWeights.find? (·.1 = slug) with
  | some (category, _) => some category
  | none => (aliases.find? (·.1 = slug)).map (·.2)

def withoutEnding? (ending : String) (s : String) : Option String :=
  (ending.toList.reverse.isPrefixOf? s.toList.reverse).map fun stem => String.ofList stem.reverse

/-- The canonical category of a free-form one. An unknown category is its slug, and an empty one the
default. -/
def canonicalize (raw : String) : String :=
  let slug := String.ofList (slugify raw.toList)
  if slug.isEmpty then defaultCategory
  else
    match resolve? slug with
    | some category => category
    | none =>
      (noiseEndings.findSome? fun ending => (withoutEnding? ending slug).bind resolve?).getD slug

/-- The weight of a category, one for those that are not canonical. -/
def weight (category : String) : Float :=
  match categoryWeights.find? (·.1 = category) with
  | some (_, w) => w
  | none => 1.0

end AuditPanel.Taxonomy
