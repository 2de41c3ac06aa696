import AuditPanel.Finding.Basic
import AuditPanel.Source.Braces
import AuditPanel.Source.Rule

/-!
The static scan: the rules tried on every line of a source whose comments and literals are blank.
-/

set_option autoImplicit false

namespace AuditPanel.Source

open AuditPanel.Text

/-- The category whose rule checked arithmetic switches off. -/
def overflowCategory : String := "integer-overflow"

/-- Where the search for unchecked blocks stands: the brace depth, and the depth at which an open
block started. -/
structure BlockState where
  depth : Int
  opened : Option Int
  deriving Repr, DecidableEq

/-- Whether a line belongs to an unchecked block, and the state after it. -/
def BlockState.step (b : BlockState) (line : List Char) : Bool × BlockState :=
  let opened := match b.opened with
    | some d => some d
    | none => if contains "unchecked" line && line.contains '\x7b' then some b.depth else none
  let depth := b.depth + braceDelta line
  let after := opened.bind fun start => if depth ≤ start then none else some start
  (opened.isSome, ⟨depth, after⟩)

/-- For each line whether it belongs to an unchecked block, onto the reversed answers so far. -/
def uncheckedFrom : BlockState → List Bool → List (List Char) → List Bool
  | _, out, [] => out.reverse
  | b, out, line :: rest =>
    let (inside, next) := b.step line
    uncheckedFrom next (inside :: out) rest

/-- For each line of a text whether it belongs to an unchecked block. -/
def uncheckedLines (ls : List (List Char)) : List Bool :=
  uncheckedFrom ⟨0, none⟩ [] ls

def Rule.finding (r : Rule) (confidence : Confidence) (line : Nat) (snippet : List Char) :
    Finding :=
  { name := r.name
    description := r.description
    category := r.category
    severity := r.severity
    confidence := confidence
    affectedLines := [line]
    codeSnippet := String.ofList snippet
    recommendation := r.recommendation
    impact := r.impact
    detectedBy := [staticSource]
    consensus := 0.0
    finalConfidence := 0.0 }

/-- The findings on one line: at most one for each rule, in the order of the table. -/
def lineFindings (applies : Rule → Bool) (number : Nat) (line snippet : List Char) : List Finding :=
  if isAllBlank line then []
  else
    ruleTable.filterMap fun r =>
      if applies r then (r.hit? line).map fun c => r.finding c number snippet else none

/-- The findings of the lines from a number on. Each line comes with whether it lies in an unchecked
block, and the raw lines supply the snippets. -/
def scanFrom (checked : Bool) : Nat → List (List Char) → List Bool → List (List Char) →
    List Finding → List Finding
  | _, _, _, [], out => out.reverse
  | number, raw, inside, line :: rest, out =>
    let applies := fun (r : Rule) =>
      !(r.category == overflowCategory && checked && !inside.headD false)
    let found := lineFindings applies number line (trim (raw.headD line))
    scanFrom checked (number + 1) raw.tail inside.tail rest (found.reverse ++ out)

/-- The findings of a text without comments and literals, whose lines are shown as in `raw`. With
checked arithmetic overflows are looked for in unchecked blocks only. -/
def scan (raw cleaned : List Char) (checked : Bool) : List Finding :=
  let ls := lines cleaned
  scanFrom checked 1 (lines raw) (if checked then uncheckedLines ls else []) ls []

end AuditPanel.Source
