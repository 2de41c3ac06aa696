import AuditPanel.Finding.Basic
import AuditPanel.Prompt.Brief
import AuditPanel.Prompt.Builtin
import AuditPanel.Prompt.Library
import AuditPanel.Prompt.Template
import AuditPanel.Report.ContractInfo
import AuditPanel.Text.Truncation

/-!
The prompt of a reviewer: its framing, and its template filled with the contract and what is known
about it.
-/

set_option autoImplicit false

namespace AuditPanel.Prompt

/-- What a prompt tells about a contract. -/
structure Context where
  source : String
  contractInfo : ContractInfo
  staticFindings : List Finding
  chain : Option String
  analysisMode : String
  deriving Inhabited

/-- Where templates come from and how much of a source they show. Without a directory only the
built-in ones count. -/
structure Book where
  files : Option Directory
  maxSourceChars : Nat
  deriving Repr, DecidableEq, Inhabited

def describeContract (c : ContractInfo) : String :=
  let contracts := if c.contracts.isEmpty then "none detected" else ", ".intercalate c.contracts
  "\n".intercalate [
    "Contracts: " ++ contracts,
    s!"Functions: {c.functionCount} ({c.payableFunctionCount} payable)",
    s!"Modifiers: {c.modifierCount}",
    s!"Events: {c.eventCount}",
    s!"State variables: {c.stateVariableCount}",
    s!"Cyclomatic complexity: {c.complexity}",
    s!"Lines of code: {c.linesOfCode}"]

def describeFinding (f : Finding) : String :=
  "- [" ++ f.severity.name ++ "] " ++ f.name ++ " (" ++ f.category ++ ") at line(s) "
    ++ ", ".intercalate (f.affectedLines.map toString)

def describeFindings (findings : List Finding) : String :=
  if findings.isEmpty then "No pattern matches."
    else "\n".intercalate (findings.map describeFinding)

def Book.variables (b : Book) (brief : Brief) (c : Context) : Variables :=
  { agentName := brief.displayName
    contractName := c.contractInfo.name
    analysisMode := c.analysisMode
    chain := some (c.chain.getD "unspecified")
    contractMetadata := some (describeContract c.contractInfo)
    staticFindings := some (describeFindings c.staticFindings)
    focusAreas := some ("\n".intercalate (brief.focus.map ("- " ++ ·)))
    sourceCode := String.ofList (Text.truncateSource c.source.toList b.maxSourceChars)
    responseFormat := responseFormat }

/-- The template of a reviewer: the one of the directory if it is there, or the built-in one. -/
def Book.template (b : Book) (brief : Brief) : Except Failure (List Char) :=
  match b.files with
  | none => .ok (builtinTemplate brief.reviewer).toList
  | some files =>
    let name := brief.promptFile.toList
    if hasPrompt files name then load files name else .ok (builtinTemplate brief.reviewer).toList

/-- A prompt: the framing of the reviewer and the request. -/
structure Pair where
  system : String
  user : String
  deriving Repr, DecidableEq, Inhabited

def Book.render (b : Book) (r : Reviewer) (c : Context) : Except Failure Pair :=
  let brief := briefOf r
  (b.template brief).map fun template =>
    ⟨brief.systemPrompt, String.ofList (interpolate template (b.variables brief c))⟩

end AuditPanel.Prompt
