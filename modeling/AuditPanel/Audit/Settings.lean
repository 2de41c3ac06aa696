import AuditPanel.Consensus.Scoring

/-!
Settings of the audit engine and options of a single audit.
-/

set_option autoImplicit false

namespace AuditPanel

open Consensus (ScoringRules)

/-- How much time reviewers get. -/
inductive AnalysisMode where
  | fast
  | deep
  deriving Repr, DecidableEq, Inhabited

namespace AnalysisMode

def name : AnalysisMode → String
  | .fast => "fast"
  | .deep => "deep"

/-- The mode that a word means, or the message that it means none. -/
def parse (s : String) : Except String AnalysisMode :=
  match foldWord s with
  | "fast" => .ok .fast
  | "quick" => .ok .fast
  | "deep" => .ok .deep
  | "full" => .ok .deep
  | "comprehensive" => .ok .deep
  | other => .error ("unknown analysis mode '" ++ other ++ "', expected fast or deep")

def ofJson? (v : Json) : Option AnalysisMode :=
  match v.asName? with
  | some "fast" => some .fast
  | some "deep" => some .deep
  | _ => none

def toJson (m : AnalysisMode) : Json :=
  .string m.name

end AnalysisMode

/-- What the caller of an audit asks for. -/
structure AuditOptions where
  chain : Option String
  mode : AnalysisMode
  agents : Option (List String)
  deriving Repr, DecidableEq, Inhabited

namespace AuditOptions

def standard : AuditOptions :=
  ⟨none, .fast, none⟩

def toJson (o : AuditOptions) : Json :=
  .ofMembers [("chain", .option .string o.chain), ("analysisMode", o.mode.toJson),
    ("agents", .option .strings o.agents)]

/-- The options that a record holds; each has a default. -/
def ofJson? (v : Json) : Option AuditOptions := do
  match ← v.slots? ["chain", "analysisMode", "agents"] with
  | [s1, s2, s3] =>
    some
      { chain := ← s1.orDefault? none (Json.asOption? Json.asString?)
        mode := ← s2.orDefault? .fast AnalysisMode.ofJson?
        agents := ← s3.orDefault? none (Json.asOption? (Json.asList? Json.asString?)) }
  | _ => none

end AuditOptions

/-- The settings of the engine. Times are in milliseconds. Without a limit of its own, a deep review
has the time of the whole panel; without a lifetime, nothing is cached. -/
structure Settings where
  maxSourceBytes : Nat
  globalTimeout : Nat
  fastTimeout : Nat
  deepTimeout : Option Nat
  maxConcurrentAgents : Nat
  maxPromptSourceChars : Nat
  maxRetries : Nat
  scoring : ScoringRules
  cacheTtl : Option Nat
  promptsDir : Option String
  deriving Inhabited

namespace Settings

def standard : Settings :=
  { maxSourceBytes := 1024 * 1024
    globalTimeout := 180000
    fastTimeout := 5000
    deepTimeout := none
    maxConcurrentAgents := 4
    maxPromptSourceChars := 30000
    maxRetries := 1
    scoring := .standard
    cacheTtl := some 3600000
    promptsDir := none }

def reviewerTimeout (s : Settings) : AnalysisMode → Nat
  | .fast => s.fastTimeout
  | .deep => s.deepTimeout.getD s.globalTimeout

end Settings

/-- The steps of an audit. -/
inductive AuditStage where
  | validation
  | staticAnalysis
  | agentSelection
  | dispatch
  | aggregation
  | finalization
  deriving Repr, DecidableEq

namespace AuditStage

def all : List AuditStage :=
  [.validation, .staticAnalysis, .agentSelection, .dispatch, .aggregation, .finalization]

def name : AuditStage → String
  | .validation => "validation"
  | .staticAnalysis => "static-analysis"
  | .agentSelection => "agent-selection"
  | .dispatch => "dispatch"
  | .aggregation => "aggregation"
  | .finalization => "finalization"

def ofName? (s : String) : Option AuditStage :=
  all.find? (·.name = s)

end AuditStage

end AuditPanel
