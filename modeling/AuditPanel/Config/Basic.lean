import AuditPanel.Audit.Settings
import AuditPanel.Chain.Basic
import AuditPanel.Config.Credential
import AuditPanel.Decimal.Layout
import AuditPanel.Failure
import AuditPanel.Yaml.Value

/-!
The configuration file: its sections, the checks on them and the engine settings that they stand
for.
-/

set_option autoImplicit false

namespace AuditPanel

open Consensus (ScoringRules Penalties Thresholds)

/-- Which language model answers for the reviewers. -/
structure BackendSection where
  provider : Option String
  model : Option String
  apiKey : Option String
  baseUrl : Option String
  deriving Repr, DecidableEq, Inhabited

/-- Limits of the engine. Times are in the units that the keys of the file name. -/
structure AnalysisSection where
  maxSourceBytes : Option Nat
  globalTimeoutSecs : Option Nat
  fastTimeoutMs : Option Nat
  deepTimeoutSecs : Option Nat
  maxConcurrentAgents : Option Nat
  maxPromptSourceChars : Option Nat
  maxRetries : Option Nat
  cacheTtlSecs : Option Nat
  promptsDir : Option String
  deriving Repr, DecidableEq, Inhabited

/-- How findings and reports are scored. -/
structure ScoringSection where
  minConfidence : Option Float
  penalties : Option Penalties
  thresholds : Option Thresholds
  weights : Option (List (String × Float))
  deriving Inhabited

/-- Where the server listens. -/
structure ServerSection where
  host : Option String
  port : Option Nat
  deriving Repr, DecidableEq, Inhabited

/-- Where reports are kept. -/
structure StorageSection where
  database : Option String
  auditLog : Option String
  deriving Repr, DecidableEq, Inhabited

/-- A configuration. Chains stand in the order of their names. -/
structure Config where
  llm : Option BackendSection
  analysis : Option AnalysisSection
  scoring : Option ScoringSection
  chains : Option (List (String × ChainEndpoint))
  server : Option ServerSection
  storage : Option StorageSection
  deriving Inhabited

namespace Config

def empty : Config :=
  ⟨none, none, none, none, none, none⟩

/-- A natural number of 64 bits. -/
def nat? (v : Yaml) : Option Nat :=
  v.asNatBelow? (1 <<< 64)

def backendOf? (v : Yaml) : Option BackendSection := do
  let r ← v.asRecord?
  some
    { provider := ← Yaml.optional? r "provider" Yaml.asString?
      model := ← Yaml.optional? r "model" Yaml.asString?
      apiKey := ← Yaml.optional? r "api_key" Yaml.asString?
      baseUrl := ← Yaml.optional? r "base_url" Yaml.asString? }

def analysisOf? (v : Yaml) : Option AnalysisSection := do
  let r ← v.asRecord?
  some
    { maxSourceBytes := ← Yaml.optional? r "max_source_bytes" nat?
      globalTimeoutSecs := ← Yaml.optional? r "global_timeout_secs" nat?
      fastTimeoutMs := ← Yaml.optional? r "fast_agent_timeout_ms" nat?
      deepTimeoutSecs := ← Yaml.optional? r "deep_agent_timeout_secs" nat?
      maxConcurrentAgents := ← Yaml.optional? r "max_concurrent_agents" nat?
      maxPromptSourceChars := ← Yaml.optional? r "max_prompt_source_chars" nat?
      maxRetries := ← Yaml.optional? r "max_retries" (Yaml.asNatBelow? (1 <<< 32))
      cacheTtlSecs := ← Yaml.optional? r "cache_ttl_secs" nat?
      promptsDir := ← Yaml.optional? r "prompts_dir" Yaml.asString? }

def penaltiesOf? (v : Yaml) : Option Penalties := do
  let r ← v.asRecord?
  some
    { critical := ← Yaml.required? r "critical" Yaml.asFloat?
      high := ← Yaml.required? r "high" Yaml.asFloat?
      medium := ← Yaml.required? r "medium" Yaml.asFloat?
      low := ← Yaml.required? r "low" Yaml.asFloat? }

def thresholdsOf? (v : Yaml) : Option Thresholds := do
  let r ← v.asRecord?
  some
    { low := ← Yaml.required? r "low" Yaml.asFloat?
      medium := ← Yaml.required? r "medium" Yaml.asFloat?
      high := ← Yaml.required? r "high" Yaml.asFloat? }

/-- Named values in the order of their names, each read by `f`. -/
def table? {α : Type} (f : Yaml → Option α) (v : Yaml) : Option (List (String × α)) := do
  let r ← v.asRecord?
  let entries ← r.mapM fun (name, v) => (f v).map fun a => (name, a)
  some (entries.mergeSort fun a b => a.1 ≤ b.1)

def scoringOf? (v : Yaml) : Option ScoringSection := do
  let r ← v.asRecord?
  some
    { minConfidence := ← Yaml.optional? r "min_confidence" Yaml.asFloat?
      penalties := ← Yaml.optional? r "penalties" penaltiesOf?
      thresholds := ← Yaml.optional? r "thresholds" thresholdsOf?
      weights := ← Yaml.optional? r "agent_weights" (table? Yaml.asFloat?) }

def serverOf? (v : Yaml) : Option ServerSection := do
  let r ← v.asRecord?
  some
    { host := ← Yaml.optional? r "host" Yaml.asString?
      port := ← Yaml.optional? r "port" (Yaml.asNatBelow? (1 <<< 16)) }

def storageOf? (v : Yaml) : Option StorageSection := do
  let r ← v.asRecord?
  some
    { database := ← Yaml.optional? r "database" Yaml.asString?
      auditLog := ← Yaml.optional? r "audit_log" Yaml.asString? }

/-- The configuration that a value describes; unknown entries are passed over. -/
def ofYaml? (v : Yaml) : Option Config := do
  let r ← v.asRecord?
  some
    { llm := ← Yaml.optional? r "llm" backendOf?
      analysis := ← Yaml.optional? r "analysis" analysisOf?
      scoring := ← Yaml.optional? r "scoring" scoringOf?
      chains := ← Yaml.optional? r "chains" (table? ChainEndpoint.ofYaml?)
      server := ← Yaml.optional? r "server" serverOf?
      storage := ← Yaml.optional? r "storage" storageOf? }

def failure (detail : String) : Failure :=
  ⟨.config, detail⟩

def refuseIf (condition : Bool) (detail : String) : Except Failure Unit :=
  if condition then .error (failure detail) else .ok ()

/-- The checks on the limits of the engine, the first violated one reported. -/
def checkAnalysis (a : AnalysisSection) : Except Failure Unit := do
  refuseIf (a.globalTimeoutSecs == some 0) "analysis.global_timeout_secs must be positive"
  refuseIf (a.fastTimeoutMs == some 0) "analysis.fast_agent_timeout_ms must be positive"
  refuseIf (a.deepTimeoutSecs == some 0) "analysis.deep_agent_timeout_secs must be positive"
  refuseIf (a.maxConcurrentAgents == some 0) "analysis.max_concurrent_agents must be at least 1"
  refuseIf (a.maxSourceBytes == some 0) "analysis.max_source_bytes must be positive"

def bandsMessage (t : Thresholds) : String :=
  "scoring.thresholds must be strictly descending within [0, 100] (low " ++
    Decimal.textLayout.render t.low
    ++ " > medium " ++ Decimal.textLayout.render t.medium ++ " > high " ++
      Decimal.textLayout.render t.high ++ ")"

def hasNegative (p : Penalties) : Bool :=
  [p.critical, p.high, p.medium, p.low].any fun x => x < 0.0

/-- The checks on the weights of reviewers, in the order of their names. -/
def checkWeights : List (String × Float) → Except Failure Unit
  | [] => .ok ()
  | (name, w) :: rest => do
    refuseIf (w < 0.0) ("scoring.agent_weights." ++ name ++ " must be non-negative")
    checkWeights rest

/-- The checks on scoring, the first violated one reported. -/
def checkScoring (s : ScoringSection) : Except Failure Unit := do
  match s.thresholds with
  | some t => refuseIf (!t.isDescending) (bandsMessage t)
  | none => .ok ()
  match s.penalties with
  | some p => refuseIf (hasNegative p) "scoring.penalties must be non-negative"
  | none => .ok ()
  match s.minConfidence with
  | some m => refuseIf (!(0.0 ≤ m && m ≤ 1.0)) "scoring.min_confidence must be within [0, 1]"
  | none => .ok ()
  checkWeights (s.weights.getD [])

def check (c : Config) : Except Failure Unit := do
  match c.analysis with
  | some a => checkAnalysis a
  | none => .ok ()
  match c.scoring with
  | some s => checkScoring s
  | none => .ok ()

def setWeight (weights : List (Reviewer × Float)) (r : Reviewer) (w : Float) :
    List (Reviewer × Float) :=
  weights.map fun m => if m.1 = r then (r, w) else m

/-- Configured weights put in the place of the usual ones; names that mean no reviewer are
refused. -/
def applyWeights :
    List (Reviewer × Float) → List (String × Float) → Except Failure (List (Reviewer × Float))
  | weights, [] => .ok weights
  | weights, (name, w) :: rest =>
    match Reviewer.parse? name with
    | some r => applyWeights (setWeight weights r w) rest
    | none => .error (failure ("Unknown agent type in scoring.agent_weights: " ++ name))

def scoringRules (s : ScoringSection) : Except Failure ScoringRules :=
  let usual := ScoringRules.standard
  (applyWeights usual.weights (s.weights.getD [])).map fun weights =>
    { minConfidence := s.minConfidence.getD usual.minConfidence
      penalties := s.penalties.getD usual.penalties
      thresholds := s.thresholds.getD usual.thresholds
      weights := weights }

/-- The settings with the limits of a section in the place of the usual ones. A lifetime of zero
switches the cache off. -/
def applyAnalysis (s : Settings) (a : AnalysisSection) : Settings :=
  { s with
    maxSourceBytes := a.maxSourceBytes.getD s.maxSourceBytes
    globalTimeout := (a.globalTimeoutSecs.map (1000 * ·)).getD s.globalTimeout
    fastTimeout := a.fastTimeoutMs.getD s.fastTimeout
    deepTimeout := (a.deepTimeoutSecs.map (1000 * ·)).orElse fun _ => s.deepTimeout
    maxConcurrentAgents := a.maxConcurrentAgents.getD s.maxConcurrentAgents
    maxPromptSourceChars := a.maxPromptSourceChars.getD s.maxPromptSourceChars
    maxRetries := a.maxRetries.getD s.maxRetries
    cacheTtl := match a.cacheTtlSecs with
      | none => s.cacheTtl
      | some 0 => none
      | some n => some (1000 * n)
    promptsDir := a.promptsDir.orElse fun _ => s.promptsDir }

def settings (c : Config) : Except Failure Settings :=
  let limits := match c.analysis with
    | some a => applyAnalysis .standard a
    | none => .standard
  match c.scoring with
  | none => .ok limits
  | some s => (scoringRules s).map fun rules => { limits with scoring := rules }

/-- The chains by their names in lower case for ASCII letters, with the keys of explorers resolved.
Of names that differ only in case the last in the order of names wins. -/
def chainEndpoints (c : Config) (env : Environment) : List (String × ChainEndpoint) :=
  let named := (c.chains.getD []).map fun (name, e) =>
    (String.ofList (Text.toAsciiLower name.toList),
      { e with explorerKey := e.explorerKey.map (resolveCredential env) })
  (Ordered.strings (named.map (·.1))).filterMap fun name => named.reverse.find? (·.1 = name)

def backendJson (s : BackendSection) : Json :=
  .ofMembers [("provider", .option .string s.provider), ("model", .option .string s.model),
    ("api_key", .option .string s.apiKey), ("base_url", .option .string s.baseUrl)]

def serverJson (s : ServerSection) : Json :=
  .ofMembers [("host", .option .string s.host), ("port", .option .nat s.port)]

def storageJson (s : StorageSection) : Json :=
  .ofMembers [("database", .option .string s.database), ("audit_log", .option .string s.auditLog)]

end Config

end AuditPanel
