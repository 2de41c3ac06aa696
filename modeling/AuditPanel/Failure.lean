/-!
Failures: what went wrong, in words, under one of a fixed set of kinds. The kind decides whether a
repeated attempt may help, whether the caller is to blame and how a command exits.
-/

set_option autoImplicit false

namespace AuditPanel

/-- The kinds of failure. -/
inductive FailureKind where
  | invalidInput
  | parse
  | agentTask
  | noSuccessfulAnalysis
  | persistence
  | config
  | backend
  | rateLimit
  | billing
  | network
  | timeout
  | authentication
  | fetch
  | database
  | internal
  | io
  | json
  | yaml
  deriving Repr, DecidableEq, Inhabited

namespace FailureKind

def all : List FailureKind :=
  [.invalidInput, .parse, .agentTask, .noSuccessfulAnalysis, .persistence, .config, .backend,
    .rateLimit, .billing, .network, .timeout, .authentication, .fetch, .database, .internal, .io,
    .json, .yaml]

def label : FailureKind → String
  | .invalidInput => "invalid_input"
  | .parse => "parse"
  | .agentTask => "agent_task"
  | .noSuccessfulAnalysis => "no_successful_analysis"
  | .persistence => "persistence"
  | .config => "config"
  | .backend => "llm_api"
  | .rateLimit => "rate_limit"
  | .billing => "billing"
  | .network => "network"
  | .timeout => "timeout"
  | .authentication => "authentication"
  | .fetch => "fetch"
  | .database => "database"
  | .internal => "internal"
  | .io => "io"
  | .json => "json"
  | .yaml => "yaml"

def heading : FailureKind → String
  | .invalidInput => "Invalid input"
  | .parse => "Parse error"
  | .agentTask => "Agent task failed"
  | .noSuccessfulAnalysis => "No successful analysis"
  | .persistence => "Persistence error"
  | .config => "Configuration error"
  | .backend => "LLM API error"
  | .rateLimit => "Rate limited"
  | .billing => "Billing/quota error"
  | .network => "Network error"
  | .timeout => "Timeout"
  | .authentication => "Authentication error"
  | .fetch => "Fetch error"
  | .database => "Database error"
  | .internal => "Internal error"
  | .io => "IO error"
  | .json => "JSON error"
  | .yaml => "YAML error"

def ofLabel? (s : String) : Option FailureKind :=
  all.find? (·.label = s)

/-- Whether a repeated attempt may succeed: backend, transport and storage conditions pass, while
faults of the caller, the configuration or the quota stay. -/
def isRetryable : FailureKind → Bool
  | .rateLimit => true
  | .network => true
  | .timeout => true
  | .backend => true
  | .fetch => true
  | .persistence => true
  | .database => true
  | .io => true
  | _ => false

def isCallerFault : FailureKind → Bool
  | .invalidInput => true
  | .parse => true
  | _ => false

/-- The exit status of a command that ends with a failure of the kind. -/
def exitCode : FailureKind → Nat
  | .config => 2
  | .invalidInput => 5
  | .noSuccessfulAnalysis => 6
  | _ => 1

end FailureKind

/-- What went wrong. -/
structure Failure where
  kind : FailureKind
  detail : String
  deriving Repr, DecidableEq, Inhabited

namespace Failure

def message (f : Failure) : String :=
  f.kind.heading ++ ": " ++ f.detail

end Failure

/-- How something ends: with a value, with a failure that is told, or broken off by a crash, after
which nothing is told at all. -/
inductive Ending (α : Type) where
  | ok (a : α)
  | error (e : Failure)
  | crashed
  deriving Inhabited

namespace Ending

variable {α β : Type}

def ofExcept : Except Failure α → Ending α
  | .ok a => .ok a
  | .error e => .error e

def map (f : α → β) : Ending α → Ending β
  | .ok a => .ok (f a)
  | .error e => .error e
  | .crashed => .crashed

def toOption : Ending α → Option α
  | .ok a => some a
  | _ => none

end Ending

end AuditPanel
