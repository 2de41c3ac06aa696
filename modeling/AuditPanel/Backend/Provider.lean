import AuditPanel.Config.Basic
import AuditPanel.Text.Lines

/-!
Providers of language models: which ones there are, what each needs and what it uses where nothing
is asked for.
-/

set_option autoImplicit false

namespace AuditPanel.Backend

/-- The services that a provider can stand for. -/
inductive Service where
  | anthropic
  | openai
  | selfHosted
  deriving Repr, DecidableEq, Inhabited

namespace Service

def name : Service → String
  | .anthropic => "anthropic"
  | .openai => "openai"
  | .selfHosted => "local"

def title : Service → String
  | .anthropic => "Anthropic"
  | .openai => "OpenAI"
  | .selfHosted => "local LLM"

/-- The model that is used where none is asked for. -/
def usualModel : Service → String
  | .anthropic => "claude-sonnet-4-5-20250929"
  | .openai => "gpt-4o"
  | .selfHosted => "qwen2.5-coder:7b"

/-- The address that is used where none is given. -/
def usualUrl : Service → String
  | .anthropic => "https://api.anthropic.com"
  | .openai => "https://api.openai.com/v1"
  | .selfHosted => "http://localhost:11434/v1"

end Service

/-- A provider that can be asked. A key that there is goes with every request. -/
structure Provider where
  service : Service
  key : Option String
  model : String
  url : String
  deriving Repr, DecidableEq, Inhabited

def keyVariable? : String → Option String
  | "anthropic" => some "ANTHROPIC_API_KEY"
  | "openai" => some "OPENAI_API_KEY"
  | "openai_compatible" => some "OPENAI_API_KEY"
  | _ => none

/-- The provider that is used where none is asked for. -/
def usualName : String := "anthropic"

def failure (detail : String) : Failure :=
  ⟨.config, detail⟩

def missingKey (name : String) : Failure :=
  failure
    ("No API key for provider '" ++ name ++ "'; set " ++
      (keyVariable? name).getD "the provider's API key"
    ++ " or llm.api_key")

def withoutSlashes (url : String) : String :=
  String.ofList (url.toList.reverse.dropWhile (· == '/')).reverse

/-- The provider of a service with a key, a model and an address, each usual one in the place of a
missing one. -/
def Provider.of (s : Service) (key model url : Option String) : Provider :=
  ⟨s, key, model.getD s.usualModel, withoutSlashes (url.getD s.usualUrl)⟩

def isBlank (s : String) : Bool :=
  Text.isAllBlank s.toList

/-- The key of a self-hosted service: what is left of a text without white space around it, if
anything is. -/
def optionalKey (key : String) : Option String :=
  if isBlank key then none else some (String.ofList (Text.trim key.toList))

/-- The provider of a name. All but self-hosted ones need a key. -/
def Provider.named (name key : String) (model url : Option String) : Except Failure Provider :=
  if name == "local" then .ok (.of .selfHosted (optionalKey key) model url)
  else if isBlank key then .error (missingKey name)
  else if name == "anthropic" then .ok (.of .anthropic (some key) model url)
  else if name == "openai" then .ok (.of .openai (some key) model none)
  else if name == "openai_compatible" then
    match url with
    | some url => .ok (.of .openai (some key) model (some url))
    | none => .error (failure "openai_compatible provider requires llm.base_url")
  else .error (failure ("Unknown LLM provider: " ++ name))

/-- The provider of a configuration; what is asked for on top of it comes first. -/
def Provider.configured (env : Config.Environment) (base asked : BackendSection) :
    Except Failure Provider :=
  let name := (asked.provider.orElse fun _ => base.provider).getD usualName
  let key := asked.apiKey.orElse fun _ => base.apiKey
  Provider.named name ((Config.resolveKey env key (keyVariable? name)).getD "")
    (asked.model.orElse fun _ => base.model) (asked.baseUrl.orElse fun _ => base.baseUrl)

end AuditPanel.Backend
