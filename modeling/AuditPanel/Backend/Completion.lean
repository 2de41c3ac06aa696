import AuditPanel.Backend.Provider
import AuditPanel.Http.Exchange
import AuditPanel.Text.LowerCase
import AuditPanel.Text.Search

/-!
Completions: what a provider is sent for a prompt, and what its answer means.
-/

set_option autoImplicit false

namespace AuditPanel.Backend

open Http (Call Answer Transport)

/-- What a model wrote, and what it used. -/
structure Completion where
  text : String
  inputTokens : Option Nat
  outputTokens : Option Nat
  cost : Option Float
  model : String
  deriving Inhabited

def maxTokens : Nat := 4096

/-- The randomness of a model. It is low so that reviews look alike from run to run. -/
def temperature : Float := 0.2

def roleMessage (role content : String) : Json :=
  .ofMembers [("role", .string role), ("content", .string content)]

def requestMembers (p : Provider) (messages : List Json) : List (String × Json) :=
  [("model", .string p.model), ("max_tokens", .nat maxTokens), ("temperature", .real temperature),
    ("messages", .array messages)]

/-- A request whose framing stands beside the messages. -/
def framedRequest (p : Provider) (prompt : String) (system : Option String) : Json :=
  .ofMembers (requestMembers p [roleMessage "user" prompt] ++ system.toList.map fun s =>
    ("system", .string s))

/-- A request whose framing is the first message. -/
def chatRequest (p : Provider) (prompt : String) (system : Option String) : Json :=
  .ofMembers
    (requestMembers p (system.toList.map (roleMessage "system") ++ [roleMessage "user" prompt]))

def bearer (key : String) : String × String :=
  ("authorization", "Bearer " ++ key)

/-- The version of the interface that Anthropic's service is asked for. -/
def interfaceVersion : String := "2023-06-01"

def Provider.call (p : Provider) (prompt : String) (system : Option String) : Call :=
  match p.service with
  | .anthropic =>
    .post (p.url ++ "/v1/messages")
      [("x-api-key", p.key.getD ""), ("anthropic-version", interfaceVersion)]
      (framedRequest p prompt system)
  | _ =>
    .post (p.url ++ "/chat/completions") (p.key.toList.map bearer) (chatRequest p prompt system)

def member (v : Json) (key : String) : Json :=
  (v.get? key).getD .null

def firstItem : Json → Json
  | .array (v :: _) => v
  | _ => .null

def errorText? (v : Json) : Option String :=
  let e := member v "error"
  (member e "message").asString?.orElse fun _ => e.asString?

def billingWords : List String :=
  ["billing", "quota", "credit"]

def failureOf (message : String) : Failure :=
  let lowered := Text.toLower message.toList
  if billingWords.any fun w => Text.contains w lowered then ⟨.billing, message⟩
    else ⟨.backend, message⟩

/-- The failure that a status and a reply tell of, if any: some statuses alone decide, and a message
about a failure is one under every status. -/
def statusFailure? (title : String) (status : Nat) (reply : Json) : Option Failure :=
  let message := errorText? reply
  if status == 429 then some ⟨.rateLimit, title ++ " rate limit exceeded"⟩
  else if status == 401 || status == 403 then
    some ⟨.authentication, title ++ " rejected the API key"⟩
  else if status == 402 then some ⟨.billing, message.getD (title ++ " quota exhausted")⟩
  else if Http.isSuccess status && message.isNone then none
  else some (failureOf (message.getD (title ++ " returned HTTP " ++ Http.statusText status)))

def noContent (title : String) : Failure :=
  ⟨.backend, "No content in " ++ title ++ " response"⟩

/-- Prices in dollars for a million tokens read and for a million written. -/
def tokenPrices : Float × Float :=
  (3.0, 15.0)

def tokenCost (read written : Nat) : Float :=
  (Float.ofNat read * tokenPrices.1 + Float.ofNat written * tokenPrices.2) / 1000000.0

/-- The completion in a reply of blocks: the texts of all blocks that have one, put together. -/
def blocksCompletion (p : Provider) (reply : Json) : Except Failure Completion :=
  let texts := match member reply "content" with
    | .array blocks => blocks.filterMap fun b => (member b "text").asString?
    | _ => []
  let text := "".intercalate texts
  let usage := member reply "usage"
  let read := (member usage "input_tokens").asNat?
  let written := (member usage "output_tokens").asNat?
  let cost := read.bind fun r => written.map (tokenCost r)
  if text.isEmpty then .error (noContent p.service.title)
    else .ok ⟨text, read, written, cost, p.model⟩

/-- The completion in a reply of choices: the text of the first one. -/
def choicesCompletion (p : Provider) (reply : Json) : Except Failure Completion :=
  let usage := member reply "usage"
  match (member (member (firstItem (member reply "choices")) "message") "content").asString? with
  | none => .error (noContent p.service.title)
  | some text =>
    .ok ⟨text, (member usage "prompt_tokens").asNat?, (member usage "completion_tokens").asNat?,
      none, p.model⟩

/-- The completion in an answer. A text that is no value counts as null. -/
def Provider.completion (p : Provider) (a : Answer) : Except Failure Completion :=
  let reply := a.value?.getD .null
  match statusFailure? p.service.title a.status reply with
  | some failure => .error failure
  | none =>
    match p.service with
    | .anthropic => blocksCompletion p reply
    | _ => choicesCompletion p reply

def Provider.complete (p : Provider) (t : Transport) (prompt : String) (system : Option String) :
    Except Failure Completion :=
  match t (p.call prompt system) with
  | .error reason => .error ⟨.network, p.service.title ++ " request failed: " ++ reason⟩
  | .ok a => p.completion a

end AuditPanel.Backend
