import AuditPanel.Chain.Basic
import AuditPanel.Chain.Explorer
import AuditPanel.Failure
import AuditPanel.Http.Exchange
import AuditPanel.Text.LowerCase

/-!
Fetching deployed contracts: code and account from the node of a chain, and the verified source from
its explorer where there is one.
-/

set_option autoImplicit false

namespace AuditPanel.ChainEndpoint

open Http (Call Answer Transport)

/-- The value of digits to the radix of sixteen, with a plus sign in front or without; none without
digits. -/
def hexDigits? (s : List Char) : Option Nat :=
  let digits := match s with
    | '+' :: rest => rest
    | rest => rest
  if digits.isEmpty then none
    else digits.foldlM (fun n c => (Json.hexValue? c).map fun d => 16 * n + d) 0

/-- The natural number of 128 bits that a node writes as a quantity. A mark without digits is
zero. -/
def quantity? (v : Json) : Option Nat :=
  v.asString?.bind fun s =>
    let digits := match s.toList with
      | '0' :: 'x' :: rest => rest
      | rest => rest
    if digits.isEmpty then some 0 else (hexDigits? digits).filter (· < 1 <<< 128)

def failure (detail : String) : Failure :=
  ⟨.fetch, detail⟩

/-- The call of a method of a node about the latest state of an address. -/
def nodeCall (e : ChainEndpoint) (method address : String) : Call :=
  .post e.rpcUrl [] <|
    .ofMembers [("jsonrpc", .string "2.0"), ("id", .nat 1), ("method", .string method),
      ("params", .strings [address, "latest"])]

def errorMessage (error : Json) : String :=
  ((error.get? "message").bind Json.asString?).getD "unknown"

def resultOf (method : String) (a : Answer) : Except Failure Json :=
  if a.status == 429 then .error ⟨.rateLimit, "RPC rate limit on " ++ method⟩
  else if !Http.isSuccess a.status then
    .error (failure ("RPC " ++ method ++ " returned HTTP " ++ Http.statusText a.status))
  else
    match a.value? with
    | none => .error (failure ("Invalid RPC response for " ++ method))
    | some v =>
      match v.get? "error", v.get? "result" with
      | some error, _ => .error (failure ("RPC " ++ method ++ " error: " ++ errorMessage error))
      | none, some result => .ok result
      | none, none => .error (failure ("RPC " ++ method ++ " returned no result"))

def ask (e : ChainEndpoint) (t : Transport) (method address : String) : Except Failure Json :=
  match t (nodeCall e method address) with
  | .error reason => .error ⟨.network, "RPC request " ++ method ++ " failed: " ++ reason⟩
  | .ok a => resultOf method a

def sourceCall (url : String) (key : Option String) (address : String) : Call :=
  .get url ([("module", "contract"), ("action", "getsourcecode"), ("address", address)]
    ++ key.toList.map fun k => ("apikey", k))

def sourceText (reply : Json) : String :=
  let first := match reply.get? "result" with
    | some (.array (v :: _)) => v
    | _ => .null
  ((first.get? "SourceCode").bind Json.asString?).getD ""

/-- The verified source of an address. An explorer that fails has none. -/
def verifiedSource? (e : ChainEndpoint) (t : Transport) (address : String) : Option String := do
  let url ← e.explorerUrl
  match t (sourceCall url e.explorerKey address) with
  | .error _ => none
  | .ok a => Explorer.source? (sourceText (← a.value?)).toList

def fetch (e : ChainEndpoint) (t : Transport) (address : String) :
    Except Failure FetchedContract := do
  let code ← e.ask t "eth_getCode" address
  let balance ← e.ask t "eth_getBalance" address
  let count ← e.ask t "eth_getTransactionCount" address
  .ok
    { source := e.verifiedSource? t address
      bytecode := code.asString?.getD "0x"
      balance := toString ((quantity? balance).getD 0)
      txCount := ((quantity? count).filter (· < 1 <<< 64)).getD 0 }

end AuditPanel.ChainEndpoint

namespace AuditPanel

/-- The fetcher for chains by their names in lower case: a chain is looked up in lower case for
ASCII letters. -/
def chainFetcher (chains : List (String × ChainEndpoint)) (t : Http.Transport)
    (address chain : String) :
    Except Failure FetchedContract :=
  match chains.find? fun c => c.1.toList = Text.toAsciiLower chain.toList with
  | some (_, e) => e.fetch t address
  | none => .error ⟨.invalidInput, "No RPC endpoint configured for chain '" ++ chain ++ "'"⟩

end AuditPanel
