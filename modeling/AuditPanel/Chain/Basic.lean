import AuditPanel.Json.Decode
import AuditPanel.Yaml.Value

/-!
Deployed contracts: where a chain is reached, what is fetched from it and how addresses look.
-/

set_option autoImplicit false

namespace AuditPanel

/-- Where one chain is reached: its node and, where there is one, its explorer with a key. -/
structure ChainEndpoint where
  rpcUrl : String
  explorerUrl : Option String
  explorerKey : Option String
  deriving Repr, DecidableEq, Inhabited

namespace ChainEndpoint

def ofYaml? (v : Yaml) : Option ChainEndpoint := do
  let r ← v.asRecord?
  some
    { rpcUrl := ← Yaml.required? r "rpc_url" Yaml.asString?
      explorerUrl := ← Yaml.optional? r "explorer_api_url" Yaml.asString?
      explorerKey := ← Yaml.optional? r "explorer_api_key" Yaml.asString? }

def ofJson? (v : Json) : Option ChainEndpoint := do
  match ← v.slots? ["rpc_url", "explorer_api_url", "explorer_api_key"] with
  | [s1, s2, s3] =>
    some
      { rpcUrl := ← s1.required? Json.asString?
        explorerUrl := ← s2.orDefault? none (Json.asOption? Json.asString?)
        explorerKey := ← s3.orDefault? none (Json.asOption? Json.asString?) }
  | _ => none

def toJson (e : ChainEndpoint) : Json :=
  .ofMembers [("rpc_url", .string e.rpcUrl), ("explorer_api_url", .option .string e.explorerUrl),
    ("explorer_api_key", .option .string e.explorerKey)]

end ChainEndpoint

/-- The state of a deployed contract that an audit needs. -/
structure FetchedContract where
  source : Option String
  bytecode : String
  balance : String
  txCount : Nat
  deriving Repr, DecidableEq, Inhabited

namespace FetchedContract

def toJson (c : FetchedContract) : Json :=
  .ofMembers [("source", .option .string c.source), ("bytecode", .string c.bytecode),
    ("balance", .string c.balance), ("txCount", .nat c.txCount)]

def ofJson? (v : Json) : Option FetchedContract := do
  match ← v.slots? ["source", "bytecode", "balance", "txCount"] with
  | [s1, s2, s3, s4] =>
    some
      { source := ← s1.optional? Json.asString?
        bytecode := ← s2.required? Json.asString?
        balance := ← s3.required? Json.asString?
        txCount := ← s4.required? Json.asNat? }
  | _ => none

end FetchedContract

def isHexDigit (c : Char) : Bool :=
  c.isDigit || ('a' ≤ c && c ≤ 'f') || ('A' ≤ c && c ≤ 'F')

/-- Whether a text is an address: `0x` and exactly 40 hexadecimal digits. -/
def isValidAddress (address : String) : Bool :=
  match address.toList with
  | '0' :: x :: digits => (x == 'x' || x == 'X') && digits.length == 40 && digits.all isHexDigit
  | _ => false

end AuditPanel
