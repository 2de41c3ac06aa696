import AuditPanel.Json.Decode
import AuditPanel.Source.Declaration
import AuditPanel.Source.Identifiers
import AuditPanel.Source.Blanking

/-!
Features of a contract by which reviewers are chosen: the vocabulary of its identifiers and the
shape of its declarations.
-/

set_option autoImplicit false

namespace AuditPanel.Source

def defiVocabulary : List String :=
  ["swap", "pool", "liquidity", "stake", "staking", "yield", "lending", "borrow", "collateral",
    "vault", "amm", "reward", "farm", "interest", "oracle"]

def bridgeVocabulary : List String :=
  ["bridge", "relay", "crosschain", "layerzero", "lzreceive", "wormhole", "messenger", "ccip",
    "axelar"]

def mevVocabulary : List String :=
  ["flashloan", "flashswap", "frontrun", "sandwich", "mev", "arbitrage"]

/-- The terms of a vocabulary that occur among the words, as they are or with a plural ending. -/
def termsOf (vocabulary words : List String) : List String :=
  vocabulary.filter fun term => words.contains term || words.contains (term ++ "s")

/-- The features of a contract. -/
structure Characteristics where
  isDefi : Bool
  isCrossChain : Bool
  hasMevExposure : Bool
  hasPayableExternal : Bool
  defiTerms : List String
  bridgeTerms : List String
  mevTerms : List String
  contractCount : Nat
  functionCount : Nat
  payableFunctionCount : Nat
  complexity : Nat
  linesOfCode : Nat
  deriving Repr, DecidableEq, Inhabited

namespace Characteristics

def empty : Characteristics :=
  ⟨false, false, false, false, [], [], [], 0, 0, 0, 0, 0⟩

/-- The features of a source with the given declarations and measures. -/
def derive (d : Declarations) (source : List Char) (complexity linesOfCode : Nat) :
    Characteristics :=
  let words := identifierWords (codeOnly source)
  let defi := termsOf defiVocabulary words
  let bridge := termsOf bridgeVocabulary words
  let mev := termsOf mevVocabulary words
  let payableExternal := d.functions.any fun f => f.isPayable && f.isExternal
  { isDefi := !defi.isEmpty
    isCrossChain := !bridge.isEmpty
    hasMevExposure := !mev.isEmpty || payableExternal
    hasPayableExternal := payableExternal
    defiTerms := defi
    bridgeTerms := bridge
    mevTerms := mev
    contractCount := d.contracts.length
    functionCount := d.functions.length
    payableFunctionCount := d.payableFunctions.length
    complexity := complexity
    linesOfCode := linesOfCode }

def toJson (c : Characteristics) : Json :=
  .ofMembers [
    ("isDefi", .bool c.isDefi), ("isCrossChain", .bool c.isCrossChain),
    ("hasMevExposure", .bool c.hasMevExposure), ("hasPayableExternal", .bool c.hasPayableExternal),
    ("defiTerms", .strings c.defiTerms), ("bridgeTerms", .strings c.bridgeTerms),
    ("mevTerms", .strings c.mevTerms), ("contractCount", .nat c.contractCount),
    ("functionCount", .nat c.functionCount), ("payableFunctionCount", .nat c.payableFunctionCount),
    ("complexity", .nat c.complexity), ("linesOfCode", .nat c.linesOfCode)]

def fieldNames : List String :=
  ["isDefi", "isCrossChain", "hasMevExposure", "hasPayableExternal", "defiTerms", "bridgeTerms",
    "mevTerms", "contractCount", "functionCount", "payableFunctionCount", "complexity",
    "linesOfCode"]

def ofJson? (v : Json) : Option Characteristics := do
  match ← v.slots? fieldNames with
  | [s1, s2, s3, s4, s5, s6, s7, s8, s9, s10, s11, s12] =>
    some
      { isDefi := ← s1.required? Json.asBool?
        isCrossChain := ← s2.required? Json.asBool?
        hasMevExposure := ← s3.required? Json.asBool?
        hasPayableExternal := ← s4.required? Json.asBool?
        defiTerms := ← s5.required? (Json.asList? Json.asString?)
        bridgeTerms := ← s6.required? (Json.asList? Json.asString?)
        mevTerms := ← s7.required? (Json.asList? Json.asString?)
        contractCount := ← s8.required? Json.asNat?
        functionCount := ← s9.required? Json.asNat?
        payableFunctionCount := ← s10.required? Json.asNat?
        complexity := ← s11.required? Json.asNat32?
        linesOfCode := ← s12.required? Json.asNat? }
  | _ => none

end Characteristics

end AuditPanel.Source
