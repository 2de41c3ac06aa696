import AuditPanel.Json.Decode

/-!
The outline of an audited contract that a report shows.
-/

set_option autoImplicit false

namespace AuditPanel

/-- Names and counts of the declarations of a contract, or the size of its code. -/
structure ContractInfo where
  name : String
  contracts : List String
  functionCount : Nat
  modifierCount : Nat
  eventCount : Nat
  stateVariableCount : Nat
  payableFunctionCount : Nat
  complexity : Nat
  linesOfCode : Nat
  bytecodeSize : Option Nat
  deriving Repr, DecidableEq, Inhabited

namespace ContractInfo

def empty : ContractInfo :=
  ⟨"", [], 0, 0, 0, 0, 0, 0, 0, none⟩

/-- The members of the record in the order of its fields. The size of the code is left out when
there is none. -/
def members (c : ContractInfo) : List (String × Json) :=
  [("name", .string c.name), ("contracts", .strings c.contracts),
    ("functionCount", .nat c.functionCount),
    ("modifierCount", .nat c.modifierCount), ("eventCount", .nat c.eventCount),
    ("stateVariableCount", .nat c.stateVariableCount),
    ("payableFunctionCount", .nat c.payableFunctionCount), ("complexity", .nat c.complexity),
    ("linesOfCode", .nat c.linesOfCode)]
    ++ c.bytecodeSize.toList.map fun n => ("bytecodeSize", .nat n)

def toJson (c : ContractInfo) : Json :=
  .ofMembers c.members

def fieldNames : List String :=
  ["name", "contracts", "functionCount", "modifierCount", "eventCount", "stateVariableCount",
    "payableFunctionCount", "complexity", "linesOfCode", "bytecodeSize"]

def ofJson? (v : Json) : Option ContractInfo := do
  match ← v.slots? fieldNames with
  | [s1, s2, s3, s4, s5, s6, s7, s8, s9, s10] =>
    some
      { name := ← s1.required? Json.asString?
        contracts := ← s2.required? (Json.asList? Json.asString?)
        functionCount := ← s3.required? Json.asNat?
        modifierCount := ← s4.required? Json.asNat?
        eventCount := ← s5.required? Json.asNat?
        stateVariableCount := ← s6.required? Json.asNat?
        payableFunctionCount := ← s7.required? Json.asNat?
        complexity := ← s8.required? Json.asNat32?
        linesOfCode := ← s9.required? Json.asNat?
        bytecodeSize := ← s10.optional? Json.asNat? }
  | _ => none

end ContractInfo

end AuditPanel
