import AuditPanel.Decimal.Reader

/-!
Declarations of a Solidity source, and their records.
-/

set_option autoImplicit false

namespace AuditPanel.Source

/-- The kinds of a contract-like declaration. -/
inductive ContractKind where
  | contract
  | interface
  | library
  deriving Repr, DecidableEq, Inhabited

/-- Who may call a function or read a variable. -/
inductive Visibility where
  | publicly
  | externally
  | internally
  | privately
  deriving Repr, DecidableEq, Inhabited

/-- What a function may do with state and value. -/
inductive Mutability where
  | nonpayable
  | payable
  | view
  | pure
  deriving Repr, DecidableEq, Inhabited

/-- The kinds of a function declaration. -/
inductive FunctionKind where
  | function
  | constructor
  | fallback
  | receive
  deriving Repr, DecidableEq, Inhabited

/-- A contract, interface or library. -/
structure ContractDecl where
  kind : ContractKind
  name : String
  isAbstract : Bool
  inherits : List String
  line : Nat
  deriving Repr, DecidableEq

/-- A parameter with its type and, where there is one, its name. -/
structure Parameter where
  typeName : String
  name : Option String
  deriving Repr, DecidableEq

/-- A function, constructor, fallback or receive function. -/
structure FunctionDecl where
  name : String
  kind : FunctionKind
  contract : Option String
  visibility : Visibility
  mutability : Mutability
  parameters : List Parameter
  modifiers : List String
  line : Nat
  deriving Repr, DecidableEq

namespace FunctionDecl

def isPayable (f : FunctionDecl) : Bool :=
  f.mutability = .payable

def isExternal (f : FunctionDecl) : Bool :=
  f.visibility = .externally || f.visibility = .publicly

end FunctionDecl

/-- A modifier. -/
structure ModifierDecl where
  name : String
  contract : Option String
  parameters : List Parameter
  line : Nat
  deriving Repr, DecidableEq

/-- An event. -/
structure EventDecl where
  name : String
  parameters : List Parameter
  line : Nat
  deriving Repr, DecidableEq

/-- An import of another file. -/
structure ImportDecl where
  path : String
  line : Nat
  deriving Repr, DecidableEq

/-- A state variable. -/
structure StateVariable where
  typeName : String
  name : String
  contract : Option String
  visibility : Visibility
  isConstant : Bool
  isImmutable : Bool
  line : Nat
  deriving Repr, DecidableEq

/-- The declarations of one source, each list in the order of the source. -/
structure Declarations where
  pragma : Option String
  contracts : List ContractDecl
  functions : List FunctionDecl
  modifiers : List ModifierDecl
  events : List EventDecl
  imports : List ImportDecl
  stateVariables : List StateVariable
  deriving Repr, DecidableEq, Inhabited

/-- The first two runs of digits of a version requirement that fit 32 bits name at least version
0.8. -/
def pragmaIsChecked (pragma : List Char) : Bool :=
  let runs := ((Text.runsBetween (fun c => !c.isDigit) pragma).take 2).map Decimal.digitsValue
  match runs.filter (· < 1 <<< 32) with
  | major :: minor :: _ => 0 < major || 8 ≤ minor
  | _ => false

namespace Declarations

/-- The name of the last concrete contract, or of the last declaration if there is none. -/
def primaryContract (d : Declarations) : Option String :=
  let concrete := d.contracts.filter fun c => c.kind = .contract && !c.isAbstract
  match concrete.getLast? with
  | some c => some c.name
  | none => d.contracts.getLast?.map (·.name)

def payableFunctions (d : Declarations) : List FunctionDecl :=
  d.functions.filter (·.isPayable)

/-- Whether the version requirement pins a compiler with checked arithmetic. -/
def hasCheckedArithmetic (d : Declarations) : Bool :=
  match d.pragma with
  | none => false
  | some p => pragmaIsChecked p.toList

end Declarations

end AuditPanel.Source
