/-!
JSON values. The members of an object stand in increasing order of their keys, each key once.
-/

set_option autoImplicit false

namespace AuditPanel

/-- A JSON value. Whole numbers within 64 bits are kept apart from other numbers. -/
inductive Json where
  | null
  | bool (b : Bool)
  | integer (n : Int)
  | real (x : Float)
  | string (s : String)
  | array (items : List Json)
  | object (members : List (String × Json))
  deriving Inhabited

namespace Json

/-- The last member of a run of equal keys, reversed onto the members so far. -/
def lastOfRuns : List (String × Json) → List (String × Json) → List (String × Json)
  | out, [] => out.reverse
  | out, [m] => (m :: out).reverse
  | out, m :: next :: rest =>
    if m.1 = next.1 then lastOfRuns out (next :: rest) else lastOfRuns (m :: out) (next :: rest)

/-- The object with the given members; a later member replaces an earlier one of the same key. -/
def ofMembers (members : List (String × Json)) : Json :=
  .object (lastOfRuns [] (members.mergeSort fun a b => a.1 ≤ b.1))

def member? (key : String) (members : List (String × Json)) : Option Json :=
  (members.find? (·.1 = key)).map (·.2)

def get? (key : String) : Json → Option Json
  | .object members => member? key members
  | _ => none

def isNull : Json → Bool
  | .null => true
  | _ => false

def nat (n : Nat) : Json :=
  .integer n

def strings (items : List String) : Json :=
  .array (items.map .string)

/-- Null for nothing, or the value under `f`. -/
def option {α : Type} (f : α → Json) : Option α → Json
  | none => .null
  | some a => f a

end Json

end AuditPanel
