import AuditPanel.Json.Value

/-!
Reading records out of JSON values. A record is an object with named members, where unknown members
are passed over, or an array of its fields in order.
-/

set_option autoImplicit false

namespace AuditPanel.Json

def asString? : Json → Option String
  | .string s => some s
  | _ => none

def asBool? : Json → Option Bool
  | .bool b => some b
  | _ => none

def asNatBelow? (bound : Nat) : Json → Option Nat
  | .integer n => if 0 ≤ n ∧ n.toNat < bound then some n.toNat else none
  | _ => none

/-- A natural number of 64 bits. -/
def asNat? (v : Json) : Option Nat :=
  v.asNatBelow? (1 <<< 64)

def asNat32? (v : Json) : Option Nat :=
  v.asNatBelow? (1 <<< 32)

/-- A double, which a whole number writes too. -/
def asFloat? : Json → Option Float
  | .real x => some x
  | .integer n => some (if n < 0 then -Float.ofNat n.natAbs else Float.ofNat n.toNat)
  | _ => none

/-- A list of values that `f` reads. -/
def asList? {α : Type} (f : Json → Option α) : Json → Option (List α)
  | .array items => items.mapM f
  | _ => none

/-- Null, or a value that `f` reads. -/
def asOption? {α : Type} (f : Json → Option α) : Json → Option (Option α)
  | .null => some none
  | v => (f v).map some

def asObject? : Json → Option (List (String × Json))
  | .object members => some members
  | _ => none

/-- The constructor of an enumeration by its written name: a text, or an object of that one name
over null. -/
def asName? : Json → Option String
  | .string s => some s
  | .object [(name, .null)] => some name
  | _ => none

/-- What a record holds for one of its fields: a value, nothing in an object, or nothing because the
array is over. -/
inductive Slot where
  | value (v : Json)
  | missing
  | ended

/-- The slots of an array for a number of fields; none if the array is longer. -/
def arraySlots? : Nat → List Json → Option (List Slot)
  | 0, [] => some []
  | 0, _ :: _ => none
  | n + 1, [] => (arraySlots? n []).map (.ended :: ·)
  | n + 1, v :: rest => (arraySlots? n rest).map (.value v :: ·)

def slots? (names : List String) : Json → Option (List Slot)
  | .object members =>
    some <| names.map fun name =>
      match member? name members with
      | some v => .value v
      | none => .missing
  | .array items => arraySlots? names.length items
  | _ => none

def Slot.required? {α : Type} (f : Json → Option α) : Slot → Option α
  | .value v => f v
  | _ => none

/-- A field that may be null or missing. -/
def Slot.optional? {α : Type} (f : Json → Option α) : Slot → Option (Option α)
  | .value v => v.asOption? f
  | .missing => some none
  | .ended => none

def Slot.orDefault? {α : Type} (default : α) (f : Json → Option α) : Slot → Option α
  | .value v => f v
  | _ => some default

end AuditPanel.Json
