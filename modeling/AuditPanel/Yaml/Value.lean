import AuditPanel.Json.Value

/-!
YAML values with plain scalars resolved. Mappings keep their keys in the order of the text, each key
once.
-/

set_option autoImplicit false

namespace AuditPanel

/-- A YAML value. -/
inductive Yaml where
  | null
  | bool (b : Bool)
  | integer (n : Int)
  | real (x : Float)
  | string (s : String)
  | sequence (items : List Yaml)
  | mapping (entries : List (Yaml × Yaml))
  | tagged (tag : String) (value : Yaml)
  deriving Inhabited

namespace Yaml

def untagged : Yaml → Yaml
  | .tagged _ v => untagged v
  | v => v

mutual

def same : Yaml → Yaml → Bool
  | .null, .null => true
  | .bool a, .bool b => a == b
  | .integer a, .integer b => a == b
  | .real a, .real b => a == b || (a.isNaN && b.isNaN)
  | .string a, .string b => a == b
  | .sequence a, .sequence b => sameItems a b
  | .mapping a, .mapping b => a.length == b.length && entriesWithin a b
  | .tagged t a, .tagged u b => t == u && same a b
  | _, _ => false

def sameItems : List Yaml → List Yaml → Bool
  | [], [] => true
  | a :: as, b :: bs => same a b && sameItems as bs
  | _, _ => false

def entriesWithin : List (Yaml × Yaml) → List (Yaml × Yaml) → Bool
  | [], _ => true
  | (k, a) :: rest, others =>
    (others.any fun (l, b) => same k l && same a b) && entriesWithin rest others

end

/-- Why a value cannot be the name of a member in JSON; texts, truth values and finite numbers
can. -/
def nameFault? : Yaml → Option String
  | .string _ => none
  | .bool _ => none
  | .integer _ => none
  | .real x => if x.isNaN || x.isInf then some "float key must be finite" else none
  | _ => some "key must be a string"

mutual

/-- The first reason in the order of the text why some key of a value cannot be the name of a
member. -/
def keyFault? : Yaml → Option String
  | .sequence items => itemsFault? items
  | .mapping entries => entriesFault? entries
  | .tagged _ v => keyFault? v
  | _ => none

def itemsFault? : List Yaml → Option String
  | [] => none
  | v :: rest => (keyFault? v).orElse fun _ => itemsFault? rest

def entriesFault? : List (Yaml × Yaml) → Option String
  | [] => none
  | (k, v) :: rest => (nameFault? k).orElse fun _ => (keyFault? v).orElse fun _ =>
    entriesFault? rest

end

mutual

def ofJson : Json → Yaml
  | .null => .null
  | .bool b => .bool b
  | .integer n => .integer n
  | .real x => .real x
  | .string s => .string s
  | .array items => .sequence (ofItems items)
  | .object members => .mapping (ofMembers members)

def ofItems : List Json → List Yaml
  | [] => []
  | v :: rest => ofJson v :: ofItems rest

def ofMembers : List (String × Json) → List (Yaml × Yaml)
  | [] => []
  | (key, v) :: rest => (.string key, ofJson v) :: ofMembers rest

end

def asString? (v : Yaml) : Option String :=
  match v.untagged with
  | .string s => some s
  | _ => none

def asNatBelow? (bound : Nat) (v : Yaml) : Option Nat :=
  match v.untagged with
  | .integer n => if 0 ≤ n ∧ n.toNat < bound then some n.toNat else none
  | _ => none

def asFloat? (v : Yaml) : Option Float :=
  match v.untagged with
  | .real x => some x
  | .integer n => some (if n < 0 then -Float.ofNat n.natAbs else Float.ofNat n.toNat)
  | _ => none

/-- The entries of a mapping whose keys are all texts; null is a mapping without entries. -/
def asRecord? (v : Yaml) : Option (List (String × Yaml)) :=
  match v.untagged with
  | .null => some []
  | .mapping entries => entries.mapM fun (k, v) => k.asString?.map fun key => (key, v)
  | _ => none

/-- An optional entry of a record: none if it is missing or null. -/
def optional? {α : Type} (record : List (String × Yaml)) (key : String) (f : Yaml → Option α) :
    Option (Option α) :=
  match record.find? (·.1 = key) with
  | none => some none
  | some (_, .null) => some none
  | some (_, v) => (f v).map some

def required? {α : Type} (record : List (String × Yaml)) (key : String) (f : Yaml → Option α) :
    Option α :=
  match record.find? (·.1 = key) with
  | none => none
  | some (_, v) => f v

end Yaml

end AuditPanel
