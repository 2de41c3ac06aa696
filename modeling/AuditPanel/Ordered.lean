/-!
Sets kept as increasing lists without repetition.
-/

set_option autoImplicit false

namespace AuditPanel.Ordered

variable {α : Type} [DecidableEq α]

/-- A list without items equal to their right neighbour, onto the reversed items so far. -/
def dedupFrom : List α → List α → List α
  | out, [] => out.reverse
  | out, [a] => (a :: out).reverse
  | out, a :: b :: rest =>
    if a = b then dedupFrom out (b :: rest) else dedupFrom (a :: out) (b :: rest)

/-- A list with one item for each run of equal neighbours. -/
def dedup (xs : List α) : List α :=
  dedupFrom [] xs

/-- The items of a list in increasing order, each once. -/
def ofList (le : α → α → Bool) (xs : List α) : List α :=
  dedup (xs.mergeSort le)

def nats (xs : List Nat) : List Nat :=
  ofList (fun a b => a ≤ b) xs

def strings (xs : List String) : List String :=
  ofList (fun a b => a ≤ b) xs

end AuditPanel.Ordered
