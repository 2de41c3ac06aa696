/-!
Sets of characters written as lists of code point ranges.
-/

set_option autoImplicit false

namespace AuditPanel.Text

/-- Whether `n` lies in one of the inclusive ranges, which stand in increasing order. -/
def inRanges : List (Nat × Nat) → Nat → Bool
  | [], _ => false
  | (lo, hi) :: rest, n => if n < lo then false else if n ≤ hi then true else inRanges rest n

end AuditPanel.Text
