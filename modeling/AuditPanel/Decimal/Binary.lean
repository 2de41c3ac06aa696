/-!
The exact value of a double as a natural number times a power of two.
-/

set_option autoImplicit false

namespace AuditPanel.Decimal

/-- A finite double taken apart: its value is `±significand · 2 ^ exponent`. -/
structure Parts where
  negative : Bool
  significand : Nat
  exponent : Int
  deriving Repr, DecidableEq

/-- What a double is: one of the finite values, or an infinity, or no number. -/
inductive Kind where
  | finite (parts : Parts)
  | infinite (negative : Bool)
  | notANumber
  deriving Repr, DecidableEq

/-- The smallest exponent of a double whose significand is a natural number. -/
def leastExponent : Int := -1074

def binadeStart : Nat := 1 <<< 52

def kind (x : Float) : Kind :=
  let bits := x.toBits.toNat
  let negative := bits >>> 63 == 1
  let biased := (bits >>> 52) % (1 <<< 11)
  let fraction := bits % binadeStart
  if biased == 2047 then
    if fraction == 0 then .infinite negative else .notANumber
  else if biased == 0 then .finite ⟨negative, fraction, leastExponent⟩
  else .finite ⟨negative, binadeStart + fraction, leastExponent + (biased - 1 : Nat)⟩

/-- Two to the power `e`, as a numerator and a denominator. -/
def powerOfTwo (e : Int) : Nat × Nat :=
  if 0 ≤ e then (1 <<< e.toNat, 1) else (1, 1 <<< (-e).toNat)

/-- Ten to the power `n`. -/
def powerOfTen (n : Nat) : Nat :=
  Nat.pow 10 n

end AuditPanel.Decimal
