import AuditPanel.Decimal.Binary

/-!
The shortest decimal that reads back as a given double.

A decimal reads back when it lies in the interval of reals that round to the double, ends included
for an even significand. For 1, 2, … 17 digits the two neighbours of the value on that decimal grid
are tested; the first grid with a hit wins, and of two hits the nearer one, the even one on a tie.
-/

set_option autoImplicit false

namespace AuditPanel.Decimal

/-- A decimal `digits · 10 ^ exponent`. -/
structure Scientific where
  digits : Nat
  exponent : Int
  deriving Repr, DecidableEq

/-- The interval that rounds to a double, around its value, all over one denominator. -/
structure Interval where
  low : Nat
  value : Nat
  high : Nat
  denominator : Nat
  closed : Bool

/-- The reals that round to `significand · 2 ^ exponent`: half a unit upwards, and half a unit
downwards, or a quarter of one below the start of a binade. -/
def roundingInterval (p : Parts) : Interval :=
  let (num, den) := powerOfTwo (p.exponent - 2)
  let below := if p.significand == binadeStart && p.exponent != leastExponent then 1 else 2
  { low := (4 * p.significand - below) * num
    value := 4 * p.significand * num
    high := (4 * p.significand + 2) * num
    denominator := den
    closed := p.significand % 2 == 0 }

/-- Whether `n · 10 ^ e` lies in the interval. -/
def Interval.holds (i : Interval) (n : Nat) (e : Int) : Bool :=
  let (left, right) :=
    if 0 ≤ e then (n * powerOfTen e.toNat * i.denominator, 1)
      else (n * i.denominator, powerOfTen (-e).toNat)
  if i.closed then i.low * right ≤ left && left ≤ i.high * right
  else i.low * right < left && left < i.high * right

/-- The value in units of `10 ^ e`: the whole units, and the remainder over its denominator. -/
def Interval.units (i : Interval) (e : Int) : Nat × Nat × Nat :=
  let (num, den) :=
    if 0 ≤ e then (i.value, i.denominator * powerOfTen e.toNat)
    else (i.value * powerOfTen (-e).toNat, i.denominator)
  (num / den, num % den, den)

/-- The nearest of the two neighbours of the value on the grid `10 ^ e` that reads back. -/
def Interval.onGrid? (i : Interval) (e : Int) : Option Nat :=
  let (whole, rest, den) := i.units e
  match i.holds whole e, i.holds (whole + 1) e with
  | true, true =>
    if 2 * rest < den then some whole
    else if 2 * rest > den then some (whole + 1)
    else if whole % 2 == 0 then some whole else some (whole + 1)
  | true, false => some whole
  | false, true => some (whole + 1)
  | false, false => none

/-- The number of decimal digits of a natural number, zero having none. -/
def digitCount (n : Nat) : Nat :=
  if n = 0 then 0 else (Nat.toDigits 10 n).length

/-- The exponent of the leading decimal digit of the value, which is above zero. -/
def Interval.leadingExponent (i : Interval) : Int :=
  if i.denominator ≤ i.value then (digitCount (i.value / i.denominator) : Int) - 1
  else
    let inverse := (i.denominator - 1) / i.value
    Int.neg (digitCount inverse)

/-- The first grid with a hit, from `count` digits on, with `tries` digit counts left to try. -/
def Interval.search (i : Interval) (lead : Int) : Nat → Nat → Scientific
  | 0, count =>
    let e := lead - count + 1
    ⟨(i.units e).1, e⟩
  | tries + 1, count =>
    let e := lead - count + 1
    match i.onGrid? e with
    | some n => ⟨n, e⟩
    | none => i.search lead tries (count + 1)

/-- Zeros at the end of the digits moved into the exponent, at most `fuel` of them. -/
def Scientific.stripZeros : Nat → Scientific → Scientific
  | 0, d => d
  | fuel + 1, d => if d.digits % 10 == 0 then stripZeros fuel ⟨d.digits / 10, d.exponent + 1⟩ else d

/-- The shortest decimal that reads back as a finite double other than zero. -/
def shortest (p : Parts) : Scientific :=
  let i := roundingInterval p
  (i.search i.leadingExponent 17 1).stripZeros 20

end AuditPanel.Decimal
