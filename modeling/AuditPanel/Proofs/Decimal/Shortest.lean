import AuditPanel.Decimal.Layout
import Mathlib.Algebra.Group.Nat.Defs
import Mathlib.Tactic.ByContra

/-!
The shortest digits of a double. Unless the double is zero they are those of a number above zero:
the search for them starts at the leading digit of the value and never leaves it behind.
-/

set_option autoImplicit false

namespace AuditPanel.Decimal

/-- Whether the value of an interval is at least the unit `10 ^ e`. -/
def Interval.Reaches (i : Interval) (e : Int) : Prop :=
  if 0 ≤ e then i.denominator * 10 ^ e.toNat ≤ i.value
  else i.denominator ≤ i.value * 10 ^ (-e).toNat

/-- An interval around a value above zero. -/
structure Interval.IsPositive (i : Interval) : Prop where
  value_pos : 0 < i.value
  denominator_pos : 0 < i.denominator

namespace Interval

variable {i : Interval}

private theorem units_pos (positive : i.IsPositive) {e : Int} (reaches : i.Reaches e) :
    0 < (i.units e).1 := by
  have ten (n : Nat) : 0 < 10 ^ n := Nat.pow_pos (by omega)
  unfold Reaches at reaches
  rcases Int.lt_or_le e 0 with fine | whole
  · rw [if_neg (by omega)] at reaches
    rw [units, if_neg (by omega)]
    exact Nat.div_pos reaches positive.denominator_pos
  · rw [if_pos whole] at reaches
    rw [units, if_pos whole]
    exact Nat.div_pos reaches (Nat.mul_pos positive.denominator_pos (ten _))

theorem Reaches.of_le {e e' : Int} (reaches : i.Reaches e') (le : e ≤ e') : i.Reaches e := by
  unfold Reaches at reaches ⊢
  rcases Int.lt_or_le e 0 with fine | whole
  · rw [if_neg (by omega)]
    split at reaches
    · next whole' =>
      calc i.denominator
          ≤ i.denominator * 10 ^ e'.toNat := Nat.le_mul_of_pos_right _ (Nat.pow_pos (by omega))
        _ ≤ i.value := reaches
        _ ≤ i.value * 10 ^ (-e).toNat := Nat.le_mul_of_pos_right _ (Nat.pow_pos (by omega))
    · next fine' =>
      have power : 10 ^ (-e').toNat ≤ 10 ^ (-e).toNat := Nat.pow_le_pow_right (by omega) (by omega)
      exact Nat.le_trans reaches (Nat.mul_le_mul_left _ power)
  · rw [if_pos (by omega)] at reaches ⊢
    have power : 10 ^ e.toNat ≤ 10 ^ e'.toNat := Nat.pow_le_pow_right (by omega) (by omega)
    exact Nat.le_trans (Nat.mul_le_mul_left _ power) reaches

theorem digitCount_bounds {n : Nat} (positive : 0 < n) :
    0 < digitCount n ∧ 10 ^ (digitCount n - 1) ≤ n ∧ n < 10 ^ digitCount n := by
  have count : digitCount n = (Nat.toDigits 10 n).length := by
    rw [digitCount, if_neg (by omega)]
  have some_ : 0 < (Nat.toDigits 10 n).length := List.length_pos_iff.mpr Nat.toDigits_ne_nil
  have upper : n < 10 ^ (Nat.toDigits 10 n).length :=
    (Nat.length_toDigits_le_iff (by omega) some_).mp (Nat.le_refl _)
  rw [count]
  refine ⟨some_, ?_, upper⟩
  by_contra small
  rcases Nat.eq_zero_or_pos ((Nat.toDigits 10 n).length - 1) with one | more
  · rw [one, Nat.pow_zero] at small
    omega
  · have shorter := (Nat.length_toDigits_le_iff (b := 10) (by omega) more).mpr (Nat.not_le.mp small)
    omega

private theorem reaches_leadingExponent (positive : i.IsPositive) :
    i.Reaches i.leadingExponent := by
  have value := positive.value_pos
  have denominator := positive.denominator_pos
  unfold leadingExponent Reaches
  split
  · next large =>
    obtain ⟨some_, lower, -⟩ := digitCount_bounds (Nat.div_pos large denominator)
    rw [if_pos (by omega), show ((digitCount (i.value / i.denominator) : Int) - 1).toNat =
      digitCount (i.value / i.denominator) - 1 by omega, Nat.mul_comm]
    exact (Nat.le_div_iff_mul_le denominator).mp lower
  · next small =>
    have inverse : 0 < (i.denominator - 1) / i.value := Nat.div_pos (by omega) value
    obtain ⟨some_, -, upper⟩ := digitCount_bounds inverse
    change if 0 ≤ -(digitCount ((i.denominator - 1) / i.value) : Int) then _ else _
    rw [if_neg (by omega)]
    change i.denominator ≤
      i.value * 10 ^ (- -(digitCount ((i.denominator - 1) / i.value) : Int)).toNat
    rw [Int.neg_neg, Int.toNat_natCast, Nat.mul_comm]
    have below := (Nat.div_lt_iff_lt_mul value).mp upper
    omega

private theorem onGrid?_pos {e : Int} {n : Nat} (found : i.onGrid? e = some n)
    (units : 0 < (i.units e).1) : 0 < n := by
  unfold onGrid? at found
  simp only at found
  repeat' split at found
  all_goals cases found <;> omega

private theorem search_digits_pos (positive : i.IsPositive) {lead : Int} (reaches : i.Reaches lead)
    {tries count : Nat} (some_ : 0 < count) : 0 < (i.search lead tries count).digits := by
  induction tries generalizing count with
  | zero => exact units_pos positive (reaches.of_le (by omega))
  | succ tries ih =>
    have units := units_pos positive (reaches.of_le (show lead - count + 1 ≤ lead by omega))
    unfold search
    simp only
    split
    · next found => exact onGrid?_pos found units
    · exact ih (Nat.succ_pos count)

end Interval

private theorem Scientific.stripZeros_digits_pos {d : Scientific} (positive : 0 < d.digits)
    (fuel : Nat) :
    0 < (d.stripZeros fuel).digits := by
  induction fuel generalizing d with
  | zero => exact positive
  | succ fuel ih =>
    unfold stripZeros
    split
    · next zero =>
      rw [beq_iff_eq] at zero
      exact ih (show 0 < d.digits / 10 by omega)
    · exact positive

private theorem isPositive_roundingInterval {p : Parts} (positive : 0 < p.significand) :
    (roundingInterval p).IsPositive := by
  have shifted (n : Nat) : 0 < 1 <<< n := by
    rw [Nat.shiftLeft_eq, Nat.one_mul]
    exact Nat.pow_pos (by omega)
  have powers : 0 < (powerOfTwo (p.exponent - 2)).1 ∧ 0 < (powerOfTwo (p.exponent - 2)).2 := by
    unfold powerOfTwo
    split
    · exact ⟨shifted _, Nat.one_pos⟩
    · exact ⟨Nat.one_pos, shifted _⟩
  exact ⟨Nat.mul_pos (Nat.mul_pos (by omega) positive) powers.1, powers.2⟩

theorem shortest_digits_pos {p : Parts} (positive : 0 < p.significand) :
    0 < (shortest p).digits := by
  have around := isPositive_roundingInterval positive
  exact Scientific.stripZeros_digits_pos
    (Interval.search_digits_pos around (Interval.reaches_leadingExponent around) Nat.one_pos) 20

end AuditPanel.Decimal
