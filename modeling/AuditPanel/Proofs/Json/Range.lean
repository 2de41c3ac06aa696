import AuditPanel.Proofs.Json.Numbers
import AuditPanel.Proofs.Rounding

/-!
No double is too great for the reader. The shortest digits of a double lie in the interval that
rounds to it, and scaling them by a power of ten rounds four times at most, so that only next to the
greatest double could the reader find something beyond it. There the doubles are few.
-/

set_option autoImplicit false

namespace AuditPanel

open Decimal

namespace Decimal

def Scientific.value (d : Scientific) : ℚ :=
  d.digits * 10 ^ d.exponent

/-- The upper end of the reals that round to a double. -/
def Parts.upper (p : Parts) : ℚ :=
  (p.significand + 1 / 2) * 2 ^ p.exponent

namespace Interval

variable {i : Interval}

def upper (i : Interval) : ℚ :=
  i.high / i.denominator

private theorem le_upper_of_holds (positive : 0 < i.denominator) {n : Nat} {e : Int}
    (inside : i.holds n e = true) :
    (n : ℚ) * 10 ^ e ≤ i.upper := by
  have some_ : (0 : ℚ) < i.denominator := by exact_mod_cast positive
  rw [upper, le_div_iff₀ some_]
  unfold holds at inside
  rcases Int.lt_or_le e 0 with fine | whole
  · obtain ⟨k, rfl⟩ : ∃ k : Nat, e = -k := ⟨e.natAbs, by omega⟩
    have power : (0 : ℚ) < 10 ^ k := by positivity
    have bound : n * i.denominator ≤ i.high * 10 ^ k := by
      rw [if_neg (by omega)] at inside
      simp only [powerOfTen, Int.neg_neg, Int.toNat_natCast] at inside
      split at inside
      · simp only [Bool.and_eq_true, decide_eq_true_eq] at inside
        exact inside.2
      · simp only [Bool.and_eq_true, decide_eq_true_eq] at inside
        exact Nat.le_of_lt inside.2
    have bound' : (n : ℚ) * i.denominator ≤ i.high * 10 ^ k := by exact_mod_cast bound
    rw [zpow_neg, zpow_natCast, mul_right_comm, ← div_eq_mul_inv, div_le_iff₀ power]
    exact bound'
  · obtain ⟨k, rfl⟩ : ∃ k : Nat, e = k := ⟨e.toNat, by omega⟩
    have bound : n * 10 ^ k * i.denominator ≤ i.high := by
      rw [if_pos whole] at inside
      simp only [powerOfTen, Int.toNat_natCast, Nat.mul_one] at inside
      split at inside
      · simp only [Bool.and_eq_true, decide_eq_true_eq] at inside
        exact inside.2
      · simp only [Bool.and_eq_true, decide_eq_true_eq] at inside
        exact Nat.le_of_lt inside.2
    rw [zpow_natCast]
    exact_mod_cast bound

private theorem units_le (positive : 0 < i.denominator) (inside : i.value ≤ i.high) (e : Int) :
    ((i.units e).1 : ℚ) * 10 ^ e ≤ i.upper := by
  have some_ : (0 : ℚ) < i.denominator := by exact_mod_cast positive
  have within : (i.value : ℚ) ≤ i.high := by exact_mod_cast inside
  rw [upper, le_div_iff₀ some_]
  unfold units
  rcases Int.lt_or_le e 0 with fine | whole
  · obtain ⟨k, rfl⟩ : ∃ k : Nat, e = -k := ⟨e.natAbs, by omega⟩
    have power : (0 : ℚ) < 10 ^ k := by positivity
    rw [if_neg (by omega)]
    simp only [powerOfTen, Int.neg_neg, Int.toNat_natCast]
    have bound : (i.value * 10 ^ k / i.denominator) * i.denominator ≤ i.value * 10 ^ k :=
      Nat.div_mul_le_self _ _
    have bound' : ((i.value * 10 ^ k / i.denominator : Nat) : ℚ) * i.denominator ≤ i.value *
        10 ^ k := by
      exact_mod_cast bound
    rw [zpow_neg, zpow_natCast, mul_right_comm, ← div_eq_mul_inv, div_le_iff₀ power]
    exact bound'.trans (mul_le_mul_of_nonneg_right within power.le)
  · obtain ⟨k, rfl⟩ : ∃ k : Nat, e = k := ⟨e.toNat, by omega⟩
    rw [if_pos whole]
    simp only [powerOfTen, Int.toNat_natCast]
    have bound : (i.value / (i.denominator * 10 ^ k)) * (i.denominator * 10 ^ k) ≤ i.value :=
      Nat.div_mul_le_self _ _
    have bound' : ((i.value / (i.denominator * 10 ^ k) : Nat) : ℚ) * (i.denominator * 10 ^ k) ≤
        i.value := by
      exact_mod_cast bound
    rw [zpow_natCast, mul_assoc, mul_comm (10 ^ k : ℚ)]
    exact bound'.trans within

private theorem search_le (positive : 0 < i.denominator) (inside : i.value ≤ i.high) (lead : Int)
    (tries count : Nat) :
    (i.search lead tries count).value ≤ i.upper := by
  induction tries generalizing count with
  | zero => exact units_le positive inside _
  | succ tries ih =>
    unfold search
    simp only
    split
    · next n found =>
      refine le_upper_of_holds positive ?_
      unfold onGrid? at found
      simp only at found
      repeat' split at found
      all_goals cases found <;> assumption
    · exact ih (count + 1)

end Interval

private theorem Scientific.value_stripZeros (fuel : Nat) (d : Scientific) :
    (d.stripZeros fuel).value = d.value := by
  induction fuel generalizing d with
  | zero => rfl
  | succ fuel ih =>
    unfold stripZeros
    split
    · next zero =>
      rw [beq_iff_eq] at zero
      have digits : (d.digits : ℚ) = (d.digits / 10 : Nat) * 10 := by
        exact_mod_cast (Nat.div_mul_cancel (Nat.dvd_of_mod_eq_zero zero)).symm
      rw [ih, value, value, digits, zpow_add₀ (by norm_num)]
      ring
    · rfl

private theorem upper_roundingInterval (p : Parts) : (roundingInterval p).upper = p.upper := by
  obtain ⟨positive, power⟩ := powerOfTwo_value (p.exponent - 2)
  have some_ : (0 : ℚ) < (powerOfTwo (p.exponent - 2)).2 := by exact_mod_cast positive
  have quarter : (2 : ℚ) ^ (p.exponent - 2) = 2 ^ p.exponent / 4 := by
    rw [zpow_sub₀ (by norm_num)]
    norm_num
  rw [Interval.upper, Parts.upper, roundingInterval, div_eq_iff some_.ne']
  push_cast
  rw [power, quarter]
  ring

private theorem shortest_le (p : Parts) : (shortest p).value ≤ p.upper := by
  have positive : 0 < (roundingInterval p).denominator := (powerOfTwo_value _).1
  have inside : (roundingInterval p).value ≤ (roundingInterval p).high :=
    Nat.mul_le_mul_right _ (Nat.le_add_right _ 2)
  rw [shortest, Scientific.value_stripZeros, ← upper_roundingInterval]
  exact Interval.search_le positive inside _ _ _

end Decimal

namespace Json

open Double

private theorem overflow_lt_ten : overflow < 10 ^ (309 : ℤ) := by
  have powers : (2 : ℚ) ^ (1024 : ℤ) ≤ 10 ^ (309 : ℤ) := by
    have naturals : 2 ^ 1024 ≤ 10 ^ 309 := by decide +kernel
    exact_mod_cast naturals
  exact overflow_lt.trans_le powers

private theorem isSome_scale? {n : Nat} {e : Int}
    (below : (n : ℚ) * 10 ^ e * slack ^ 4 < overflow) :
    (scale? n e).isSome := by
  have raises : (1 : ℚ) ≤ slack := by norm_num [slack]
  unfold scale?
  rcases Nat.eq_zero_or_pos n with rfl | positive
  · rw [if_pos rfl]
    rfl
  have one : (1 : ℚ) ≤ n := by exact_mod_cast positive
  have least : (10 : ℚ) ^ e < overflow := by
    have power : (0 : ℚ) < 10 ^ e := zpow_pos (by norm_num) e
    have whole : (10 : ℚ) ^ e ≤ n * 10 ^ e := le_mul_of_one_le_left power.le one
    have scaled : (n : ℚ) * 10 ^ e ≤ n * 10 ^ e * slack ^ 4 :=
      le_mul_of_one_le_right (mul_nonneg (by positivity) power.le) (one_le_pow₀ raises)
    exact whole.trans_lt (scaled.trans_lt below)
  have greatest : e ≤ 308 := by
    by_contra large
    have above : (10 : ℚ) ^ (309 : ℤ) ≤ 10 ^ e := zpow_le_zpow_right₀ (by norm_num) (by omega)
    exact absurd (least.trans (overflow_lt_ten.trans_le above)) (lt_irrefl _)
  rw [if_neg (by omega), if_neg (by omega)]
  split
  · next whole =>
    obtain ⟨k, rfl⟩ : ∃ k : Nat, e = k := ⟨e.toNat, by omega⟩
    rw [zpow_natCast] at below
    have power : (1 : ℚ) ≤ 10 ^ k := one_le_pow₀ (by norm_num)
    have value : (0 : ℚ) ≤ n * 10 ^ k := by positivity
    have twice : (n : ℚ) * 10 ^ k * slack ≤ n * 10 ^ k * slack ^ 4 :=
      mul_le_mul_of_nonneg_left (le_self_pow₀ raises (by norm_num)) value
    have number : Within (Float.ofNat n) (n * 10 ^ 0 * slack * slack) := by
      refine within_decimal positive (by omega) (lt_of_le_of_lt ?_ (twice.trans_lt below))
      rw [pow_zero, mul_one]
      exact mul_le_mul_of_nonneg_right (le_mul_of_one_le_right (by positivity) power) (by linarith)
    have ten : Within (tenTo k) ((1 : Nat) * 10 ^ k * slack * slack) := by
      refine within_decimal Nat.one_pos (by omega) (lt_of_le_of_lt ?_ (twice.trans_lt below))
      rw [Nat.cast_one, one_mul]
      exact mul_le_mul_of_nonneg_right (le_mul_of_one_le_left (by positivity) one) (by linarith)
    have product := number.mul ten (by
      calc (n : ℚ) * 10 ^ 0 * slack * slack * ((1 : Nat) * 10 ^ k * slack * slack)
          = n * 10 ^ k * slack ^ 4 := by push_cast; ring
        _ < overflow := below)
    simp only [Int.toNat_natCast, product.isInf, Bool.false_eq_true, if_false, Option.isSome_some]
  · split
    · rfl
    · split
      · rfl
      · rfl

/-- Digits that are taken into a significand, and those left over as zeros, make up no more than all
of them. -/
private theorem takeDigits_le (s : List Char) (n : Nat) :
    (takeDigits n s).1 * 10 ^ (takeDigits n s).2.length ≤ n * 10 ^ s.length + digitsValue s ∧
      (takeDigits n s).2.length ≤ s.length := by
  induction s generalizing n with
  | nil => simp [takeDigits]
  | cons c s ih =>
    have whole : n * 10 ^ (c :: s).length + digitsValue (c :: s) =
        (10 * n + (c.toNat - '0'.toNat)) * 10 ^ s.length + digitsValue s := by
      rw [← foldl_digits, List.foldl_cons, foldl_digits]
    unfold takeDigits
    simp only
    split
    · obtain ⟨value, length⟩ := ih (10 * n + (c.toNat - '0'.toNat))
      rw [whole]
      exact ⟨value, Nat.le_succ_of_le length⟩
    · exact ⟨Nat.le_add_right _ _, Nat.le_refl _⟩

private theorem takeDigits_short {s : List Char} (digits : ∀ c ∈ s, c.isDigit)
    (short : s.length ≤ 16) :
    takeDigits 0 s = (digitsValue s, []) := by
  refine takeDigits_eq ?_
  have value : digitsValue s < 10 ^ 16 :=
    (digitsValue_lt digits).trans_le (Nat.pow_le_pow_right (by omega) short)
  exact value.trans (by decide)

private theorem leading_exponent_le {d : Scientific} (positive : 0 < d.digits)
    (below : d.value < overflow) :
    (digitText d.digits).length + d.exponent - 1 ≤ 308 := by
  obtain ⟨some_, lower, -⟩ := Interval.digitCount_bounds positive
  have count : digitCount d.digits = (digitText d.digits).length := by
    rw [digitCount, if_neg (by omega), digitText]
  rw [count] at some_ lower
  by_contra large
  have leading : (10 : ℚ) ^ ((digitText d.digits).length + d.exponent - 1) ≤ d.value := by
    have power : (10 : ℚ) ^ ((digitText d.digits).length - 1) ≤ d.digits := by exact_mod_cast lower
    rw [Scientific.value, show ((digitText d.digits).length : Int) + d.exponent - 1 =
      (((digitText d.digits).length - 1 : Nat) : Int) + d.exponent by
        omega, zpow_add₀ (by norm_num), zpow_natCast]
    exact mul_le_mul_of_nonneg_right power (zpow_pos (by norm_num) _).le
  have above : (10 : ℚ) ^ (309 : ℤ) ≤ 10 ^ ((digitText d.digits).length + d.exponent - 1) :=
    zpow_le_zpow_right₀ (by norm_num) (by omega)
  exact absurd ((above.trans leading).trans_lt (below.trans overflow_lt_ten)) (lt_irrefl _)

private theorem realOf?_isSome {negative : Bool} {n : Nat} {e exponent : Int}
    (small : exponent ≤ 308) (read : (scale? n (e + exponent)).isSome) :
    (realOf? negative n e (some (decide (exponent < 0), digitText exponent.natAbs))).isSome := by
  have bound : exponentBound = 2147483647 := rfl
  rw [realOf?, Option.isSome_map, digitsValue_digitText]
  simp only
  split
  · next deep =>
    have down : exponent < 0 := by omega
    simp [down]
  · rcases Int.lt_or_le exponent 0 with down | up
    · rw [decide_eq_true down, if_pos rfl, show e - exponent.natAbs = e + exponent by omega]
      exact read
    · rw [decide_eq_false (by omega), if_neg Bool.false_ne_true, show e + exponent.natAbs = e +
        exponent by omega]
      exact read

private theorem RealParts.Writes.isSome_read? {p : RealParts} {d : Scientific} (writes : p.Writes d)
    (positive : 0 < d.digits)
    (below : d.value * slack ^ 4 < overflow) (negative : Bool) : (p.read? negative).isSome := by
  obtain ⟨⟨zeros, digits, scale⟩, short, exponent⟩ := writes
  have value : (0 : ℚ) ≤ d.value := mul_nonneg (by positivity) (zpow_pos (by norm_num) _).le
  have raises : (1 : ℚ) ≤ slack ^ 4 := one_le_pow₀ (by norm_num [slack])
  rw [RealParts.read?, takeDigits_short p.whole_digits short]
  simp only
  obtain ⟨most, length⟩ := takeDigits_le (p.fraction.getD []) (digitsValue p.whole)
  generalize takeDigits (digitsValue p.whole) (p.fraction.getD []) = taken at most length
  obtain ⟨n, unused⟩ := taken
  dsimp only at most length
  rw [← foldl_digits, ← digitsValue_append] at most
  change n * 10 ^ unused.length ≤ digitsValue p.digits at most
  -- What is scaled is no more than the decimal.
  have read :
    (scale? n
      ((([] : List Char).length : Int) - (((p.fraction.getD []).length : Int) - unused.length) +
      p.exponent.getD 0)).isSome := by
    refine isSome_scale? (lt_of_le_of_lt (mul_le_mul_of_nonneg_right ?_ (by positivity)) below)
    have place : (([] : List Char).length : Int) -
      (((p.fraction.getD []).length : Int) - unused.length) +
        p.exponent.getD 0 = unused.length + (d.exponent - zeros) := by
      rw [← scale, RealParts.scale, List.length_nil]
      omega
    rw [digits] at most
    have most' : (n : ℚ) * 10 ^ unused.length ≤ d.digits * 10 ^ zeros := by exact_mod_cast most
    calc (n : ℚ) * 10 ^ ((([] : List Char).length : Int) -
          (((p.fraction.getD []).length : Int) - unused.length) + p.exponent.getD 0)
        = n * 10 ^ unused.length * 10 ^ (d.exponent - zeros) := by
          rw [place, zpow_add₀ (by norm_num), zpow_natCast, mul_assoc]
      _ ≤ d.digits * 10 ^ zeros * 10 ^ (d.exponent - zeros) :=
          mul_le_mul_of_nonneg_right most' (zpow_pos (by norm_num) _).le
      _ = d.value := by
          rw [Scientific.value, mul_assoc, ← zpow_natCast, ← zpow_add₀ (by norm_num)]
          congr 2
          omega
  rw [RealParts.mark]
  cases found : p.exponent with
  | none =>
    rw [found, Option.getD_none, Int.add_zero] at read
    rw [Option.map_none, realOf?, Option.isSome_map]
    exact read
  | some e =>
    rw [found, Option.getD_some] at read
    rw [Option.map_some]
    refine realOf?_isSome ?_ read
    rw [exponent e found]
    exact leading_exponent_le positive (lt_of_le_of_lt (le_mul_of_one_le_right value raises) below)

/-- The bits of the doubles next to the greatest one and next to its negative. -/
def topBits (sign k : Nat) : Nat :=
  2 ^ 63 * sign + 2047 * 2 ^ 52 - 16 + k

private theorem isSome_reread?_of_topBits {x : Float} {sign k : Nat} (signed : sign < 2)
    (next : k < 16) (bits : x.toBits.toNat = topBits sign k) : (reread? x).isSome := by
  have positive : ∀ k < 16, (Float.ofBits (UInt64.ofNat (topBits 0 k))).toBits.toNat = topBits 0 k ∧
      (reread? (Float.ofBits (UInt64.ofNat (topBits 0 k)))).isSome := by decide +kernel
  have negative : ∀ k < 16, (Float.ofBits (UInt64.ofNat (topBits 1 k))).toBits.toNat = topBits 1 k ∧
      (reread? (Float.ofBits (UInt64.ofNat (topBits 1 k)))).isSome := by decide +kernel
  have all : (Float.ofBits (UInt64.ofNat (topBits sign k))).toBits.toNat = topBits sign k ∧
      (reread? (Float.ofBits (UInt64.ofNat (topBits sign k)))).isSome := by
    interval_cases sign
    · exact positive k next
    · exact negative k next
  obtain ⟨same, read⟩ := all
  rw [← same] at bits
  rwa [Float.toBits_inj.mp (UInt64.toNat_inj.mp bits)]

private theorem exists_topBits {x : Float} {p : Parts} (taken : kind x = .finite p)
    (top : p.exponent = 971)
    (last : 2 ^ 53 - 16 ≤ p.significand) :
    ∃ sign < 2, ∃ k < 16, x.toBits.toNat = topBits sign k := by
  have word : x.toBits.toNat < 2 ^ 64 := x.toBits.toNat_lt
  refine ⟨x.toBits.toNat / 2 ^ 63, by omega, x.toBits.toNat % 2 ^ 52 - (2 ^ 52 - 16), by omega, ?_⟩
  unfold kind at taken
  simp only [Nat.shiftRight_eq_div_pow, Nat.shiftLeft_eq, Nat.one_mul, binadeStart, leastExponent]
    at taken
  unfold topBits
  split at taken
  · split at taken <;> cases taken
  · split at taken
    · cases taken
      dsimp only at top last
      omega
    · cases taken
      dsimp only at top last
      omega

private theorem upper_lt {p : Parts} (small : p.significand < 2 ^ 53) (exponent : p.exponent ≤ 971)
    (below : ¬(p.exponent = 971 ∧ 2 ^ 53 - 16 ≤ p.significand)) :
    p.upper * slack ^ 4 < overflow := by
  have raise : (0 : ℚ) < slack ^ 4 := by norm_num [slack]
  have unit : (0 : ℚ) < 2 ^ (971 : ℤ) := zpow_pos (by norm_num) _
  rw [Parts.upper, overflow]
  rcases Int.lt_or_le p.exponent 971 with lower | top
  · -- In a lower binade the half unit outweighs the slack.
    have power : (2 : ℚ) ^ p.exponent ≤ 2 ^ (971 : ℤ) / 2 := by
      have next : (2 : ℚ) ^ p.exponent ≤ 2 ^ (971 - 1 : ℤ) :=
        zpow_le_zpow_right₀ (by norm_num) (by omega)
      rwa [zpow_sub_one₀ (by norm_num), ← div_eq_mul_inv] at next
    generalize (2 : ℚ) ^ (971 : ℤ) = last at unit power
    have most : (p.significand : ℚ) + 1 ≤ 2 ^ 53 := by exact_mod_cast small
    have most' : (p.significand : ℚ) + 1 / 2 ≤ 2 ^ 53 - 1 / 2 := by linarith
    calc (p.significand + 1 / 2 : ℚ) * 2 ^ p.exponent * slack ^ 4
        ≤ (2 ^ 53 - 1 / 2) * (last / 2) * slack ^ 4 :=
          mul_le_mul_of_nonneg_right
            (mul_le_mul most' power (zpow_pos (by norm_num) _).le (by norm_num)) raise.le
      _ = (2 ^ 53 - 1 / 2) * last * (slack ^ 4 / 2) := by ring
      _ < (2 ^ 53 - 1 / 2) * last :=
          mul_lt_of_lt_one_right (mul_pos (by norm_num) unit) (by norm_num [slack])
  · -- In the last one the units left above the significand do.
    have bound : p.significand + 17 ≤ 2 ^ 53 := by omega
    have bound' : (p.significand : ℚ) + 17 ≤ 2 ^ 53 := by exact_mod_cast bound
    have most : (p.significand : ℚ) + 1 / 2 ≤ 2 ^ 53 - 33 / 2 := by linarith
    rw [show p.exponent = 971 by omega, mul_right_comm]
    refine mul_lt_mul_of_pos_right ?_ unit
    calc (p.significand + 1 / 2 : ℚ) * slack ^ 4 ≤ (2 ^ 53 - 33 / 2) * slack ^ 4 :=
          mul_le_mul_of_nonneg_right most raise.le
      _ < 2 ^ 53 - 1 / 2 := by norm_num [slack]

private theorem isSome_reread? {x : Float} (finite : x.isFinite = true) : (reread? x).isSome := by
  obtain ⟨p, taken⟩ := exists_kind_eq finite
  obtain ⟨small, exponent⟩ := kind_bounds taken
  by_cases top : p.exponent = 971 ∧ 2 ^ 53 - 16 ≤ p.significand
  · obtain ⟨sign, signed, k, next, bits⟩ := exists_topBits taken top.1 top.2
    exact isSome_reread?_of_topBits signed next bits
  · obtain ⟨q, text, writes⟩ := exists_realText_eq_signed finite taken
    rw [reread?_eq text]
    split at writes
    · subst q
      cases p.negative <;> decide
    · next some_ =>
      refine writes.isSome_read? (shortest_digits_pos (Nat.pos_of_ne_zero some_)) ?_ p.negative
      exact lt_of_le_of_lt (mul_le_mul_of_nonneg_right (shortest_le p) (by norm_num [slack]))
        (upper_lt small exponent top)

/-- The double that is read for the text of a double. -/
def reread (x : Float) : Float :=
  (reread? x).getD x

private theorem reread?_eq_some {x : Float} (finite : x.isFinite = true) :
    reread? x = some (reread x) := by
  obtain ⟨y, read⟩ := Option.isSome_iff_exists.mp (isSome_reread? finite)
  rw [reread, read, Option.getD_some]

/-- The value that is read for the text of a double: null for one that is not finite. -/
def rereal (x : Float) : Json :=
  if x.isFinite then .real (reread x) else .null

theorem rereal_of_isFinite {x : Float} (finite : x.isFinite = true) : rereal x = .real (reread x) :=
  if_pos finite

theorem readScalar_realText (x : Float) {t : List Char} (delimited : IsDelimited t) :
    readScalar (realText x ++ t) = some (rereal x, t) := by
  by_cases finite : x.isFinite = true
  · rw [readScalar_finite finite delimited, reread?_eq_some finite, rereal_of_isFinite finite,
      Option.map_some]
  · have special : (x.isNaN || x.isInf) = true := by
      by_contra number
      exact finite (isFinite_of_not_isNaN_isInf (by simpa using number))
    rw [realText, if_pos special, rereal, if_neg finite]
    have read : readScalar "null".toList = some (.null, []) := rfl
    exact readScalar_delimited delimited read

end Json

end AuditPanel
