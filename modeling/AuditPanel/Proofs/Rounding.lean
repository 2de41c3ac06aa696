import AuditPanel.Proofs.Double

/-!
How far rounding carries a value of at least one. The double that a product of doubles rounds to
lies at most one part in `2 ^ 52` above the product, and it is finite as long as the product stays
below the middle between the greatest double and the next power of two.
-/

set_option autoImplicit false

namespace AuditPanel.Double

open Float.Model Float.Model.UnpackedFloat

/-- The least value that is rounded to infinity. -/
def overflow : ℚ := (2 ^ 53 - 1 / 2) * 2 ^ (971 : ℤ)

/-- The factor by which rounding raises a value at most. -/
def slack : ℚ := 1 + 1 / 2 ^ 52

theorem overflow_lt : overflow < 2 ^ (1024 : ℤ) := by
  rw [overflow, show (1024 : ℤ) = 53 + 971 from rfl, zpow_add₀ (by norm_num)]
  exact mul_lt_mul_of_pos_right (by norm_num) (zpow_pos (by norm_num) _)

private theorem shift_mantissa (m k : Nat) :
    ((ExtendedMantissa.mk m false false) >>> k).mantissa = m / 2 ^ k ∧
      (((ExtendedMantissa.mk m false false) >>> k).roundBit = true →
        2 * (2 ^ k * (m / 2 ^ k)) + 2 ^ k ≤ 2 * m) := by
  induction k with
  | zero =>
    exact ⟨by simp [HShiftRight.hShiftRight, Nat.repeat],
      by simp [HShiftRight.hShiftRight, Nat.repeat]⟩
  | succ k ih =>
    obtain ⟨mantissa, -⟩ := ih
    have next : (ExtendedMantissa.mk m false false) >>> (k + 1) =
        ((ExtendedMantissa.mk m false false) >>> k).shiftRightOne := rfl
    have half : m / 2 ^ (k + 1) = m / 2 ^ k / 2 := by
      rw [Nat.pow_succ, Nat.div_div_eq_div_mul]
    have whole : 2 ^ k * (m / 2 ^ k) ≤ m := Nat.mul_div_le m (2 ^ k)
    rw [next, ExtendedMantissa.shiftRightOne, mantissa, half]
    refine ⟨rfl, fun odd => ?_⟩
    have rest : m / 2 ^ k = 2 * (m / 2 ^ k / 2) + 1 := by
      have bit : m / 2 ^ k % 2 ≠ 0 := by simpa using odd
      omega
    rw [rest] at whole
    rw [Nat.pow_succ]
    nlinarith

private theorem rounded_bounds (m k : Nat) :
    m / 2 ^ k ≤ ((ExtendedMantissa.mk m false false) >>> k).roundedMantissa ∧
      ((ExtendedMantissa.mk m false false) >>> k).roundedMantissa ≤ m / 2 ^ k + 1 ∧
      2 * (2 ^ k * ((ExtendedMantissa.mk m false false) >>> k).roundedMantissa) ≤ 2 * m +
        2 ^ k := by
  obtain ⟨mantissa, above⟩ := shift_mantissa m k
  have whole : 2 ^ k * (m / 2 ^ k) ≤ m := Nat.mul_div_le m (2 ^ k)
  generalize (ExtendedMantissa.mk m false false) >>> k = shifted at mantissa above
  obtain ⟨q, round, sticky⟩ := shifted
  dsimp only at mantissa above
  subst mantissa
  cases round with
  | false =>
    have down : (ExtendedMantissa.mk (m / 2 ^ k) false sticky).roundedMantissa = m / 2 ^ k := by
      cases sticky <;> rfl
    rw [down]
    exact ⟨Nat.le_refl _, Nat.le_succ _, Nat.le_trans (Nat.mul_le_mul_left 2 whole)
      (Nat.le_add_right _ _)⟩
  | true =>
    have upper : (ExtendedMantissa.mk (m / 2 ^ k) true sticky).roundedMantissa ≤ m / 2 ^ k + 1 := by
      cases sticky
      · change m / 2 ^ k + m / 2 ^ k % 2 ≤ m / 2 ^ k + 1
        omega
      · exact Nat.le_refl _
    have lower : m / 2 ^ k ≤ (ExtendedMantissa.mk (m / 2 ^ k) true sticky).roundedMantissa := by
      cases sticky
      · exact Nat.le_add_right _ _
      · exact Nat.le_succ _
    have half := above rfl
    have scaled := Nat.mul_le_mul_left (2 ^ k) upper
    rw [Nat.mul_add, Nat.mul_one] at scaled
    exact ⟨lower, upper, by omega⟩

/-- The significand and the exponent of a double of at least `2 ^ (-1022)`. -/
structure IsNormal (m : Nat) (e : ℤ) : Prop where
  full : 2 ^ 52 ≤ m
  small : m < 2 ^ 53
  least : -1074 ≤ e
  greatest : e ≤ 971

private theorem targetExponent_eq {m : Nat} {e : ℤ} (least : -1022 ≤ m.log2 + e) :
    Format.binary64.targetExponent (totalExponent m e) = m.log2 + e - 52 := by
  unfold Format.targetExponent Format.minExponent Format.mantissaBits totalExponent
  simp only
  omega

private theorem shiftToTargetExponent_eq {m k : Nat} {e : ℤ} (bits : m.log2 = 52 + k)
    (least : -1022 ≤ m.log2 + e) :
    shiftToTargetExponent .binary64 m e .exact =
      ((ExtendedMantissa.mk m false false) >>> k, e + k) := by
  have amount : ((m.log2 : ℤ) + e - 52 - e).toNat = k := by omega
  simp only [shiftToTargetExponent, shiftToExponent, targetExponent_eq least, amount]
  rfl

private theorem exists_shiftToTargetExponent {m : Nat} {e : ℤ} (full : 2 ^ 52 ≤ m)
    (small : m ≤ 2 ^ 53) (least : -1074 ≤ e) :
    ∃ shifted e', shiftToTargetExponent .binary64 m e .exact = (shifted, e') ∧
      2 ^ 52 ≤ shifted.mantissa ∧
      shifted.mantissa < 2 ^ 53 ∧ e ≤ e' ∧ (shifted.mantissa : ℚ) * 2 ^ e' = m * 2 ^ e := by
  rcases Nat.lt_or_ge m (2 ^ 53) with inside | top
  · have bits : m.log2 = 52 + 0 := (Nat.log2_eq_iff (by omega)).mpr ⟨full, inside⟩
    refine ⟨_, _, shiftToTargetExponent_eq bits (by omega), full, inside, by omega, ?_⟩
    simp [HShiftRight.hShiftRight, Nat.repeat]
  · obtain rfl : m = 2 ^ 53 := by omega
    have bits : (2 ^ 53).log2 = 52 + 1 := by decide
    refine ⟨_, _, shiftToTargetExponent_eq bits (by omega), by decide, by decide, by omega, ?_⟩
    have half : ((ExtendedMantissa.mk (2 ^ 53) false false) >>> 1).mantissa = 2 ^ 52 := rfl
    rw [half, zpow_add₀ (by norm_num)]
    norm_num
    ring

private theorem leading_bounds {m : Nat} {e : ℤ} (least : (1 : ℚ) ≤ m * 2 ^ e)
    (below : (m : ℚ) * 2 ^ e < overflow) :
    2 ^ m.log2 ≤ m ∧ m < 2 ^ (m.log2 + 1) ∧ 0 ≤ (m.log2 : ℤ) + e ∧ (m.log2 : ℤ) + e < 1024 := by
  have unit : (0 : ℚ) < 2 ^ e := zpow_pos (by norm_num) e
  have some_ : m ≠ 0 := by
    rintro rfl
    norm_num at least
  have lower : 2 ^ m.log2 ≤ m := Nat.log2_self_le some_
  have upper : m < 2 ^ (m.log2 + 1) := Nat.lt_log2_self
  refine ⟨lower, upper, ?_, ?_⟩
  · have less : (m : ℚ) < 2 ^ ((m.log2 : ℤ) + 1) := by exact_mod_cast upper
    have value : (1 : ℚ) < 2 ^ ((m.log2 : ℤ) + 1 + e) := by
      rw [zpow_add₀ (by norm_num)]
      exact lt_of_le_of_lt least (mul_lt_mul_of_pos_right less unit)
    have above := (one_lt_zpow_iff_right₀ (by norm_num : (1 : ℚ) < 2)).mp value
    omega
  · have power : (2 : ℚ) ^ m.log2 ≤ m := by exact_mod_cast lower
    have value : (2 : ℚ) ^ ((m.log2 : ℤ) + e) ≤ m * 2 ^ e := by
      rw [zpow_add₀ (by norm_num), zpow_natCast]
      exact mul_le_mul_of_nonneg_right power unit.le
    exact (zpow_lt_zpow_iff_right₀ (by norm_num : (1 : ℚ) < 2)).mp
      (value.trans_lt (below.trans overflow_lt))

theorem log2_mul_two_pow {m : Nat} (positive : 0 < m) (j : Nat) :
    (m * 2 ^ j).log2 = m.log2 + j := by
  induction j with
  | zero => rw [Nat.pow_zero, Nat.mul_one, Nat.add_zero]
  | succ j ih =>
    have some_ : m * 2 ^ j ≠ 0 := (Nat.mul_pos positive (Nat.pow_pos (by omega))).ne'
    rw [Nat.pow_succ, ← Nat.mul_assoc, Nat.mul_comm _ 2, Nat.log2_two_mul some_, ih, Nat.add_assoc]

theorem exists_round (s : Sign) {m : Nat} {e : ℤ} (positive : 0 < m) (least : -1022 ≤ m.log2 + e) :
    ∃ j : Nat, UnpackedFloat.round .binary64 s m e = roundWithAccuracy .binary64 s (m * 2 ^ j)
      (e - j) .exact ∧ 52 ≤ m.log2 + j ∧ ((m * 2 ^ j : Nat) : ℚ) * 2 ^ (e - j) = m * 2 ^ e := by
  refine ⟨(e - (m.log2 + e - 52)).toNat, ?_, by omega, ?_⟩
  · simp only [UnpackedFloat.round, decreaseExponent]
    rw [targetExponent_eq least, Nat.shiftLeft_eq]
  · rw [zpow_sub₀ (by norm_num), zpow_natCast]
    push_cast
    field_simp

/-- A significand of at least 53 bits is cut to 53 bits and rounded there: it does not fall below
what the cut leaves, and rises by half a unit of the last bit at most. -/
theorem exists_roundWithAccuracy (s : Sign) {m k : Nat} {e : ℤ} (bits : m.log2 = 52 + k)
    (least : -1022 ≤ m.log2 + e) :
    ∃ m' e' positive, roundWithAccuracy .binary64 s m e .exact = .finite s m' e' positive ∧
      2 ^ 52 ≤ m' ∧
      m' < 2 ^ 53 ∧ e + k ≤ e' ∧ (∀ q : Nat, 2 ^ k * q ≤ m → (q : ℚ) * 2 ^ (e + k) ≤ m' * 2 ^ e') ∧
      (m' : ℚ) * 2 ^ e' ≤ m * 2 ^ e + 2 ^ (e + k) / 2 := by
  have some_ : m ≠ 0 := by
    rintro rfl
    rw [Nat.log2_zero] at bits
    omega
  have lower : 2 ^ m.log2 ≤ m := Nat.log2_self_le some_
  have upper : m < 2 ^ (m.log2 + 1) := Nat.lt_log2_self
  obtain ⟨first, second, half⟩ := rounded_bounds m k
  have cut : 2 ^ 52 ≤ m / 2 ^ k ∧ m / 2 ^ k < 2 ^ 53 := by
    rw [Nat.le_div_iff_mul_le (Nat.pow_pos (by omega)),
      Nat.div_lt_iff_lt_mul (Nat.pow_pos (by omega)), ← Nat.pow_add, ← Nat.pow_add, ← bits,
      show 53 + k = m.log2 + 1 by omega]
    exact ⟨lower, upper⟩
  have cutAt := shiftToTargetExponent_eq bits least
  generalize rounded : ((ExtendedMantissa.mk m false false) >>> k).roundedMantissa =
    ρ at first second half
  -- A carry into the next bit is taken up by the exponent.
  obtain ⟨shifted, e', shift, full', small', le, same⟩ :=
    exists_shiftToTargetExponent (m := ρ) (e := e + k) (by omega) (by omega) (by omega)
  have positive : shifted.mantissa ≠ 0 := by omega
  refine ⟨shifted.mantissa, e', Nat.pos_of_ne_zero positive, ?_, full', small', le, ?_, ?_⟩
  · simp only [roundWithAccuracy, cutAt, rounded, shift, positive, dite_false]
  · intro q below
    have kept : q ≤ ρ := by
      rw [Nat.mul_comm] at below
      exact ((Nat.le_div_iff_mul_le (Nat.pow_pos (by omega))).mpr below).trans first
    rw [same]
    exact mul_le_mul_of_nonneg_right (by exact_mod_cast kept) (zpow_pos (by norm_num) _).le
  · have unit : (0 : ℚ) < 2 ^ e := zpow_pos (by norm_num) e
    have scaled : (2 : ℚ) * (2 ^ k * ρ) ≤ 2 * m + 2 ^ k := by exact_mod_cast half
    rw [same, zpow_add₀ (by norm_num), zpow_natCast]
    nlinarith

private theorem roundWithAccuracy_normal (s : Sign) {m : Nat} {e : ℤ} (full : 2 ^ 52 ≤ m)
    (least : (1 : ℚ) ≤ m * 2 ^ e) (below : (m : ℚ) * 2 ^ e < overflow) :
    ∃ m' e' positive, roundWithAccuracy .binary64 s m e .exact = .finite s m' e' positive ∧
      IsNormal m' e' ∧ (1 : ℚ) ≤ m' * 2 ^ e' ∧ (m' : ℚ) * 2 ^ e' ≤ m * 2 ^ e * slack ∧
      (m : ℚ) * 2 ^ e ≤ m' * 2 ^ e' * slack := by
  obtain ⟨lower, -, one, greatest⟩ := leading_bounds least below
  obtain ⟨k, bits⟩ : ∃ k, m.log2 = 52 + k :=
    Nat.exists_eq_add_of_le ((Nat.le_log2 (by omega)).mpr full)
  have leading : 2 ^ k * 2 ^ 52 ≤ m := by
    rwa [bits, Nat.add_comm, Nat.pow_add] at lower
  obtain ⟨m', e', positive, rounds, full', small', le, above, half⟩ :=
    exists_roundWithAccuracy s bits (e := e) (by omega)
  have unit : (0 : ℚ) < 2 ^ e := zpow_pos (by norm_num) e
  have last : (2 : ℚ) ^ (e + k) = 2 ^ e * 2 ^ k := by rw [zpow_add₀ (by norm_num), zpow_natCast]
  refine ⟨m', e', positive, rounds, ⟨full', small', by omega, ?_⟩, ?_, ?_, ?_⟩
  · by_contra beyond
    have units : (2 : ℚ) ^ (e + k) ≤ 2 ^ (971 : ℤ) := zpow_le_zpow_right₀ (by norm_num) (by omega)
    have top : (2 : ℚ) ^ 52 * 2 ^ (972 : ℤ) ≤ m' * 2 ^ e' := by
      apply mul_le_mul
      · exact_mod_cast full'
      · exact zpow_le_zpow_right₀ (by norm_num) (by omega)
      · exact (zpow_pos (by norm_num) _).le
      · exact Nat.cast_nonneg m'
    rw [overflow] at below
    rw [show (972 : ℤ) = 971 + 1 from rfl, zpow_add₀ (by norm_num)] at top
    linarith
  · calc (1 : ℚ) ≤ 2 ^ (52 + (e + k)) := one_le_zpow₀ (by norm_num) (by omega)
      _ = ((2 ^ 52 : Nat) : ℚ) * 2 ^ (e + k) := by
        rw [zpow_add₀ (by norm_num)]
        norm_num
      _ ≤ m' * 2 ^ e' := above (2 ^ 52) leading
  · have dropped : (2 : ℚ) ^ 52 * 2 ^ (e + k) ≤ m * 2 ^ e := by
      have power : (2 : ℚ) ^ k * 2 ^ 52 ≤ m := by exact_mod_cast leading
      rw [last]
      nlinarith
    rw [slack]
    linarith
  · -- The cut loses less than a unit of the last place, and 2 ^ 52 of these are left.
    have kept : (2 : ℚ) ^ 52 * 2 ^ (e + k) ≤ m' * 2 ^ e' := by exact_mod_cast above (2 ^ 52) leading
    have floor := above (m / 2 ^ k) (Nat.mul_div_le m _)
    have next : (m : ℚ) ≤ 2 ^ k * ((m / 2 ^ k : Nat) + 1) := by
      exact_mod_cast (Nat.lt_mul_div_succ m (Nat.pow_pos (by omega))).le
    have cut : (m : ℚ) * 2 ^ e ≤ (m / 2 ^ k : Nat) * 2 ^ (e + k) + 2 ^ (e + k) := by
      rw [last]
      nlinarith
    rw [slack]
    linarith

theorem unpack_pack_normal (s : Sign) {m : Nat} {e : ℤ} (positive : 0 < m) (normal : IsNormal m e) :
    unpack .binary64 (pack .binary64 (.finite s m e positive)) = .finite s m e positive := by
  obtain ⟨full, small, least, greatest⟩ := normal
  have bits : m.log2 = 52 := (Nat.log2_eq_iff (by omega)).mpr ⟨full, small⟩
  obtain ⟨biased, exponent⟩ : ∃ biased : Nat, e = biased - 1075 := ⟨(e + 1075).toNat, by omega⟩
  have bias : ((Format.binary64.exponentBias : ℤ)) = 1023 := rfl
  have stored : (e + Format.binary64.exponentBias + (52 : Nat)).toNat = biased := by
    rw [bias]
    omega
  have packed : pack .binary64 (.finite s m e positive) =
      packComponents .binary64 s (BitVec.ofNat _ biased) (BitVec.ofNat _ m) := by
    simp only [UnpackedFloat.pack, stored, bits]
    rw [if_neg (by omega), if_pos (show 52 + 1 = Format.binary64.mantissaBits from rfl)]
  have exponentBits : (BitVec.ofNat 11 biased).toNat = biased := by
    rw [BitVec.toNat_ofNat]
    exact Nat.mod_eq_of_lt (by omega)
  have inside : BitVec.ofNat 11 biased ≠ -1#11 := by
    intro top
    have all := congrArg BitVec.toNat top
    rw [exponentBits, show (-1#11).toNat = 2047 from rfl] at all
    omega
  have nonzero : BitVec.ofNat 11 biased ≠ 0#11 := by
    intro zero
    have none := congrArg BitVec.toNat zero
    rw [exponentBits, BitVec.toNat_zero] at none
    omega
  have significand : (1#1 ++ BitVec.ofNat 52 m).toNat = m := by
    have rest : (BitVec.ofNat 52 m).toNat = m - 2 ^ 52 := by
      rw [BitVec.toNat_ofNat]
      omega
    rw [BitVec.toNat_append, ← Nat.shiftLeft_add_eq_or_of_lt (BitVec.isLt _), rest,
      show (1#1).toNat <<< 52 = 2 ^ 52 from rfl]
    omega
  rw [packed]
  unfold UnpackedFloat.unpack
  simp only [unpackSign_packComponents, Sign.ofBitVec_toBitVec, unpackExponent_packComponents,
    unpackMantissa_packComponents]
  rw [if_neg inside, if_neg nonzero]
  congr 1
  · rw [exponentBits, bias]
    omega

/-- Whether an unpacked double lies between one and a value. -/
def within (v : ℚ) : UnpackedFloat → Prop
  | .finite .positive m e _ => 2 ^ 52 ≤ m ∧ (1 : ℚ) ≤ m * 2 ^ e ∧ (m : ℚ) * 2 ^ e ≤ v
  | _ => False

theorem within.mono {v w : ℚ} {u : UnpackedFloat} (h : within v u) (le : v ≤ w) : within w u := by
  rcases u with _ | _ | _ | ⟨_ | _, m, e, positive⟩ <;> try exact h.elim
  exact ⟨h.1, h.2.1, h.2.2.trans le⟩

private theorem exists_unpack_round {m : Nat} {e : ℤ} (full : 2 ^ 52 ≤ m)
    (least : (1 : ℚ) ≤ m * 2 ^ e) (below : (m : ℚ) * 2 ^ e < overflow) :
    ∃ m' e' positive, unpack .binary64 (UnpackedFloat.pack .binary64
        (roundWithAccuracy .binary64 .positive m e .exact)) = .finite .positive m' e' positive ∧
      2 ^ 52 ≤ m' ∧ (1 : ℚ) ≤ m' * 2 ^ e' ∧ (m' : ℚ) * 2 ^ e' ≤ m * 2 ^ e * slack ∧
      (m : ℚ) * 2 ^ e ≤ m' * 2 ^ e' * slack := by
  obtain ⟨m', e', positive, rounded, normal, least', most', fewest'⟩ :=
    roundWithAccuracy_normal .positive full least below
  exact ⟨m', e', positive, by rw [rounded, unpack_pack_normal _ positive normal], normal.full,
    least', most', fewest'⟩

private theorem within_round {m : Nat} {e : ℤ} {v : ℚ} (full : 2 ^ 52 ≤ m)
    (least : (1 : ℚ) ≤ m * 2 ^ e) (most : (m : ℚ) * 2 ^ e ≤ v) (below : v < overflow) :
    within (v * slack) (unpack .binary64 (UnpackedFloat.pack .binary64
      (roundWithAccuracy .binary64 .positive m e .exact))) := by
  have slackNonneg : (0 : ℚ) ≤ slack := by norm_num [slack]
  obtain ⟨m', e', positive, rounded, full', least', most', -⟩ :=
    exists_unpack_round full least (most.trans_lt below)
  rw [rounded]
  exact ⟨full', least', most'.trans (mul_le_mul_of_nonneg_right most slackNonneg)⟩

private theorem exists_full_round {m : Nat} {e : ℤ} (positive : 0 < m) (least : (1 : ℚ) ≤ m * 2 ^ e)
    (below : (m : ℚ) * 2 ^ e < overflow) :
    ∃ m' e', UnpackedFloat.round .binary64 .positive m e =
        roundWithAccuracy .binary64 .positive m' e' .exact ∧
      2 ^ 52 ≤ m' ∧ (m' : ℚ) * 2 ^ e' = m * 2 ^ e := by
  obtain ⟨-, -, leading, -⟩ := leading_bounds least below
  obtain ⟨j, same, bits, value⟩ := exists_round .positive positive (e := e) (by omega)
  refine ⟨m * 2 ^ j, e - j, same, ?_, value⟩
  have some_ : m * 2 ^ j ≠ 0 := (Nat.mul_pos positive (Nat.pow_pos (by omega))).ne'
  rwa [← Nat.le_log2 some_, log2_mul_two_pow positive]

private theorem within_rounded {m : Nat} {e : ℤ} {v : ℚ} (positive : 0 < m)
    (least : (1 : ℚ) ≤ m * 2 ^ e) (most : (m : ℚ) * 2 ^ e ≤ v) (below : v < overflow) :
    within (v * slack) (unpack .binary64
      (UnpackedFloat.pack .binary64 (UnpackedFloat.round .binary64 .positive m e))) := by
  obtain ⟨m', e', same, full, value⟩ := exists_full_round positive least (most.trans_lt below)
  rw [← value] at least most
  rw [same]
  exact within_round full least most below

/-- The value of an unpacked double without its sign, zero for one that is not finite. -/
def size : UnpackedFloat → ℚ
  | .finite _ m e _ => m * 2 ^ e
  | _ => 0

theorem size_rounded {m : Nat} {e : ℤ} (positive : 0 < m) (least : (1 : ℚ) ≤ m * 2 ^ e)
    (below : (m : ℚ) * 2 ^ e < overflow) :
    size (unpack .binary64 (UnpackedFloat.pack .binary64
        (UnpackedFloat.round .binary64 .positive m e))) ≤ m * 2 ^ e * slack ∧
      m * 2 ^ e ≤ size (unpack .binary64 (UnpackedFloat.pack .binary64
        (UnpackedFloat.round .binary64 .positive m e))) * slack := by
  obtain ⟨m', e', same, full, value⟩ := exists_full_round positive least below
  rw [← value] at least below ⊢
  obtain ⟨m'', e'', positive', rounded, -, -, most, fewest⟩ := exists_unpack_round full least below
  rw [same, rounded]
  exact ⟨most, fewest⟩

/-- Whether a double lies between one and a value. -/
def Within (x : Float) (v : ℚ) : Prop :=
  within v x.toModel.unpack

theorem Within.isInf {x : Float} {v : ℚ} (h : Within x v) : x.isInf = false := by
  change x.toModel.unpack.isInf = false
  unfold Within at h
  cases found : x.toModel.unpack with
  | finite => rfl
  | _ => rw [found] at h; exact h.elim

theorem Within.mul {x y : Float} {v w : ℚ} (hx : Within x v) (hy : Within y w)
    (below : v * w < overflow) :
    Within (x * y) (v * w * slack) := by
  have product : (x * y).toModel.unpack = unpack .binary64 (UnpackedFloat.pack .binary64
      (UnpackedFloat.mul .binary64 x.toModel.unpack y.toModel.unpack)) := rfl
  unfold Within at hx hy ⊢
  rw [product]
  generalize x.toModel.unpack = u at hx
  generalize y.toModel.unpack = t at hy
  rcases u with _ | _ | _ | ⟨_ | _, m, e, positive⟩ <;> try exact hx.elim
  rcases t with _ | _ | _ | ⟨_ | _, m', e', positive'⟩ <;> try exact hy.elim
  obtain ⟨full, least, most⟩ := hx
  obtain ⟨full', least', most'⟩ := hy
  have value : ((m * m' : Nat) : ℚ) * 2 ^ (e + e') = (m * 2 ^ e) * (m' * 2 ^ e') := by
    rw [zpow_add₀ (by norm_num)]
    push_cast
    ring
  refine within_round ?_ ?_ ?_ below
  · exact full.trans (Nat.le_mul_of_pos_right m positive')
  · rw [value]
    exact one_le_mul_of_one_le_of_one_le least least'
  · rw [value]
    exact mul_le_mul most most' (zero_le_one.trans least') (zero_le_one.trans (least.trans most))

private theorem within_ofNat {n : Nat} (positive : 0 < n) (below : (n : ℚ) < overflow) :
    within (n * slack) (unpack .binary64
      (UnpackedFloat.pack .binary64 (UnpackedFloat.ofNat .binary64 n))) := by
  have rounds : UnpackedFloat.ofNat .binary64 n =
      UnpackedFloat.round .binary64 .positive n 0 := by
    have sign : compare (n : ℤ) 0 = .gt := Int.compare_eq_gt.mpr (by omega)
    simp only [UnpackedFloat.ofNat, UnpackedFloat.ofInt, UnpackedFloat.normalize, sign,
      Int.toNat_natCast]
  have value : (n : ℚ) * 2 ^ (0 : ℤ) = n := by rw [zpow_zero, mul_one]
  rw [rounds]
  refine within_rounded positive ?_ value.le below
  rw [value]
  exact_mod_cast positive

private theorem within_ofScientific {m k : Nat} (positive : 0 < m) (small : k ≤ 308)
    (below : (m * 10 ^ k : ℚ) < overflow) :
    within (m * 10 ^ k * slack)
      (unpack .binary64
        (UnpackedFloat.pack .binary64 (UnpackedFloat.ofScientific .binary64 m k))) := by
  have rounds : UnpackedFloat.ofScientific .binary64 m k =
      roundWithAccuracy .binary64 .positive (m * 2 ^ 53 * 10 ^ k) (-53 + 0) .exact := by
    have limit : ¬((k : ℤ) > 2 ^ Format.binary64.exponentBits) := by
      change ¬((2 : ℤ) ^ 11 < k)
      omega
    have limit' : ¬((k : ℤ) < -((2 ^ Format.binary64.exponentBits : ℤ) + m.log2)) := by
      change ¬((k : ℤ) < -((2 : ℤ) ^ 11 + m.log2))
      omega
    rw [UnpackedFloat.ofScientific, dif_neg (by omega), if_neg limit, if_neg limit',
      if_pos (by omega), UnpackedFloat.mul, Nat.shiftLeft_eq]
    rfl
  have value : ((m * 2 ^ 53 * 10 ^ k : Nat) : ℚ) * 2 ^ (-53 + 0 : ℤ) = m * 10 ^ k := by
    push_cast
    norm_num
    ring
  have full : 2 ^ 52 ≤ m * 2 ^ 53 * 10 ^ k :=
    calc 2 ^ 52 ≤ m * 2 ^ 53 := by omega
      _ ≤ m * 2 ^ 53 * 10 ^ k := Nat.le_mul_of_pos_right _ (Nat.pow_pos (by omega))
  rw [rounds]
  refine within_round full ?_ value.le below
  rw [value]
  exact_mod_cast Nat.mul_pos positive (Nat.pow_pos (by omega))

def isPower (k : Nat) : UnpackedFloat → Bool
  | .finite .positive m e _ => 2 ^ 52 ≤ m && -52 ≤ e && m * 2 ^ (e + 52).toNat == 10 ^ k * 2 ^ 52
  | _ => false

private theorem within_power {k : Nat} (small : k < Float.exactlyRepresentablePowersOfTen.size) :
    Within Float.exactlyRepresentablePowersOfTen[k] (10 ^ k) := by
  have all : ∀ k : Fin 23, isPower k (Float.exactlyRepresentablePowersOfTen[k]).toModel.unpack := by
    decide
  have power : isPower k (Float.exactlyRepresentablePowersOfTen[k]).toModel.unpack := all ⟨k, small⟩
  unfold Within
  generalize (Float.exactlyRepresentablePowersOfTen[k]).toModel.unpack = u at power
  rcases u with _ | _ | _ | ⟨_ | _, m, e, positive⟩ <;> try cases power
  simp only [isPower, Bool.and_eq_true, decide_eq_true_eq, beq_iff_eq] at power
  obtain ⟨⟨full, least⟩, whole⟩ := power
  have value : (m : ℚ) * 2 ^ e = 10 ^ k := by
    have scaled : (m : ℚ) * 2 ^ (e + 52).toNat = 10 ^ k * 2 ^ 52 := by exact_mod_cast whole
    have exponent : (2 : ℚ) ^ (e + 52).toNat = 2 ^ e * 2 ^ 52 := by
      rw [← zpow_natCast, Int.toNat_of_nonneg (by omega), zpow_add₀ (by norm_num)]
      norm_num
    rw [exponent, ← mul_assoc] at scaled
    exact mul_right_cancel₀ (by norm_num) scaled
  refine ⟨full, ?_, value.le⟩
  rw [value]
  exact one_le_pow₀ (by norm_num)

theorem within_decimal {m k : Nat} (positive : 0 < m) (small : k ≤ 308)
    (below : (m * 10 ^ k * slack : ℚ) < overflow) :
    Within (Float.ofScientific m false k) (m * 10 ^ k * slack * slack) := by
  have grows {v : ℚ} (nonneg : 0 ≤ v) : v ≤ v * slack := by
    rw [slack]
    linarith
  have value : (0 : ℚ) ≤ m * 10 ^ k := by positivity
  unfold Float.ofScientific
  split
  · next short =>
    have number : Within m.toUInt64.toFloat (m * slack) := by
      have word : m.toUInt64.toNat = m := Nat.mod_eq_of_lt (by omega)
      have whole : (m : ℚ) ≤ m * 10 ^ k :=
        le_mul_of_one_le_right (by positivity) (one_le_pow₀ (by norm_num))
      have rounds := within_ofNat positive (whole.trans_lt ((grows value).trans_lt below))
      change within _
        (unpack .binary64
          (UnpackedFloat.pack .binary64 (UnpackedFloat.ofNat .binary64 m.toUInt64.toNat)))
      rwa [word]
    have power :=
      within_power
        (show k < Float.exactlyRepresentablePowersOfTen.size from Nat.lt_succ_of_le short.2)
    have product := number.mul power (by linarith)
    rwa [show (m : ℚ) * slack * 10 ^ k = m * 10 ^ k * slack by ring] at product
  · have rounds := within_ofScientific positive small ((grows value).trans_lt below)
    exact rounds.mono (grows (value.trans (grows value)))

end AuditPanel.Double
