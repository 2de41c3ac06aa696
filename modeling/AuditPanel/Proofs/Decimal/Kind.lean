import AuditPanel.Decimal.Layout
import AuditPanel.Proofs.Rounding

/-!
Finite doubles taken apart. The parts of a double have the size of its value, and what is written in
decimal places is off by half a unit of the last place at most.
-/

set_option autoImplicit false

namespace AuditPanel.Decimal

open Float.Model Float.Model.UnpackedFloat

private theorem toNat_unpackExponent (b : BitVec 64) :
    (@unpackExponent Format.binary64 b).toNat = (b.toNat >>> 52) % (1 <<< 11) := by
  simp only [unpackExponent, BitVec.toNat_cast, BitVec.extractLsb_toNat]
  rfl

private theorem toNat_unpackMantissa (b : BitVec 64) :
    (@unpackMantissa Format.binary64 b).toNat = b.toNat % (1 <<< 52) := by
  simp only [unpackMantissa, BitVec.toNat_cast, BitVec.extractLsb_toNat, Nat.shiftRight_zero]
  rfl

theorem exists_kind_eq {x : Float} (finite : x.isFinite = true) : ∃ p, kind x = .finite p := by
  -- All bits of the exponent are left to the infinities and to what is no number.
  have exponent : ((x.toBits.toNat >>> 52) % (1 <<< 11) == 2047) = false := by
    rw [beq_eq_false_iff_ne]
    intro top
    have all : @unpackExponent Format.binary64 x.toModel.toBits.toBitVec = -1#_ := by
      apply BitVec.eq_of_toNat_eq
      rw [toNat_unpackExponent]
      exact top
    change (UnpackedFloat.unpack Format.binary64 x.toModel.toBits.toBitVec).isFinite =
      true at finite
    unfold UnpackedFloat.unpack at finite
    simp only [all, if_true] at finite
    split at finite <;> cases finite
  simp only [kind, exponent, Bool.false_eq_true, if_false]
  split_ifs
  · exact ⟨_, rfl⟩
  · exact ⟨_, rfl⟩

theorem isNaN_isInf_of_isFinite {x : Float} (finite : x.isFinite = true) :
    x.isNaN = false ∧ x.isInf = false := by
  change x.toModel.unpack.isFinite = true at finite
  change x.toModel.unpack.isNaN = false ∧ x.toModel.unpack.isInf = false
  cases found : x.toModel.unpack with
  | infinity => simp [found, UnpackedFloat.isFinite] at finite
  | notANumber => simp [found, UnpackedFloat.isFinite] at finite
  | zero => exact ⟨rfl, rfl⟩
  | finite => exact ⟨rfl, rfl⟩

theorem isFinite_of_not_isNaN_isInf {x : Float} (bounded : x.isNaN = false ∧ x.isInf = false) :
    x.isFinite = true := by
  change x.toModel.unpack.isNaN = false ∧ x.toModel.unpack.isInf = false at bounded
  change x.toModel.unpack.isFinite = true
  cases found : x.toModel.unpack with
  | infinity => simp [found, UnpackedFloat.isInf] at bounded
  | notANumber => simp [found, UnpackedFloat.isNaN] at bounded
  | zero => rfl
  | finite => rfl

theorem kind_bounds {x : Float} {p : Parts} (taken : kind x = .finite p) :
    p.significand < 2 ^ 53 ∧ p.exponent ≤ 971 := by
  have word : x.toBits.toNat < 2 ^ 64 := x.toBits.toNat_lt
  unfold kind at taken
  simp only [Nat.shiftRight_eq_div_pow, Nat.shiftLeft_eq, Nat.one_mul, binadeStart,
    leastExponent] at taken
  split at taken
  · split at taken <;> cases taken
  · next inside =>
    rw [beq_iff_eq] at inside
    split at taken
    · cases taken
      dsimp only
      omega
    · cases taken
      dsimp only
      omega

theorem powerOfTwo_value (e : Int) :
    0 < (powerOfTwo e).2 ∧ ((powerOfTwo e).1 : ℚ) = 2 ^ e * (powerOfTwo e).2 := by
  unfold powerOfTwo
  rcases Int.lt_or_le e 0 with fine | whole
  · obtain ⟨k, rfl⟩ : ∃ k : Nat, e = -k := ⟨e.natAbs, by omega⟩
    rw [if_neg (by omega)]
    simp only [Int.neg_neg, Int.toNat_natCast, Nat.shiftLeft_eq, Nat.one_mul]
    refine ⟨Nat.pow_pos (by omega), ?_⟩
    push_cast
    rw [zpow_neg, zpow_natCast, inv_mul_cancel₀ (by positivity)]
  · obtain ⟨k, rfl⟩ : ∃ k : Nat, e = k := ⟨e.toNat, by omega⟩
    rw [if_pos whole]
    simp only [Int.toNat_natCast, Nat.shiftLeft_eq, Nat.one_mul]
    refine ⟨Nat.one_pos, ?_⟩
    push_cast
    rw [zpow_natCast, mul_one]

/-- The value of a finite double without its sign. -/
def Parts.size (p : Parts) : ℚ :=
  p.significand * 2 ^ p.exponent

/-- The value of a double without its sign, zero for one that is not finite. -/
def Kind.size : Kind → ℚ
  | .finite p => p.size
  | _ => 0

theorem size_kind (x : Float) : (kind x).size = Double.size x.toModel.unpack := by
  have exponent := toNat_unpackExponent x.toModel.toBits.toBitVec
  have significand := toNat_unpackMantissa x.toModel.toBits.toBitVec
  change _ = Double.size (UnpackedFloat.unpack Format.binary64 x.toModel.toBits.toBitVec)
  change _ = (x.toBits.toNat >>> 52) % (1 <<< 11) at exponent
  change _ = x.toBits.toNat % binadeStart at significand
  generalize x.toModel.toBits.toBitVec = b at exponent significand ⊢
  simp only [kind, ← exponent, ← significand]
  unfold UnpackedFloat.unpack
  simp only
  have top : @unpackExponent Format.binary64 b = -1#_ ↔
      ((@unpackExponent Format.binary64 b).toNat == 2047) = true := by
    rw [beq_iff_eq, ← BitVec.toNat_inj]
    rfl
  have zero : @unpackExponent Format.binary64 b = 0#_ ↔
      ((@unpackExponent Format.binary64 b).toNat == 0) = true := by
    rw [beq_iff_eq, ← BitVec.toNat_inj]
    rfl
  by_cases all : @unpackExponent Format.binary64 b = -1#_
  · rw [if_pos (top.mp all), if_pos all]
    split <;> split <;> rfl
  rw [if_neg (mt top.mpr all), if_neg all]
  by_cases none_ : @unpackExponent Format.binary64 b = 0#_
  · rw [if_pos (zero.mp none_), if_pos none_]
    split
    · next empty =>
      rw [empty]
      exact zero_mul _
    · rw [none_]
      rfl
  · rw [if_neg (mt zero.mpr none_), if_neg none_]
    have some_ : 0 < (@unpackExponent Format.binary64 b).toNat := by
      rw [zero, beq_iff_eq] at none_
      omega
    have first : ((1#1 ++ @unpackMantissa Format.binary64 b : BitVec _).toNat : ℚ) =
        ((binadeStart + (@unpackMantissa Format.binary64 b).toNat : Nat) : ℚ) := by
      rw [BitVec.toNat_append, ← Nat.shiftLeft_add_eq_or_of_lt (BitVec.isLt _)]
      rfl
    have same : leastExponent + ((@unpackExponent Format.binary64 b).toNat - 1 : Nat) =
        (@unpackExponent Format.binary64 b).toNat - (1023 + 52) := by
      unfold leastExponent
      omega
    change ((binadeStart + _ : Nat) : ℚ) * 2 ^ _ = _ * 2 ^ _
    rw [same, ← first]
    rfl

private theorem roundDiv_near (num : Nat) {den : Nat} (positive : 0 < den) :
    |(roundDiv num den : ℚ) - num / den| ≤ 1 / 2 := by
  have some_ : (0 : ℚ) < den := by exact_mod_cast positive
  have parts : (den : ℚ) * (num / den : Nat) + (num % den : Nat) = num := by
    exact_mod_cast Nat.div_add_mod num den
  have value : (num : ℚ) / den = (num / den : Nat) + (num % den : Nat) / den := by
    rw [← parts]
    field_simp
  have below : num % den < den := Nat.mod_lt _ positive
  have most : ((num % den : Nat) : ℚ) / den ≤ 1 := by
    rw [div_le_one some_]
    exact_mod_cast below.le
  have least : (0 : ℚ) ≤ ((num % den : Nat) : ℚ) / den := by positivity
  have down (half : 2 * (num % den) ≤ den) : ((num % den : Nat) : ℚ) / den ≤ 1 / 2 := by
    rw [div_le_div_iff₀ some_ two_pos]
    have half' : (2 : ℚ) * (num % den : Nat) ≤ den := by exact_mod_cast half
    linarith
  have up (half : den ≤ 2 * (num % den)) : 1 / 2 ≤ ((num % den : Nat) : ℚ) / den := by
    rw [div_le_div_iff₀ two_pos some_]
    have half' : (den : ℚ) ≤ 2 * (num % den : Nat) := by exact_mod_cast half
    linarith
  rw [abs_le, value, roundDiv]
  split
  · have := down (by omega)
    constructor <;> linarith
  · have := up (by omega)
    split
    · push_cast
      constructor <;> linarith
    · have := down (by omega)
      split
      · constructor <;> linarith
      · push_cast
        constructor <;> linarith

theorem Parts.inPlaces_near (p : Parts) (places : Nat) :
    |(p.inPlaces places : ℚ) - p.size * 10 ^ places| ≤ 1 / 2 := by
  obtain ⟨positive, power⟩ := powerOfTwo_value p.exponent
  have some_ : ((powerOfTwo p.exponent).2 : ℚ) ≠ 0 := by exact_mod_cast positive.ne'
  have value : p.size * 10 ^ places =
      ((p.significand * (powerOfTwo p.exponent).1 * powerOfTen places : Nat) : ℚ) /
        (powerOfTwo p.exponent).2 := by
    rw [eq_div_iff some_, size]
    push_cast [powerOfTen, Nat.pow_eq]
    rw [power]
    ring
  rw [value]
  exact roundDiv_near _ positive

end AuditPanel.Decimal
