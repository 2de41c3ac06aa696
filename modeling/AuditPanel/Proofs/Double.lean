import AuditPanel.Consensus.Scoring
import Mathlib

/-!
Doubles without a minus sign. Products and quotients of such doubles have none either, and once they
are kept within one, the only thing that can go wrong with them is to be no number. The facts about
the bits of a double, such as `Float.Model.UnpackedFloat.unpack_inj_of_valid`, are imported with the
whole library, as no smaller part of it has them.
-/

set_option autoImplicit false

namespace AuditPanel.Double

open Float.Model Float.Model.UnpackedFloat

/-- Whether a double is no number or has no minus sign. -/
def unsigned : UnpackedFloat → Bool
  | .infinity .negative => false
  | .zero .negative => false
  | .finite .negative .. => false
  | _ => true

/-- Whether a double is finite and has no minus sign. -/
def isAmount : UnpackedFloat → Bool
  | .zero .positive => true
  | .finite .positive .. => true
  | _ => false

theorem unsigned_of_isAmount {u : UnpackedFloat} (h : isAmount u) : unsigned u := by
  rcases u with (_ | _) | _ | (_ | _) | ⟨_ | _, m, e, pos⟩ <;> first | rfl | cases h

theorem isAmount_roundWithAccuracy (spec : Format) (m : Nat) (e : Int) (acc : Accuracy) :
    isAmount (roundWithAccuracy spec .positive m e acc) := by
  unfold roundWithAccuracy
  simp only
  split <;> rfl

section Operations

variable (spec : Format) {u v : UnpackedFloat}

private theorem isAmount_mul (hu : isAmount u) (hv : isAmount v) :
    isAmount (UnpackedFloat.mul spec u v) := by
  rcases u with (_ | _) | _ | (_ | _) | ⟨_ | _, m, e, pos⟩ <;> try cases hu
  all_goals rcases v with (_ | _) | _ | (_ | _) | ⟨_ | _, m', e', pos'⟩ <;> try cases hv
  all_goals first | rfl | exact isAmount_roundWithAccuracy _ _ _ _

private theorem unsigned_mul (hu : unsigned u) (hv : unsigned v) :
    unsigned (UnpackedFloat.mul spec u v) := by
  rcases u with (_ | _) | _ | (_ | _) | ⟨_ | _, m, e, pos⟩ <;> try cases hu
  all_goals rcases v with (_ | _) | _ | (_ | _) | ⟨_ | _, m', e', pos'⟩ <;> try cases hv
  all_goals first | rfl | exact unsigned_of_isAmount (isAmount_roundWithAccuracy _ _ _ _)

private theorem unsigned_div (hu : unsigned u) (hv : unsigned v) :
    unsigned (UnpackedFloat.div spec u v) := by
  rcases u with (_ | _) | _ | (_ | _) | ⟨_ | _, m, e, pos⟩ <;> try cases hu
  all_goals rcases v with (_ | _) | _ | (_ | _) | ⟨_ | _, m', e', pos'⟩ <;> try cases hv
  all_goals first | rfl | exact unsigned_of_isAmount (isAmount_roundWithAccuracy _ _ _ _)

private theorem unsigned_ofScientific (m : Nat) (e : Int) :
    unsigned (UnpackedFloat.ofScientific spec m e) := by
  unfold UnpackedFloat.ofScientific
  split
  · rfl
  split
  · rfl
  split
  · rfl
  split
  · exact unsigned_mul spec rfl rfl
  · exact unsigned_div spec rfl rfl

private theorem unsigned_ofNat (n : Nat) : unsigned (UnpackedFloat.ofNat spec n) := by
  unfold UnpackedFloat.ofNat UnpackedFloat.ofInt UnpackedFloat.normalize
  split
  · next below =>
    have negative : (n : Int) < 0 := Int.compare_eq_lt.mp below
    omega
  · rfl
  · exact unsigned_of_isAmount (isAmount_roundWithAccuracy _ _ _ _)

end Operations

section Packing

variable (spec : Format) (s : Sign) (e : BitVec spec.exponentBits)
  (m : BitVec spec.mantissaBitsWithoutImplicit)

private theorem unsigned_unpack_packComponents :
    unsigned (unpack spec (packComponents spec .positive e m)) := by
  unfold UnpackedFloat.unpack
  simp only [unpackSign_packComponents, Sign.ofBitVec_toBitVec]
  repeat' split
  all_goals rfl

private theorem isNaN_unpack_packComponents (h : e ≠ -1#_ ∨ m = 0#_) :
    (unpack spec (packComponents spec s e m)).isNaN = false := by
  unfold UnpackedFloat.unpack
  simp only [unpackExponent_packComponents, unpackMantissa_packComponents]
  split
  · next top =>
    rw [if_pos (h.resolve_left fun ne => ne top)]
    rfl
  · repeat' split
    all_goals rfl

variable {u : UnpackedFloat}

theorem unsigned_unpack_pack (h : unsigned u) :
    unsigned (unpack spec (UnpackedFloat.pack spec u)) := by
  rcases u with (_ | _) | _ | (_ | _) | ⟨_ | _, m, e, pos⟩ <;> try cases h
  · exact unsigned_unpack_packComponents _ _ _
  · exact unsigned_unpack_packComponents _ _ _
  · exact unsigned_unpack_packComponents _ _ _
  · unfold UnpackedFloat.pack
    simp only
    repeat' split
    all_goals exact unsigned_unpack_packComponents _ _ _

theorem isNaN_unpack_pack (h : u.isNaN = false) :
    (unpack Format.binary64 (UnpackedFloat.pack Format.binary64 u)).isNaN = false := by
  rcases u with s | _ | s | ⟨s, m, e, pos⟩
  · exact isNaN_unpack_packComponents _ s _ _ (.inr rfl)
  · cases h
  · exact isNaN_unpack_packComponents _ s _ _ (.inl (by decide))
  · unfold UnpackedFloat.pack
    simp only
    split
    · exact isNaN_unpack_packComponents _ s _ _ (.inr rfl)
    · next fits =>
      split
      · refine isNaN_unpack_packComponents _ s _ _ (.inl ?_)
        intro top
        have all := congrArg BitVec.toNat top
        rw [BitVec.toNat_ofNat, Nat.mod_eq_of_lt (by omega)] at all
        simp only [BitVec.neg_one_eq_allOnes, BitVec.toNat_allOnes] at all
        omega
      · exact isNaN_unpack_packComponents _ s _ _ (.inl (by decide))

end Packing

/-- Whether a double is no number or has no minus sign. -/
def Unsigned (x : Float) : Prop :=
  unsigned x.toModel.unpack

/-- Whether a double is finite and has no minus sign. -/
def Amount (x : Float) : Prop :=
  isAmount x.toModel.unpack

instance (x : Float) : Decidable (Unsigned x) :=
  inferInstanceAs (Decidable (_ = true))

instance (x : Float) : Decidable (Amount x) :=
  inferInstanceAs (Decidable (_ = true))

section Doubles

variable {x y : Float}

theorem Amount.unsigned (h : Amount x) : Unsigned x :=
  unsigned_of_isAmount h

theorem Unsigned.mul (hx : Unsigned x) (hy : Unsigned y) : Unsigned (x * y) :=
  unsigned_unpack_pack _ (unsigned_mul _ hx hy)

theorem Unsigned.div (hx : Unsigned x) (hy : Unsigned y) : Unsigned (x / y) :=
  unsigned_unpack_pack _ (unsigned_div _ hx hy)

theorem Amount.isNaN_mul (hx : Amount x) (hy : Amount y) : (x * y).isNaN = false := by
  have product := isAmount_mul Format.binary64 hx hy
  refine isNaN_unpack_pack ?_
  cases found : UnpackedFloat.mul Format.binary64 x.toModel.unpack y.toModel.unpack with
  | notANumber => simp [found, isAmount] at product
  | infinity _ => rfl
  | zero _ => rfl
  | finite _ _ _ _ => rfl

theorem unsigned_float_ofNat (n : Nat) : Unsigned (Float.ofNat n) := by
  have power : Unsigned Float.exactlyRepresentablePowersOfTen[0] := rfl
  show Unsigned (Float.ofScientific n false 0)
  unfold Float.ofScientific
  split
  · exact Unsigned.mul (unsigned_unpack_pack _ (unsigned_ofNat _ _)) power
  · exact unsigned_unpack_pack _ (unsigned_ofScientific _ _ _)

theorem amount_zero : Amount 0.0 := rfl

private theorem amount_one : Amount 1.0 := rfl

theorem unpack_zero : (0.0 : Float).toModel.unpack = .zero .positive := rfl

theorem lt_iff : x < y ↔ x.toModel.unpack.compare y.toModel.unpack = some .lt := by
  show Float.lt x y = true ↔ _
  unfold Float.lt
  rw [decide_eq_true_iff]
  show Float.Model.lt _ _ = true ↔ _
  simp [Float.Model.lt, UnpackedFloat.lt]

theorem Unsigned.not_lt_zero (h : Unsigned x) : ¬x < 0.0 := by
  rw [lt_iff, unpack_zero]
  unfold Unsigned at h
  generalize x.toModel.unpack = u at h ⊢
  rcases u with (_ | _) | _ | (_ | _) | ⟨_ | _, m, e, pos⟩ <;> try cases h
  all_goals simp [UnpackedFloat.compare]

theorem Unsigned.amount (h : Unsigned x) (number : x.isNaN = false) (bounded : ¬1.0 < x) :
    Amount x := by
  rw [lt_iff] at bounded
  have one := amount_one
  unfold Unsigned at h
  unfold Amount at one ⊢
  change x.toModel.unpack.isNaN = false at number
  generalize x.toModel.unpack = u at h number bounded ⊢
  generalize (1.0 : Float).toModel.unpack = v at one bounded
  rcases u with (_ | _) | _ | (_ | _) | ⟨_ | _, m, e, pos⟩ <;> try cases h
  · -- Every amount is under infinity.
    refine absurd ?_ bounded
    rcases v with (_ | _) | _ | (_ | _) | ⟨_ | _, m, e, pos⟩ <;> first | rfl | cases one
  · cases number
  · rfl
  · rfl

theorem Amount.isNaN (h : Amount x) : x.isNaN = false := by
  change x.toModel.unpack.isNaN = false
  unfold Amount at h
  generalize x.toModel.unpack = u at h ⊢
  rcases u with (_ | _) | _ | (_ | _) | ⟨_ | _, m, e, pos⟩ <;> first | rfl | cases h

private theorem Amount.eq_zero_or_lt (h : Amount x) : x = 0.0 ∨ 0.0 < x := by
  rw [lt_iff, unpack_zero]
  unfold Amount at h
  generalize found : x.toModel.unpack = u at h ⊢
  rcases u with (_ | _) | _ | (_ | _) | ⟨_ | _, m, e, pos⟩ <;> try cases h
  · left
    have bits :=
      (unpack_inj_of_valid x.toModel.valid (0.0 : Float).toModel.valid).mp
        (found.trans unpack_zero.symm)
    exact Float.toBits_inj.mp (UInt64.toBitVec_inj.mp bits)
  · exact .inr rfl

open Consensus

theorem Unsigned.smaller_one (h : Unsigned x) : Amount (smaller x 1.0) := by
  unfold smaller
  split
  · exact amount_one
  · next number =>
    split
    · exact amount_one
    · next bounded => exact h.amount (by simpa using number) bounded

theorem Unsigned.clamp_unit (h : Unsigned x) (number : x.isNaN = false) :
    Amount (clamp x 0.0 1.0) := by
  simp only [clamp, if_neg h.not_lt_zero]
  split
  · exact amount_one
  · next bounded => exact h.amount number bounded

theorem Amount.greater_zero (h : Amount x) : greater x 0.0 = x := by
  unfold greater
  rw [h.isNaN, if_neg (by decide), if_neg h.unsigned.not_lt_zero]

theorem Amount.zero_greater (h : Amount x) : greater 0.0 x = x := by
  unfold greater
  rw [amount_zero.isNaN, if_neg (by decide)]
  split
  · rfl
  · next under => exact (h.eq_zero_or_lt.resolve_right under).symm

theorem greater_self (x : Float) : greater x x = x := by
  unfold greater
  split
  · rfl
  · split <;> rfl

end Doubles

end AuditPanel.Double
