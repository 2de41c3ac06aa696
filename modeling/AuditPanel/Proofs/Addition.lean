import AuditPanel.Proofs.Rounding

/-!
Sums and differences of doubles, and their order. Sums of doubles that are not below zero are not
below zero either. Rounding leads no value past a double below it, so that a sum stays from a bound
on when nothing below zero is added, and the bound less such a sum is not above zero.
-/

set_option autoImplicit false

namespace AuditPanel.Double

open Float.Model Float.Model.UnpackedFloat

/-- Whether a double is zero or more. Minus zero is. -/
def isNonnegative : UnpackedFloat → Bool
  | .zero _ => true
  | .infinity .positive => true
  | .finite .positive .. => true
  | _ => false

private theorem isNonnegative_of_unsigned {u : UnpackedFloat} (h : unsigned u)
    (number : u.isNaN = false) :
    isNonnegative u := by
  rcases u with (_ | _) | _ | (_ | _) | ⟨_ | _, m, e, pos⟩ <;>
    simp_all [unsigned, isNonnegative, UnpackedFloat.isNaN]

private theorem isNaN_of_isNonnegative {u : UnpackedFloat} (h : isNonnegative u) :
    u.isNaN = false := by
  rcases u with (_ | _) | _ | (_ | _) | ⟨_ | _, m, e, pos⟩ <;> first | rfl | cases h

private theorem isNaN_roundWithAccuracy (spec : Format) (s : Sign) (m : Nat) (e : Int)
    (acc : Accuracy) :
    (roundWithAccuracy spec s m e acc).isNaN = false := by
  unfold roundWithAccuracy
  simp only
  split <;> rfl

private theorem isNaN_normalize (spec : Format) (m e : Int) (s : Sign) :
    (UnpackedFloat.normalize spec m e s).isNaN = false := by
  unfold UnpackedFloat.normalize
  split
  · exact isNaN_roundWithAccuracy _ _ _ _ _
  · rfl
  · exact isNaN_roundWithAccuracy _ _ _ _ _

private theorem isNonnegative_normalize (spec : Format) {m : Int} (h : 0 ≤ m) (e : Int) :
    isNonnegative (UnpackedFloat.normalize spec m e .positive) := by
  refine isNonnegative_of_unsigned ?_ (isNaN_normalize _ _ _ _)
  unfold UnpackedFloat.normalize
  split
  · next below =>
    have negative : m < 0 := Int.compare_eq_lt.mp below
    omega
  · rfl
  · exact unsigned_of_isAmount (isAmount_roundWithAccuracy _ _ _ _)

section Operations

variable (spec : Format) {u v : UnpackedFloat}

private theorem isNonnegative_add (hu : isNonnegative u) (hv : isNonnegative v) :
    isNonnegative (UnpackedFloat.add spec u v) := by
  rcases u with (_ | _) | _ | (_ | _) | ⟨_ | _, m, e, pos⟩ <;> try cases hu
  all_goals rcases v with (_ | _) | _ | (_ | _) | ⟨_ | _, m', e', pos'⟩ <;> try cases hv
  all_goals
    first
    | rfl
    | refine isNonnegative_normalize spec ?_ _
      exact Int.add_nonneg (Int.natCast_nonneg _) (Int.natCast_nonneg _)

private theorem isNaN_add (h : u.isNaN ∨ v.isNaN) : (UnpackedFloat.add spec u v).isNaN := by
  rcases u with _ | _ | _ | _ <;> rcases v with _ | _ | _ | _
    <;> first | rfl | simp [UnpackedFloat.isNaN] at h

theorem isNaN_sub (h : v.isNaN) : (UnpackedFloat.sub spec u v).isNaN := by
  rcases u with _ | _ | _ | _ <;> rcases v with _ | _ | _ | _ <;> first | rfl | cases h

theorem isNaN_finite_sub {s : Sign} {m : Nat} {e : Int} {pos : 0 < m} (h : v.isNaN = false) :
    (UnpackedFloat.sub spec (.finite s m e pos) v).isNaN = false := by
  rcases v with _ | _ | _ | _
  · rfl
  · cases h
  · rfl
  · exact isNaN_normalize _ _ _ _

end Operations

private theorem compare_swap (u v : UnpackedFloat) :
    v.compare u = (u.compare v).map Ordering.swap := by
  have lexicographic (e e' : Int) (m m' : Nat) : (compare e' e).then (compare m' m) =
      ((compare e e').then (compare m m')).swap := by
    rw [Ordering.swap_then, ← Std.OrientedCmp.eq_swap, ← Std.OrientedCmp.eq_swap]
  rcases u with (_ | _) | _ | (_ | _) | ⟨_ | _, m, e, pos⟩ <;>
    rcases v with (_ | _) | _ | (_ | _) | ⟨_ | _, m', e', pos'⟩ <;> try rfl
  · exact congrArg (fun order => some order.swap) (lexicographic _ _ _ _)
  · exact congrArg some (lexicographic _ _ _ _)

private theorem compare_eq_none_iff {u v : UnpackedFloat} :
    u.compare v = none ↔ u.isNaN ∨ v.isNaN := by
  rcases u with (_ | _) | _ | (_ | _) | ⟨_ | _, m, e, pos⟩ <;>
    rcases v with (_ | _) | _ | (_ | _) | ⟨_ | _, m', e', pos'⟩ <;>
    simp [UnpackedFloat.compare, UnpackedFloat.isNaN]

private theorem isNonnegative_unpack_pack {u : UnpackedFloat} (h : isNonnegative u) :
    isNonnegative (unpack Format.binary64 (UnpackedFloat.pack Format.binary64 u)) := by
  have number := isNaN_of_isNonnegative h
  by_cases plain : unsigned u
  · exact isNonnegative_of_unsigned (unsigned_unpack_pack _ plain) (isNaN_unpack_pack number)
  · -- Only zero is not below zero and has a minus sign.
    rcases u with (_ | _) | _ | (_ | _) | ⟨_ | _, m, e, pos⟩ <;> try cases h
    all_goals first | exact absurd rfl plain | decide

theorem isNaN_unpack_pack_of_isNaN {u : UnpackedFloat} (h : u.isNaN) :
    (unpack Format.binary64 (UnpackedFloat.pack Format.binary64 u)).isNaN := by
  rcases u with _ | _ | _ | _
  · cases h
  · decide
  · cases h
  · cases h

section Doubles

variable {x y : Float}

theorem le_iff : x ≤ y ↔ (x.toModel.unpack.compare y.toModel.unpack).any (·.isLE) := by
  show Float.le x y = true ↔ _
  unfold Float.le
  rw [decide_eq_true_iff]
  rfl

private theorem isNaN_iff : x.isNaN ↔ x.toModel.unpack.isNaN := Iff.rfl

theorem not_lt_iff : ¬x < y ↔ y ≤ x ∨ x.isNaN ∨ y.isNaN := by
  rw [lt_iff, le_iff, compare_swap x.toModel.unpack, isNaN_iff, isNaN_iff, ← compare_eq_none_iff]
  rcases x.toModel.unpack.compare y.toModel.unpack with _ | _ | _ | _ <;> simp

theorem le_of_not_lt (first : x.isNaN = false) (second : y.isNaN = false) (h : ¬x < y) : y ≤ x := by
  rcases not_lt_iff.mp h with le | none_ | none_
  · exact le
  · exact absurd none_ (by rw [first]; decide)
  · exact absurd none_ (by rw [second]; decide)

private theorem zero_le_iff : 0.0 ≤ x ↔ isNonnegative x.toModel.unpack := by
  rw [le_iff, unpack_zero]
  rcases x.toModel.unpack with (_ | _) | _ | (_ | _) | ⟨_ | _, m, e, pos⟩ <;>
    simp [UnpackedFloat.compare, isNonnegative]

theorem isNaN_of_zero_le (h : 0.0 ≤ x) : x.isNaN = false :=
  isNaN_of_isNonnegative (zero_le_iff.mp h)

theorem zero_le_add (hx : 0.0 ≤ x) (hy : 0.0 ≤ y) : 0.0 ≤ x + y :=
  zero_le_iff.mpr
    (isNonnegative_unpack_pack (isNonnegative_add _ (zero_le_iff.mp hx) (zero_le_iff.mp hy)))

theorem isNaN_add_of_isNaN (h : x.isNaN ∨ y.isNaN) : (x + y).isNaN :=
  isNaN_unpack_pack_of_isNaN (isNaN_add _ h)

end Doubles

section Bound

variable {M m : Nat} {E e : ℤ} {pos : 0 < M} {u w : UnpackedFloat} {c x y : Float}

private theorem IsNormal.leading_le (normal : IsNormal M E) {d : ℤ} (small : (m : ℚ) < 2 ^ (d + 1))
    (le : (M : ℚ) * 2 ^ E ≤ m * 2 ^ e) : E + 52 ≤ d + e := by
  have value : (2 : ℚ) ^ (52 + E) < 2 ^ (d + 1 + e) :=
    calc (2 : ℚ) ^ (52 + E) = ((2 ^ 52 : Nat) : ℚ) * 2 ^ E := by
          rw [zpow_add₀ (by norm_num)]
          norm_num
      _ ≤ M * 2 ^ E :=
        mul_le_mul_of_nonneg_right (by exact_mod_cast normal.full) (zpow_pos (by norm_num) E).le
      _ ≤ m * 2 ^ e := le
      _ < 2 ^ (d + 1) * 2 ^ e := mul_lt_mul_of_pos_right small (zpow_pos (by norm_num) e)
      _ = 2 ^ (d + 1 + e) := (zpow_add₀ (by norm_num) _ _).symm
  have exponents := (zpow_lt_zpow_iff_right₀ (by norm_num : (1 : ℚ) < 2)).mp value
  omega

theorem IsNormal.le_of_lt (normal : IsNormal M E) (less : E < e) :
    (M : ℚ) * 2 ^ E ≤ ((2 ^ 52 : Nat) : ℚ) * 2 ^ e :=
  calc (M : ℚ) * 2 ^ E ≤ 2 ^ 53 * 2 ^ E :=
        mul_le_mul_of_nonneg_right (by exact_mod_cast normal.small.le) (zpow_pos (by norm_num) E).le
    _ = ((2 ^ 52 : Nat) : ℚ) * 2 ^ (E + 1) := by
        rw [zpow_add₀ (by norm_num)]
        push_cast
        ring
    _ ≤ ((2 ^ 52 : Nat) : ℚ) * 2 ^ e :=
        mul_le_mul_of_nonneg_left (zpow_le_zpow_right₀ (by norm_num) (by omega)) (by positivity)

/-- Whether an unpacked double is no less than a value of at least `2 ^ (-1022)`. -/
def atLeast (v : ℚ) : UnpackedFloat → Prop
  | .infinity .positive => True
  | .finite .positive m e _ => 2 ^ 52 ≤ m ∧ m < 2 ^ 53 ∧ v ≤ m * 2 ^ e
  | _ => False

private theorem unpack_pack_infinity (s : Sign) :
    unpack .binary64 (pack .binary64 (.infinity s)) = .infinity s := by
  cases s <;> rfl

private theorem atLeast_infinity (v : ℚ) :
    atLeast v (unpack .binary64 (pack .binary64 (.infinity .positive))) := by
  rw [unpack_pack_infinity]
  trivial

private theorem unpack_pack_full (s : Sign) {positive : 0 < m} (full : 2 ^ 52 ≤ m)
    (small : m < 2 ^ 53) (least : -1074 ≤ e) :
    unpack .binary64 (pack .binary64 (.finite s m e positive)) =
      if e ≤ 971 then .finite s m e positive else .infinity s := by
  split
  · next greatest => exact unpack_pack_normal s positive ⟨full, small, least, greatest⟩
  · next beyond =>
    rw [← unpack_pack_infinity]
    congr 1
    simp only [UnpackedFloat.pack]
    rw [if_pos]
    change 2 ^ 11 ≤ (e + 1023 + 52).toNat + 1
    omega

private theorem atLeast_pack {v : ℚ} {positive : 0 < m} (full : 2 ^ 52 ≤ m) (small : m < 2 ^ 53)
    (least : -1074 ≤ e)
    (above : v ≤ m * 2 ^ e) :
    atLeast v (unpack .binary64 (pack .binary64 (.finite .positive m e positive))) := by
  rw [unpack_pack_full .positive full small least]
  split
  · exact ⟨full, small, above⟩
  · trivial

/-- A value whose leading bit is no less than `2 ^ (-1022)` is rounded to 53 bits, and not past a
value of 53 bits. -/
private theorem round_full (s : Sign) (positive : 0 < m) (least : -1022 ≤ m.log2 + e) :
    ∃ m' e' positive', UnpackedFloat.round .binary64 s m e = .finite s m' e' positive' ∧
      2 ^ 52 ≤ m' ∧ m' < 2 ^ 53 ∧ m.log2 + e - 52 ≤ e' ∧
      ∀ q : Nat, (q : ℚ) * 2 ^ (m.log2 + e - 52) ≤ m * 2 ^ e → (q : ℚ) * 2 ^ (m.log2 + e - 52) ≤
        m' * 2 ^ e' := by
  obtain ⟨j, rounds, bits, value⟩ := exists_round s positive least
  obtain ⟨k, bits'⟩ := Nat.exists_eq_add_of_le bits
  rw [← log2_mul_two_pow positive] at bits'
  have last : e - j + k = m.log2 + e - 52 := by
    rw [log2_mul_two_pow positive] at bits'
    omega
  obtain ⟨m', e', positive', rounded, full, small, exponent, above, -⟩ :=
    exists_roundWithAccuracy s bits' (e := e - j) (by omega)
  rw [last] at exponent above
  refine ⟨m', e', positive', rounds.trans rounded, full, small, exponent, fun q below => above q ?_⟩
  rw [← value, ← last, zpow_add₀ (by norm_num), zpow_natCast, mul_comm ((2 : ℚ) ^ (e - j)),
    ← mul_assoc] at below
  have whole := le_of_mul_le_mul_right below (zpow_pos (by norm_num) _)
  rw [mul_comm] at whole
  exact_mod_cast whole

private theorem IsNormal.atLeast_round (normal : IsNormal M E) (positive : 0 < m)
    (le : (M : ℚ) * 2 ^ E ≤ m * 2 ^ e) :
    atLeast (M * 2 ^ E)
      (unpack .binary64 (pack .binary64 (UnpackedFloat.round .binary64 .positive m e))) := by
  have digits : (m : ℚ) < 2 ^ ((m.log2 : ℤ) + 1) := by exact_mod_cast Nat.lt_log2_self
  have leading := normal.leading_le digits le
  have least := normal.least
  obtain ⟨m', e', positive', rounds, full, small, exponent, above⟩ :=
    round_full .positive positive (e := e) (by omega)
  rw [rounds]
  refine atLeast_pack full small (by omega) ?_
  rcases eq_or_lt_of_le (show E ≤ m.log2 + e - 52 by omega) with same | less
  · rw [same] at le ⊢
    exact above M le
  · have lower : ((2 ^ 52 : Nat) : ℚ) * 2 ^ (m.log2 + e - 52) ≤ m * 2 ^ e := by
      have power : (2 : ℚ) ^ m.log2 ≤ m := by exact_mod_cast Nat.log2_self_le positive.ne'
      calc ((2 ^ 52 : Nat) : ℚ) * 2 ^ (m.log2 + e - 52) = 2 ^ m.log2 * 2 ^ e := by
            rw [zpow_sub₀ (by norm_num), zpow_add₀ (by norm_num), zpow_natCast]
            norm_num
            ring
        _ ≤ m * 2 ^ e := mul_le_mul_of_nonneg_right power (zpow_pos (by norm_num) _).le
    exact (normal.le_of_lt less).trans (above _ lower)

private theorem normalize_of_pos {n : ℤ} (positive : 0 < n) (e : ℤ) (zeroSign : Sign) :
    UnpackedFloat.normalize .binary64 n e zeroSign = UnpackedFloat.round .binary64 .positive
      n.toNat e := by
  have sign : compare n 0 = .gt := Int.compare_eq_gt.mpr positive
  simp only [UnpackedFloat.normalize, sign]

private theorem normalize_of_neg {n : ℤ} (negative : n < 0) (e : ℤ) (zeroSign : Sign) :
    UnpackedFloat.normalize .binary64 n e zeroSign = UnpackedFloat.round .binary64 .negative
      (-n).toNat e := by
  have sign : compare n 0 = .lt := Int.compare_eq_lt.mpr negative
  simp only [UnpackedFloat.normalize, sign]

private theorem shiftLeft_mul_zpow (m : Nat) {e e' : ℤ} (le : e' ≤ e) :
    ((m <<< (e - e').toNat : Nat) : ℚ) * 2 ^ e' = m * 2 ^ e := by
  obtain ⟨d, rfl⟩ := Int.le.dest le
  rw [show e' + d - e' = d by omega, Int.toNat_natCast, Nat.shiftLeft_eq, zpow_add₀ (by norm_num),
    zpow_natCast]
  push_cast
  ring

private theorem exists_add_eq_round {m m' : Nat} (e e' : ℤ) (positive : 0 < m)
    (positive' : 0 < m') :
    ∃ n, 0 < n ∧ UnpackedFloat.add .binary64 (.finite .positive m e positive)
        (.finite .positive m' e' positive') =
          UnpackedFloat.round .binary64 .positive n (min e e') ∧
      (n : ℚ) * 2 ^ min e e' = m * 2 ^ e + m' * 2 ^ e' := by
  have first := shiftLeft_mul_zpow m (min_le_left e e')
  have second := shiftLeft_mul_zpow m' (min_le_right e e')
  generalize shifted : m <<< (e - min e e').toNat = n at first
  generalize shifted' : m' <<< (e' - min e e').toNat = n' at second
  have some_ : 0 < n := by
    rw [← shifted, Nat.shiftLeft_eq]
    exact Nat.mul_pos positive (Nat.pow_pos (by omega))
  refine ⟨n + n', Nat.add_pos_left some_ _, ?_, ?_⟩
  · rw [← shifted, ← shifted']
    refine normalize_of_pos ?_ _ _
    change (0 : ℤ) < ((m <<< (e - min e e').toNat : Nat) : ℤ) +
      ((m' <<< (e' - min e e').toNat : Nat) : ℤ)
    rw [shifted]
    exact_mod_cast Nat.add_pos_left some_ _
  · push_cast
    rw [add_mul, first, second]

private theorem IsNormal.atLeast_sum (normal : IsNormal M E) {m' : Nat} {e' : ℤ} (positive : 0 < m)
    (positive' : 0 < m') (le : (M : ℚ) * 2 ^ E ≤ m * 2 ^ e + m' * 2 ^ e') :
    atLeast (M * 2 ^ E) (unpack .binary64 (pack .binary64 (UnpackedFloat.add .binary64
      (.finite .positive m e positive) (.finite .positive m' e' positive')))) := by
  obtain ⟨n, some_, sum, value⟩ := exists_add_eq_round e e' positive positive'
  rw [sum]
  exact normal.atLeast_round some_ (value ▸ le)

private theorem IsNormal.atLeast_add (normal : IsNormal M E) (hu : atLeast (M * 2 ^ E) u)
    (hw : isNonnegative w) :
    atLeast (M * 2 ^ E) (unpack .binary64
      (pack .binary64 (UnpackedFloat.add .binary64 u w))) := by
  rcases u with (_ | _) | _ | _ | ⟨_ | _, m, e, positive⟩ <;> try exact hu.elim
  · rcases w with (_ | _) | _ | _ | ⟨_ | _, m', e', positive'⟩ <;> try contradiction
    all_goals exact atLeast_infinity _
  · obtain ⟨full, small, above⟩ := hu
    have leading := normal.leading_le (d := 52) (by exact_mod_cast small) above
    have least := normal.least
    rcases w with (_ | _) | _ | _ | ⟨_ | _, m', e', positive'⟩ <;> try contradiction
    · exact atLeast_infinity _
    · exact atLeast_pack full small (by omega) above
    · refine normal.atLeast_sum positive positive' (above.trans ?_)
      exact le_add_of_nonneg_right (mul_nonneg m'.cast_nonneg (zpow_pos (by norm_num) _).le)

private theorem IsNormal.sub_cases (normal : IsNormal M E) (pos : 0 < M) (least : -1022 ≤ E)
    (hu : atLeast (M * 2 ^ E) u) :
    UnpackedFloat.sub .binary64 (.finite .positive M E pos) u = .zero .positive ∨
      (unpack .binary64 (pack .binary64
        (UnpackedFloat.sub .binary64 (.finite .positive M E pos) u))).compare (.zero .positive) =
          some .lt := by
  rcases u with (_ | _) | _ | _ | ⟨_ | _, m, e, positive⟩ <;> try exact hu.elim
  · right
    change (unpack .binary64 (pack .binary64 (.infinity .negative))).compare _ = _
    rw [unpack_pack_infinity]
    rfl
  · obtain ⟨full, small, above⟩ := hu
    have leading := normal.leading_le (d := 52) (by exact_mod_cast small) above
    have first : min E e = E := by omega
    have value := shiftLeft_mul_zpow m (show E ≤ e by omega)
    generalize shifted : m <<< (e - E).toNat = a at value
    have difference : UnpackedFloat.sub .binary64 (.finite .positive M E pos)
      (.finite .positive m e positive) =
        UnpackedFloat.normalize .binary64 (M - a : ℤ) E .positive := by
      simp only [UnpackedFloat.sub, decreaseExponent, first, shifted, sub_self, Int.toNat_zero,
        Nat.shiftLeft_zero]
      rfl
    have order : M ≤ a := by
      rw [← value] at above
      exact_mod_cast le_of_mul_le_mul_right above (zpow_pos (by norm_num) _)
    rw [difference]
    rcases eq_or_lt_of_le order with rfl | less
    · left
      rw [sub_self]
      rfl
    · right
      rw [normalize_of_neg (by omega), show (-((M : ℤ) - a)).toNat = a - M by omega]
      obtain ⟨m', e', positive', rounds, full', small', exponent, -⟩ :=
        round_full .negative (m := a - M) (e := E) (by omega) (by omega)
      rw [rounds, unpack_pack_full .negative full' small' (by omega)]
      split <;> rfl

private theorem bounds_of_unpack {s : Sign} {b : BitVec Format.binary64.numBits} {positive : 0 < m}
    (h : unpack .binary64 b = .finite s m e positive) : m < 2 ^ 53 ∧ (2 ^ 52 ≤ m ∨ e = -1074) := by
  unfold UnpackedFloat.unpack at h
  simp only at h
  split at h
  · split at h <;> cases h
  · split at h
    · next zero =>
      split at h
      · cases h
      · injection h with _ significand exponent
        refine ⟨?_, .inr ?_⟩
        · rw [← significand]
          exact (BitVec.isLt _).trans (by decide)
        · rw [← exponent, zero]
          rfl
    · injection h with _ significand
      have rest : m = 2 ^ 52 + (unpackMantissa b).toNat := by
        rw [← significand, BitVec.toNat_append, ← Nat.shiftLeft_add_eq_or_of_lt (BitVec.isLt _)]
        rfl
      have fits : (unpackMantissa b).toNat < 2 ^ 52 := BitVec.isLt _
      exact ⟨by omega, .inl (by omega)⟩

theorem IsNormal.le_iff_atLeast (normal : IsNormal M E)
    (bound : c.toModel.unpack = .finite .positive M E pos) :
    c ≤ x ↔ atLeast (M * 2 ^ E) x.toModel.unpack := by
  rw [le_iff, bound]
  cases unpacked : x.toModel.unpack with
  | infinity s => cases s <;> simp [UnpackedFloat.compare, atLeast]
  | notANumber => simp [UnpackedFloat.compare, atLeast]
  | zero s => simp [UnpackedFloat.compare, atLeast]
  | finite s m e positive =>
    cases s with
    | negative => simp [UnpackedFloat.compare, atLeast]
    | positive =>
      obtain ⟨small, full⟩ := bounds_of_unpack unpacked
      have order :
        ((UnpackedFloat.finite .positive M E pos).compare (.finite .positive m e positive)).any
          (·.isLE) ↔ E < e ∨ E = e ∧ M ≤ m := by
        simp only [UnpackedFloat.compare, Option.any_some, Ordering.isLE_then_iff_or,
          Int.compare_eq_lt, Int.compare_eq_eq, Nat.isLE_compare]
      rw [order]
      constructor
      · rintro (less | ⟨rfl, le⟩)
        · have full' := full.resolve_right (by have := normal.least; omega)
          refine ⟨full', small, (normal.le_of_lt less).trans ?_⟩
          exact mul_le_mul_of_nonneg_right (by exact_mod_cast full') (zpow_pos (by norm_num) e).le
        · refine ⟨normal.full.trans le, small, ?_⟩
          exact mul_le_mul_of_nonneg_right (by exact_mod_cast le) (zpow_pos (by norm_num) E).le
      · rintro ⟨-, -, above⟩
        have leading := normal.leading_le (d := 52) (by exact_mod_cast small) above
        rcases eq_or_lt_of_le (show E ≤ e by omega) with rfl | less
        · exact .inr
            ⟨rfl, by exact_mod_cast le_of_mul_le_mul_right above (zpow_pos (by norm_num) _)⟩
        · exact .inl less

theorem IsNormal.le_add (normal : IsNormal M E)
    (bound : c.toModel.unpack = .finite .positive M E pos) (hx : c ≤ x)
    (hy : 0.0 ≤ y) : c ≤ x + y := by
  rw [normal.le_iff_atLeast bound] at hx ⊢
  exact normal.atLeast_add hx (zero_le_iff.mp hy)

theorem not_le_of_lt (less : x < y) : ¬y ≤ x := by
  rw [le_iff, compare_swap x.toModel.unpack, lt_iff.mp less]
  decide

/-- Doubles from zero on that are below a normal one are finite, and their values are below its
value. -/
theorem IsNormal.size_lt (normal : IsNormal M E)
    (bound : c.toModel.unpack = .finite .positive M E pos) (hx : 0.0 ≤ x) (below : x < c) :
    x.isInf = false ∧ size x.toModel.unpack < M * 2 ^ E := by
  have some_ : (0 : ℚ) < M * 2 ^ E :=
    mul_pos (by exact_mod_cast pos) (zpow_pos (by norm_num) _)
  have under := not_le_of_lt below
  rw [normal.le_iff_atLeast bound] at under
  rw [zero_le_iff] at hx
  change x.toModel.unpack.isInf = false ∧ _
  cases unpacked : x.toModel.unpack with
  | notANumber => exact ⟨rfl, some_⟩
  | zero s => exact ⟨rfl, some_⟩
  | infinity s =>
    rw [unpacked] at hx under
    cases s with
    | positive => exact absurd trivial under
    | negative => cases hx
  | finite s m e positive =>
    rw [unpacked] at hx under
    cases s with
    | negative => cases hx
    | positive =>
      refine ⟨rfl, not_le.mp fun above => under ?_⟩
      obtain ⟨small, full | least⟩ := bounds_of_unpack unpacked
      · exact ⟨full, small, above⟩
      · have leading := normal.leading_le (d := 52) (by exact_mod_cast small) above
        have least' := normal.least
        obtain rfl : E = e := by omega
        have order : M ≤ m := by
          exact_mod_cast le_of_mul_le_mul_right above (zpow_pos (by norm_num) _)
        exact ⟨normal.full.trans order, small, above⟩

private theorem exists_of_size_pos (hu : isNonnegative u) (some_ : 0 < size u) :
    ∃ m e positive, u = .finite .positive m e positive := by
  cases u with
  | finite s m e positive =>
    cases s with
    | negative => cases hu
    | positive => exact ⟨m, e, positive, rfl⟩
  | _ => exact absurd some_ (lt_irrefl 0)

theorem size_add (hx : 0.0 ≤ x) (hy : 0.0 ≤ y) (finite : y.isInf = false)
    (least : 1 ≤ size x.toModel.unpack)
    (below : size x.toModel.unpack + size y.toModel.unpack < overflow) :
    size (x + y).toModel.unpack ≤ (size x.toModel.unpack + size y.toModel.unpack) * slack ∧
      size x.toModel.unpack + size y.toModel.unpack ≤ size (x + y).toModel.unpack * slack := by
  have sum : (x + y).toModel.unpack = unpack .binary64 (pack .binary64
      (UnpackedFloat.add .binary64 x.toModel.unpack y.toModel.unpack)) := rfl
  have kept : unpack .binary64 (pack .binary64 x.toModel.unpack) = x.toModel.unpack :=
    congrArg (unpack .binary64) (pack_unpack_of_valid x.toModel.valid)
  rw [zero_le_iff] at hx hy
  change y.toModel.unpack.isInf = false at finite
  rw [sum]
  obtain ⟨m, e, positive, unpacked⟩ := exists_of_size_pos hx (one_pos.trans_le least)
  rw [unpacked] at kept least below ⊢
  generalize y.toModel.unpack = w at *
  rcases w with (_ | _) | _ | _ | ⟨_ | _, m', e', positive'⟩ <;> try contradiction
  · have same : UnpackedFloat.add .binary64 (.finite .positive m e positive) (.zero ‹_›) =
        .finite .positive m e positive := rfl
    have nonneg : (0 : ℚ) ≤ m * 2 ^ e := by positivity
    rw [same, kept]
    simp only [size, add_zero, slack]
    constructor <;> linarith
  · obtain ⟨n, some_, added, value⟩ := exists_add_eq_round e e' positive positive'
    simp only [size] at least below
    rw [added]
    simp only [size]
    rw [← value] at below ⊢
    refine size_rounded some_ ?_ below
    rw [value]
    exact least.trans (le_add_of_nonneg_right (by positivity))

theorem IsNormal.sub_le_zero (normal : IsNormal M E) (least : -1022 ≤ E)
    (bound : c.toModel.unpack = .finite .positive M E pos) (hx : c ≤ x) :
    c - x = 0.0 ∨ c - x < 0.0 := by
  rw [normal.le_iff_atLeast bound] at hx
  rcases normal.sub_cases pos least hx with zero | negative
  · left
    change Float.ofModel
      (Float.Model.pack (UnpackedFloat.sub .binary64 c.toModel.unpack x.toModel.unpack)) = 0.0
    rw [bound, zero]
    rfl
  · right
    rw [← bound] at negative
    exact lt_iff.mpr negative

end Bound

end AuditPanel.Double
