import AuditPanel.Decimal.Layout
import AuditPanel.Decimal.Reader
import AuditPanel.Time.Instant
import Mathlib.Data.List.Induction
import Mathlib.Data.List.Lex
import Mathlib.Data.List.TakeWhile
import Mathlib.Data.String.Basic
import Mathlib.Tactic.Ring

/-!
Decimal digits of natural numbers, as many as there are or a fixed number of them. Digits are read
back as the number they were written for, and among digits of one number of places the greater
number has the greater text.
-/

set_option autoImplicit false

namespace AuditPanel.Decimal

private theorem digitText_eq (n : Nat) :
    digitText n = (if n < 10 then [] else digitText (n / 10)) ++ [Nat.digitChar (n % 10)] := by
  unfold digitText
  rw [Nat.toDigits_eq_if (by omega)]
  split
  · next small => rw [Nat.mod_eq_of_lt small, List.nil_append]
  · rfl

theorem digitText_ne_nil (n : Nat) : digitText n ≠ [] :=
  Nat.toDigits_ne_nil

theorem isDigit_of_mem_digitText {n : Nat} {c : Char} (member : c ∈ digitText n) : c.isDigit :=
  Nat.isDigit_of_mem_toDigits (by omega) (by omega) member

theorem digitsValue_append (s t : List Char) :
    digitsValue (s ++ t) = t.foldl (fun n c => 10 * n + (c.toNat - '0'.toNat)) (digitsValue s) := by
  simp only [digitsValue, List.foldl_append]

theorem foldl_digits (s : List Char) (n : Nat) :
    s.foldl (fun n c => 10 * n + (c.toNat - '0'.toNat)) n = n * 10 ^ s.length + digitsValue s := by
  induction s generalizing n with
  | nil => simp [digitsValue]
  | cons c s ih =>
    have whole : digitsValue (c :: s) = (10 * 0 + (c.toNat - '0'.toNat)) * 10 ^ s.length +
      digitsValue s := ih _
    rw [List.foldl_cons, ih, whole, List.length_cons, Nat.pow_succ]
    ring

theorem digitsValue_lt {s : List Char} (digits : ∀ c ∈ s, c.isDigit) :
    digitsValue s < 10 ^ s.length := by
  induction s using List.reverseRecOn with
  | nil => simp [digitsValue]
  | append_singleton s c ih =>
    have front := ih fun d member => digits d (List.mem_append_left _ member)
    have digit : c.toNat - '0'.toNat < 10 := by
      have last := digits c (List.mem_append_right _ List.mem_cons_self)
      simp only [Char.isDigit, Bool.and_eq_true, decide_eq_true_eq, ge_iff_le,
        UInt32.le_iff_toNat_le] at last
      have nine : '9'.val.toNat = 57 := rfl
      have zero : '0'.toNat = 48 := rfl
      have code : c.val.toNat = c.toNat := rfl
      omega
    rw [digitsValue_append, List.foldl_cons, List.foldl_nil, List.length_append,
      List.length_singleton, Nat.pow_succ]
    omega

@[simp] theorem digitsValue_digitText (n : Nat) : digitsValue (digitText n) = n :=
  Nat.ofDigitChars_ten_toDigits

theorem head?_digitText {n : Nat} (positive : 0 < n) : (digitText n).head? ≠ some '0' := by
  induction n using Nat.strong_induction_on with
  | _ n ih =>
    rw [digitText_eq]
    split
    · next small =>
      intro head
      rw [List.nil_append, List.head?_cons, Option.some.injEq, Nat.digitChar_eq_zero] at head
      omega
    · next large =>
      have shorter := ih (n / 10) (by omega) (by omega)
      rwa [List.head?_append_of_ne_nil _ (digitText_ne_nil _)]

theorem digitRun_digits {s : List Char} (digits : ∀ c ∈ s, c.isDigit) : digitRun s = (s, []) := by
  rw [digitRun, Prod.mk.injEq, List.takeWhile_eq_self_iff, List.dropWhile_eq_nil_iff]
  exact ⟨digits, digits⟩

theorem digitRun_append_stop {s rest : List Char} {c : Char} (digits : ∀ c ∈ s, c.isDigit)
    (stop : c.isDigit = false) :
    digitRun (s ++ c :: rest) = (s, c :: rest) := by
  rw [digitRun, List.takeWhile_append_of_pos digits, List.dropWhile_append_of_pos digits,
    List.takeWhile_cons_of_neg, List.dropWhile_cons_of_neg, List.append_nil]
  · simp [stop]
  · simp [stop]

/-- The last `width` digits of a number, with zeros in front. -/
def fixedDigits : Nat → Nat → List Char
  | 0, _ => []
  | width + 1, n => fixedDigits width (n / 10) ++ [Nat.digitChar (n % 10)]

@[simp] theorem length_fixedDigits (width n : Nat) : (fixedDigits width n).length = width := by
  induction width generalizing n with
  | zero => rfl
  | succ width ih => simp [fixedDigits, ih]

theorem isDigit_of_mem_fixedDigits {width n : Nat} {c : Char} (member : c ∈ fixedDigits width n) :
    c.isDigit := by
  induction width generalizing n with
  | zero => cases member
  | succ width ih =>
    rcases List.mem_append.mp member with front | last
    · exact ih front
    · have digit : n % 10 < 10 := Nat.mod_lt _ (by omega)
      rw [List.mem_singleton.mp last, Nat.isDigit_digitChar, decide_eq_true_eq]
      exact digit

theorem digitsValue_fixedDigits {width n : Nat} (fits : n < 10 ^ width) :
    digitsValue (fixedDigits width n) = n := by
  induction width generalizing n with
  | zero =>
    have zero : n = 0 := by simpa using fits
    rw [zero]
    rfl
  | succ width ih =>
    have front : n / 10 < 10 ^ width := by
      rw [Nat.pow_succ] at fits
      omega
    have digit : n % 10 < 10 := Nat.mod_lt _ (by omega)
    rw [fixedDigits, digitsValue_append, ih front, List.foldl_cons, List.foldl_nil]
    change 10 * (n / 10) + ((Nat.digitChar (n % 10)).toNat - 48) = n
    rw [Nat.toNat_digitChar_sub_48_of_lt_ten digit]
    omega

theorem zeros_append_digitText {width n : Nat} (fits : n < 10 ^ width) (wide : 0 < width) :
    List.replicate (width - (digitText n).length) '0' ++ digitText n = fixedDigits width n := by
  induction width generalizing n with
  | zero => omega
  | succ width ih =>
    have front : n / 10 < 10 ^ width := by
      rw [Nat.pow_succ] at fits
      omega
    rw [digitText_eq, fixedDigits]
    split
    · next small =>
      have none : n / 10 = 0 := by omega
      have zeros (k : Nat) : fixedDigits k 0 = List.replicate k '0' := by
        induction k with
        | zero => rfl
        | succ k ih => rw [fixedDigits, ih, List.replicate_succ']; rfl
      rw [none, zeros]
      simp
    · next large =>
      have some : 0 < width := by
        rcases Nat.eq_zero_or_pos width with rfl | some
        · omega
        · exact some
      rw [← ih front some, ← List.append_assoc, List.length_append, List.length_singleton,
        Nat.add_sub_add_right]

theorem fixedDigits_append (width places n : Nat) :
    fixedDigits (width + places) n = fixedDigits width (n / 10 ^ places) ++
      fixedDigits places (n % 10 ^ places) := by
  induction places generalizing n with
  | zero => simp [fixedDigits]
  | succ places ih =>
    have above : n / 10 / 10 ^ places = n / 10 ^ (places + 1) := by
      rw [Nat.div_div_eq_div_mul, Nat.pow_succ, Nat.mul_comm]
    have below : n / 10 % 10 ^ places = n % 10 ^ (places + 1) / 10 := by
      rw [Nat.pow_succ, Nat.mul_comm, Nat.mod_mul_right_div_self]
    have last : n % 10 ^ (places + 1) % 10 = n % 10 := by
      rw [Nat.pow_succ]
      exact Nat.mod_mul_left_mod n _ 10
    rw [← Nat.add_assoc, fixedDigits, ih, fixedDigits, above, below, last, List.append_assoc]

theorem append_lt_append_of_lt {s s' : List Char} (less : s < s') (same : s.length = s'.length)
    (t t' : List Char) :
    s ++ t < s' ++ t' := by
  induction s generalizing s' with
  | nil =>
    cases s' with
    | nil => exact absurd less (List.lt_irrefl _)
    | cons c s' => simp at same
  | cons c s ih =>
    cases s' with
    | nil => simp at same
    | cons c' s' =>
      rw [List.cons_append, List.cons_append, List.cons_lt_cons_iff]
      rcases List.cons_lt_cons_iff.mp less with first | ⟨rfl, later⟩
      · exact .inl first
      · exact .inr ⟨rfl, ih later (by simpa using same)⟩

private theorem digitChar_lt_digitChar {a b : Nat} (less : a < b) (digit : b < 10) :
    Nat.digitChar a < Nat.digitChar b := by
  rw [Char.lt_def, UInt32.lt_iff_toNat_lt]
  change (Nat.digitChar a).toNat < (Nat.digitChar b).toNat
  rw [Nat.toNat_digitChar_of_lt_ten (by omega), Nat.toNat_digitChar_of_lt_ten digit]
  omega

theorem fixedDigits_lt_fixedDigits {width a b : Nat} (less : a < b) (fits : b < 10 ^ width) :
    fixedDigits width a < fixedDigits width b := by
  induction width generalizing a b with
  | zero =>
    have none : b = 0 := by simpa using fits
    omega
  | succ width ih =>
    have front : b / 10 < 10 ^ width := by
      rw [Nat.pow_succ] at fits
      omega
    rw [fixedDigits, fixedDigits]
    rcases Nat.lt_or_ge (a / 10) (b / 10) with above | same
    · exact append_lt_append_of_lt (ih above front) (by simp) _ _
    · have equal : a / 10 = b / 10 := by omega
      have digit : b % 10 < 10 := Nat.mod_lt _ (by omega)
      rw [equal]
      apply List.append_left_lt
      rw [List.cons_lt_cons_iff]
      exact .inl (digitChar_lt_digitChar (by omega) digit)

end AuditPanel.Decimal
