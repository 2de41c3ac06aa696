import AuditPanel.Finding.Basic
import Mathlib.Data.List.Sort

/-!
The orders on what findings are made of: the scales of severity and confidence, and the total order
of their keys.
-/

set_option autoImplicit false

namespace AuditPanel

namespace Severity

theorem eq_of_level_eq {a b : Severity} (h : a.level = b.level) : a = b := by
  cases a <;> cases b <;> first | rfl | cases h

@[simp] theorem level_max_le {a b : Severity} {n : Nat} :
    (a.max b).level ≤ n ↔ a.level ≤ n ∧ b.level ≤ n := by
  unfold max
  split <;> omega

end Severity

namespace Confidence

theorem eq_of_level_eq {a b : Confidence} (h : a.level = b.level) : a = b := by
  cases a <;> cases b <;> first | rfl | cases h

@[simp] theorem level_max_le {a b : Confidence} {n : Nat} :
    (a.max b).level ≤ n ↔ a.level ≤ n ∧ b.level ≤ n := by
  unfold max
  split <;> omega

end Confidence

namespace FindingKey

instance : Std.TransCmp order :=
  inferInstanceAs
    (Std.TransCmp (compareLex (compareOn category) (compareLex (compareOn name) (compareOn lines))))

instance : Std.LawfulEqCmp order where
  eq_of_compare {a b} h := by
    obtain ⟨category, name, lines⟩ := a
    simp only [order, Ordering.then_eq_eq, Std.LawfulEqOrd.compare_eq_iff_eq] at h
    obtain ⟨rfl, rfl, rfl⟩ := h
    rfl

theorem le_trans (a b c : FindingKey) (hab : le a b) (hbc : le b c) : le a c :=
  Std.TransCmp.isLE_trans hab hbc

theorem le_total (a b : FindingKey) : (le a b || le b a) = true := by
  rcases h : order a b with _ | _ | _
  · simp [le, h]
  · simp [le, h]
  · have flipped : order b a = .lt := Std.OrientedCmp.gt_iff_lt.mp h
    simp [le, flipped]

theorem lt_of_le_of_ne {a b : FindingKey} (hab : le a b) (differ : a ≠ b) : order a b = .lt := by
  rcases h : order a b with _ | _ | _
  · rfl
  · exact absurd (Std.LawfulEqCmp.eq_of_compare h) differ
  · simp [le, h] at hab

instance : Std.Asymm fun a b : FindingKey => order a b = .lt where
  asymm _ _ := Std.OrientedCmp.not_lt_of_lt

end FindingKey

end AuditPanel
