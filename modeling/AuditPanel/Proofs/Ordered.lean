import AuditPanel.Ordered
import Mathlib.Data.List.Sort
import Mathlib.Data.String.Basic

/-!
Sets kept as increasing lists. The list of a set holds exactly the items it was made of, in strictly
increasing order, so two lists with the same items make the same set.
-/

set_option autoImplicit false

namespace AuditPanel.Ordered

section Dedup

variable {α : Type} [DecidableEq α]

private theorem dedupFrom_eq_append (out xs : List α) :
    dedupFrom out xs = out.reverse ++ dedup xs := by
  induction xs generalizing out with
  | nil => simp [dedup, dedupFrom]
  | cons a rest ih =>
    cases rest with
    | nil => simp [dedup, dedupFrom]
    | cons b rest =>
      by_cases h : a = b
      · simpa [dedup, dedupFrom, h] using ih out
      · have tail := ih (a :: out)
        have single := ih [a]
        simp only [List.reverse_cons, List.append_assoc, List.reverse_nil, List.nil_append]
          at tail single
        simp [dedup, dedupFrom, h, tail, single]

@[simp] theorem dedup_nil : dedup ([] : List α) = [] := rfl

@[simp] theorem dedup_singleton (a : α) : dedup [a] = [a] := rfl

private theorem dedup_cons_cons (a b : α) (rest : List α) :
    dedup (a :: b :: rest) = if a = b then dedup (b :: rest) else a :: dedup (b :: rest) := by
  by_cases h : a = b
  · simp [dedup, dedupFrom, h]
  · have head : dedup (a :: b :: rest) = dedupFrom [a] (b :: rest) := by simp [dedup, dedupFrom, h]
    rw [head, dedupFrom_eq_append, if_neg h]
    rfl

@[simp] theorem mem_dedup (x : α) (xs : List α) : x ∈ dedup xs ↔ x ∈ xs := by
  induction xs with
  | nil => simp
  | cons a rest ih =>
    cases rest with
    | nil => simp
    | cons b rest =>
      rw [dedup_cons_cons]
      split
      · next same => simp [ih, same]
      · simp [ih]

theorem pairwise_dedup {r : α → α → Prop} (antisymm : ∀ a b, r a b → r b a → a = b) {xs : List α}
    (sorted : xs.Pairwise r) : (dedup xs).Pairwise fun a b => r a b ∧ a ≠ b := by
  induction xs with
  | nil => simp
  | cons a rest ih =>
    cases rest with
    | nil => simp
    | cons b rest =>
      rw [dedup_cons_cons]
      have tail := ih (List.pairwise_cons.mp sorted).2
      split
      · exact tail
      · next differ =>
        refine List.pairwise_cons.mpr ⟨?_, tail⟩
        intro x hx
        rw [mem_dedup] at hx
        have first : r a b := (List.pairwise_cons.mp sorted).1 b (by simp)
        refine ⟨(List.pairwise_cons.mp sorted).1 x hx, ?_⟩
        rintro rfl
        -- An item that comes again further on would stand on both sides of its neighbour.
        rcases List.mem_cons.mp hx with same | later
        · exact differ same
        · exact differ (antisymm a b first
            ((List.pairwise_cons.mp (List.pairwise_cons.mp sorted).2).1 a later))

private theorem dedup_of_pairwise_ne {xs : List α} (distinct : xs.Pairwise (· ≠ ·)) :
    dedup xs = xs := by
  induction xs with
  | nil => rfl
  | cons a rest ih =>
    cases rest with
    | nil => rfl
    | cons b rest =>
      obtain ⟨first, tail⟩ := List.pairwise_cons.mp distinct
      rw [dedup_cons_cons, if_neg (first b List.mem_cons_self), ih tail]

private theorem ofList_of_pairwise {le : α → α → Bool} {xs : List α}
    (strict : xs.Pairwise fun a b => le a b = true ∧ a ≠ b) :
    ofList le xs = xs := by
  rw [ofList, List.mergeSort_of_pairwise (strict.imp And.left),
    dedup_of_pairwise_ne (strict.imp And.right)]

end Dedup

@[simp] theorem mem_nats (x : Nat) (xs : List Nat) : x ∈ nats xs ↔ x ∈ xs := by
  simp [nats, ofList]

theorem nats_pairwise (xs : List Nat) : (nats xs).Pairwise (· < ·) := by
  have sorted : (xs.mergeSort fun a b => a ≤ b).Pairwise (· ≤ ·) :=
    List.pairwise_mergeSort' (· ≤ ·) xs
  have strict := pairwise_dedup (fun _ _ => Nat.le_antisymm) sorted
  refine strict.imp ?_
  rintro a b ⟨le, differ⟩
  exact Nat.lt_of_le_of_ne le differ

theorem nats_of_pairwise {xs : List Nat} (strict : xs.Pairwise (· < ·)) : nats xs = xs :=
  ofList_of_pairwise (strict.imp fun lt => ⟨decide_eq_true (Nat.le_of_lt lt), Nat.ne_of_lt lt⟩)

section Strings

theorem strings_of_pairwise {xs : List String} (strict : xs.Pairwise (· < ·)) : strings xs = xs :=
  ofList_of_pairwise (strict.imp fun lt => ⟨decide_eq_true (le_of_lt lt), ne_of_lt lt⟩)

@[simp] theorem mem_strings (x : String) (xs : List String) : x ∈ strings xs ↔ x ∈ xs := by
  simp [strings, ofList]

theorem strings_pairwise (xs : List String) : (strings xs).Pairwise (· < ·) := by
  have sorted : (xs.mergeSort fun a b => a ≤ b).Pairwise (· ≤ ·) :=
    List.pairwise_mergeSort' (· ≤ ·) xs
  have strict := pairwise_dedup (fun _ _ => String.le_antisymm) sorted
  refine strict.imp ?_
  rintro a b ⟨le, differ⟩
  exact String.not_le.mp fun ge => differ (String.le_antisymm le ge)

end Strings

end AuditPanel.Ordered
