import AuditPanel.Proofs.Json.Object

/-!
Parts of records written as values and read again.
-/

set_option autoImplicit false

namespace AuditPanel.Json

private theorem asNatBelow?_nat {n bound : Nat} (below : n < bound) :
    (nat n).asNatBelow? bound = some n := by
  change (if 0 ≤ (n : Int) ∧ (n : Int).toNat < bound then some (n : Int).toNat else none) = some n
  rw [Int.toNat_natCast, if_pos ⟨Int.natCast_nonneg n, below⟩]

theorem asNat?_nat {n : Nat} (fits : n < 1 <<< 64) : (nat n).asNat? = some n :=
  asNatBelow?_nat fits

theorem asNat32?_nat {n : Nat} (fits : n < 1 <<< 32) : (nat n).asNat32? = some n :=
  asNatBelow?_nat fits

section Lists

variable {α : Type} {write : α → Json} {read : Json → Option α}

theorem asList?_map {items : List α} (each : ∀ a ∈ items, read (write a) = some a) :
    asList? read (.array (items.map write)) = some items := by
  rw [asList?, List.mapM_map]
  induction items with
  | nil => rfl
  | cons a rest ih =>
    rw [List.mapM_cons, Function.comp_apply, each a List.mem_cons_self,
      ih fun b member => each b (List.mem_cons_of_mem _ member)]
    rfl

theorem asList?_strings (items : List String) : asList? asString? (.strings items) = some items :=
  asList?_map fun _ _ => rfl

theorem optional?_option {a : Option α} (each : ∀ x, a = some x → read (write x) = some x)
    (solid : ∀ x, write x ≠ .null) : (Slot.value (.option write a)).optional? read = some a := by
  cases a with
  | none => rfl
  | some x =>
    change asOption? read (write x) = some (some x)
    have found := each x rfl
    have value := solid x
    unfold asOption?
    split
    · next null => exact absurd null value
    · rw [found]
      rfl

end Lists

/-- The slot of a member that is left out when there is no value. -/
def optionalSlot {α : Type} (write : α → Json) (value : Option α) : Slot :=
  value.elim .missing fun a => .value (write a)

theorem optional?_optionalSlot {α : Type} {write : α → Json} {read : Json → Option α} {a : Option α}
    (each : ∀ x, a = some x → read (write x) = some x) (solid : ∀ x, write x ≠ .null) :
    (optionalSlot write a).optional? read = some a := by
  cases a with
  | none => rfl
  | some x => exact optional?_option each solid

end AuditPanel.Json
