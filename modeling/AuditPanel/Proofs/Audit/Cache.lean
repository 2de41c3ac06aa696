import AuditPanel.Audit.Cache
import Mathlib.Data.List.Nodup

/-!
What an access does to a cache: entries that live stay, dead ones may go, and at most one entry is
added, under a key that no living entry has.
-/

set_option autoImplicit false

namespace AuditPanel.Cache

variable {α : Type} {c c' c'' : Cache α} {now later : Nat} {key : String} {value : α}
  {e : CacheEntry α}

def keys (c : Cache α) : List String :=
  c.entries.map (·.key)

/-- What accesses up to a time may turn a cache into, where entries with the property `added` may be
new. -/
structure Step (now : Nat) (added : CacheEntry α → Prop) (c c' : Cache α) : Prop where
  lifetime : c'.lifetime = c.lifetime
  origin : ∀ e ∈ c'.entries, e ∈ c.entries ∨ added e
  kept : ∀ e ∈ c.entries, now < e.expiry → e ∈ c'.entries
  stored : ∀ e, added e → e ∈ c'.entries
  nodup : c.keys.Nodup → c'.keys.Nodup

theorem get?_eq_none_iff : c.get? now key = none ↔ ∀ e ∈ c.entries, e.key = key →
    e.expiry ≤ now := by
  simp [get?]

theorem get?_eq_some_iff (distinct : c.keys.Nodup) :
    c.get? now key = some value ↔
      ∃ e ∈ c.entries, e.key = key ∧ now < e.expiry ∧ e.value = value := by
  simp only [get?, Option.map_eq_some_iff]
  constructor
  · rintro ⟨e, found, rfl⟩
    have alive := List.find?_some found
    simp only [Bool.and_eq_true, beq_iff_eq, decide_eq_true_eq] at alive
    exact ⟨e, List.mem_of_find?_eq_some found, alive.1, alive.2, rfl⟩
  · rintro ⟨e, member, rfl, alive, rfl⟩
    cases found : c.entries.find? fun d => d.key == e.key && decide (now < d.expiry) with
    | none => simpa [alive] using List.find?_eq_none.mp found e member
    | some d =>
      have same := List.find?_some found
      simp only [Bool.and_eq_true, beq_iff_eq] at same
      have equal :=
        List.inj_on_of_nodup_map distinct (List.mem_of_find?_eq_some found) member same.1
      exact ⟨d, rfl, by rw [equal]⟩

theorem Step.refl (now : Nat) (c : Cache α) : Step now (fun _ => False) c c where
  lifetime := rfl
  origin _ member := .inl member
  kept _ member _ := member
  stored _ none := none.elim
  nodup distinct := distinct

theorem Step.congr {added added' : CacheEntry α → Prop} (h : Step now added c c')
    (same : ∀ e, added e ↔ added' e) : Step now added' c c' := by
  obtain rfl : added = added' := funext fun e => propext (same e)
  exact h

theorem Step.trans {added : CacheEntry α → Prop} (h : Step now (fun _ => False) c c')
    (h' : Step later added c' c'') (order : now ≤ later) : Step later added c c'' where
  lifetime := h'.lifetime.trans h.lifetime
  origin e member := (h'.origin e member).imp_left fun old => (h.origin e old).resolve_right id
  kept e member alive := h'.kept e (h.kept e member (Nat.lt_of_le_of_lt order alive)) alive
  stored := h'.stored
  nodup distinct := h'.nodup (h.nodup distinct)

private theorem step_purge (now : Nat) (c : Cache α) :
    Step now (fun _ => False) c (c.purge now) where
  lifetime := rfl
  origin _ member := .inl (List.mem_filter.mp member).1
  kept _ member alive := List.mem_filter.mpr ⟨member, by simpa using alive⟩
  stored _ none := none.elim
  nodup distinct := distinct.sublist (List.filter_sublist.map _)

theorem step_afterGet (now : Nat) (key : String) (c : Cache α) :
    Step now (fun _ => False) c (c.afterGet now key) := by
  unfold afterGet
  split
  · exact .refl now c
  · exact
      { lifetime := rfl
        origin := fun _ member => .inl (List.mem_filter.mp member).1
        kept := fun _ member alive => List.mem_filter.mpr ⟨member, by simp [alive]⟩
        stored := fun _ none => none.elim
        nodup := fun distinct => distinct.sublist (List.filter_sublist.map _) }

theorem get?_afterGet : (c.afterGet now key).get? now key = c.get? now key := by
  unfold afterGet
  split
  · rfl
  · next missed =>
    rw [missed]
    rw [get?_eq_none_iff] at missed ⊢
    exact fun e member => missed e (List.mem_filter.mp member).1

theorem get?_eq_none_of_le (missed : c.get? now key = none) (order : now ≤ later) :
    c.get? later key = none := by
  rw [get?_eq_none_iff] at missed ⊢
  exact fun e member same => Nat.le_trans (missed e member same) order

private theorem step_put (value : α) (missed : c.get? now key = none) :
    Step now (· = ⟨key, value, now + c.lifetime⟩) c (c.put now key value) := by
  have free : ∀ e ∈ (c.purge now).entries, e.key ≠ key := by
    intro e member same
    obtain ⟨held, alive⟩ := List.mem_filter.mp member
    exact absurd (get?_eq_none_iff.mp missed e held same) (by simpa using alive)
  have put : c.put now key value =
      ⟨c.lifetime, ⟨key, value, now + c.lifetime⟩ :: (c.purge now).entries⟩ := by
    have absent : (c.purge now).entries.any (·.key == key) = false := by simpa using free
    simp only [Cache.put, absent]
    rfl
  have purged := step_purge now c
  rw [put]
  exact
    { lifetime := rfl
      origin := by
        intro e member
        rcases List.mem_cons.mp member with rfl | old
        · exact .inr rfl
        · exact .inl ((purged.origin e old).resolve_right id)
      kept := fun e member alive => List.mem_cons_of_mem _ (purged.kept e member alive)
      stored := by
        rintro _ rfl
        exact List.mem_cons_self
      nodup := by
        intro distinct
        refine List.nodup_cons.mpr ⟨?_, purged.nodup distinct⟩
        intro taken
        obtain ⟨e, member, same⟩ := List.mem_map.mp taken
        exact free e member same }

theorem step_tryPut (value : α) (missed : c.get? now key = none) :
    Step now (fun e => Clock.CanHold now c.lifetime ∧ e = ⟨key, value, now + c.lifetime⟩) c
      (c.tryPut now key value).2 := by
  unfold tryPut
  split
  · next held => exact (step_put value missed).congr fun e => (and_iff_right held).symm
  · next passed =>
    exact (step_purge now c).congr fun e => iff_of_false id fun stored => passed stored.1

/-- A property that each item of a list has together with the items before it, and a list with one
more item. -/
theorem forall_split_concat {β : Type} {xs : List β} {y : β} {p : List β → β → Prop} :
    (∀ before x rest, xs ++ [y] = before ++ x :: rest → p before x) ↔
      (∀ before x rest, xs = before ++ x :: rest → p before x) ∧ p xs y := by
  constructor
  · intro all
    refine ⟨?_, all xs y [] rfl⟩
    intro before x rest whole
    exact all before x (rest ++ [y]) (by simp [whole])
  · rintro ⟨front, last⟩ before x rest whole
    rcases List.eq_nil_or_concat' rest with rfl | ⟨rest, z, rfl⟩
    · obtain ⟨rfl, same⟩ := List.append_inj' whole rfl
      obtain rfl : y = x := by simpa using same
      exact last
    · rw [← List.cons_append, ← List.append_assoc] at whole
      exact front before x rest (List.append_inj' whole rfl).1

end AuditPanel.Cache
