import AuditPanel.Proofs.Audit.Cache
import Mathlib.Data.Finset.Card
import Mathlib.Data.Finset.Dedup

/-!
Runs of calls on a cache that starts empty. A put crashes when the clock cannot hold the end of life
of its value. As long as no entry reaches its expiry the cache is what the first of the other puts
made it, and nothing but a first put changes it. With a lifetime of zero every entry is dead by the
next reading of the clock, and there is never more than one.
-/

set_option autoImplicit false

namespace AuditPanel.Cache

variable {α : Type}

/-- The cache with a value under a key, unless a value lives there already; a dead one is
replaced. -/
def store (c : Cache α) (now : Nat) (key : String) (value : α) : Cache α :=
  if c.entries.any fun e => e.key == key && now < e.expiry then c
  else { c with entries := ⟨key, value, now + c.lifetime⟩ :: c.entries.filter (·.key != key) }

/-- A call with its readings of the clock. A put reads it when it drops dead entries and again when
it stores. -/
inductive Call (α : Type)
  | get (now : Nat) (key : String)
  | put (purged stored : Nat) (key : String) (value : α)
  | purge (now : Nat)

namespace Call

/-- The readings of a call, in their order. -/
def readings : Call α → List Nat
  | get now _ => [now]
  | put purged stored _ _ => [purged, stored]
  | purge now => [now]

def pair? : Call α → Option (String × α)
  | put _ _ key value => some (key, value)
  | _ => none

/-- The clock can hold the end of life of what the call puts. -/
def InTime (lifetime : Nat) : Call α → Prop
  | put _ stored _ _ => Clock.CanHold stored lifetime
  | _ => True

instance (lifetime : Nat) : (call : Call α) → Decidable (call.InTime lifetime)
  | get _ _ => inferInstanceAs (Decidable True)
  | put _ stored _ _ => inferInstanceAs (Decidable (Clock.CanHold stored lifetime))
  | purge _ => inferInstanceAs (Decidable True)

/-- Whether a call goes well, and the cache after it. A put that crashes has dropped the dead
entries. -/
def run (c : Cache α) : Call α → Bool × Cache α
  | get now key => (true, c.afterGet now key)
  | put purged stored key value =>
    if Clock.CanHold stored c.lifetime then (true, (c.purge purged).store stored key value)
    else (false, c.purge purged)
  | purge now => (true, c.purge now)

end Call

def after (lifetime : Nat) (calls : List (Call α)) : Cache α :=
  calls.foldl (fun c call => (call.run c).2) (empty lifetime)

/-- The calls that go well on a cache. -/
def goneWell (lifetime : Nat) (calls : List (Call α)) : List (Call α) :=
  calls.filter (·.InTime lifetime)

/-- The value of the first put of a key. -/
def firstPut? (key : String) (calls : List (Call α)) : Option α :=
  (calls.filterMap Call.pair?).lookup key

def putKeys (calls : List (Call α)) : List String :=
  (calls.filterMap Call.pair?).map (·.1)

/-- No entry has reached its expiry when a call reads the clock. -/
def Lasts (lifetime : Nat) (calls : List (Call α)) : Prop :=
  ∀ before call rest, calls = before ++ call :: rest →
    ∀ e ∈ (after lifetime before).entries, ∀ now ∈ call.readings, now < e.expiry

/-- The clock never goes back. -/
def InOrder (calls : List (Call α)) : Prop :=
  (calls.flatMap Call.readings).Pairwise (· ≤ ·)

variable {c : Cache α} {calls : List (Call α)} {call : Call α} {lifetime now : Nat} {key : String}
  {value : α}

private theorem after_concat : after lifetime (calls ++ [call]) =
    (call.run (after lifetime calls)).2 := by
  simp [after]

/-- A cache with an entry for each key that was put, which has the value of the first put. -/
structure Holds (c : Cache α) (calls : List (Call α)) : Prop where
  distinct : c.keys.Nodup
  values : ∀ key value,
    (∃ e ∈ c.entries, e.key = key ∧ e.value = value) ↔ firstPut? key calls = some value

section Alive

variable (alive : ∀ e ∈ c.entries, now < e.expiry)
include alive

private theorem purge_of_alive : c.purge now = c := by
  have all : c.entries.filter (fun e => now < e.expiry) = c.entries := by
    apply List.filter_eq_self.mpr
    simpa using alive
  rw [purge, all]

private theorem afterGet_of_alive : c.afterGet now key = c := by
  have all : c.entries.filter (fun e => e.key != key || now < e.expiry) = c.entries := by
    apply List.filter_eq_self.mpr
    intro e member
    simp [alive e member]
  rw [afterGet]
  split
  · rfl
  · rw [all]

private theorem store_of_alive : c.store now key value =
    if key ∈ c.keys then c else ⟨c.lifetime, ⟨key, value, now + c.lifetime⟩ :: c.entries⟩ := by
  have held : (c.entries.any fun e => e.key == key && now < e.expiry) ↔ key ∈ c.keys := by
    simp only [List.any_eq_true, Bool.and_eq_true, beq_iff_eq, decide_eq_true_eq, keys,
      List.mem_map]
    exact exists_congr fun e => and_congr_right fun member => and_iff_left (alive e member)
  rw [store]
  by_cases taken : key ∈ c.keys
  · rw [if_pos taken, if_pos (held.mpr taken)]
  · have others : c.entries.filter (·.key != key) = c.entries := by
      apply List.filter_eq_self.mpr
      intro e member
      have other : e.key ≠ key := fun same => taken (List.mem_map.mpr ⟨e, member, same⟩)
      simpa using other
    rw [if_neg taken, if_neg (held.not.mpr taken), others]

end Alive

private theorem run_put_same : (Call.put now now key value).run c = c.tryPut now key value := by
  have alive : ∀ e ∈ (c.purge now).entries, now < e.expiry := by
    intro e member
    simpa using (List.mem_filter.mp member).2
  have held : (c.purge now).entries.any (·.key == key) ↔ key ∈ (c.purge now).keys := by
    simp [keys]
  simp only [Call.run, tryPut, store_of_alive alive, put, held]

private theorem firstPut?_concat (key : String) (calls : List (Call α)) (call : Call α) :
    firstPut? key (calls ++ [call]) =
      (firstPut? key calls).or (call.pair?.bind fun p => if p.1 = key then some p.2 else none) := by
  rw [firstPut?, List.filterMap_append, List.lookup_append, ← firstPut?]
  congr 1
  cases call with
  | get => rfl
  | purge => rfl
  | put purged stored key' value =>
    by_cases same : key' = key
    · simp [Call.pair?, same]
    · have other : (key == key') = false := beq_false_of_ne (Ne.symm same)
      simp [Call.pair?, List.lookup_cons, same, other]

private theorem firstPut?_isSome_iff : (firstPut? key calls).isSome ↔ key ∈ putKeys calls := by
  rw [firstPut?, putKeys, List.lookup_isSome_iff]
  simp

namespace Holds

private theorem mem_keys_iff (h : Holds c calls) : key ∈ c.keys ↔ (firstPut? key calls).isSome := by
  simp only [keys, List.mem_map, Option.isSome_iff_exists, ← h.values]
  constructor
  · rintro ⟨e, member, same⟩
    exact ⟨e.value, e, member, same, rfl⟩
  · rintro ⟨_, e, member, same, -⟩
    exact ⟨e, member, same⟩

private theorem size_eq (h : Holds c calls) : c.size = (putKeys calls).toFinset.card := by
  have same : c.keys.toFinset = (putKeys calls).toFinset := by
    ext key
    rw [List.mem_toFinset, List.mem_toFinset, h.mem_keys_iff, firstPut?_isSome_iff]
  rw [← same, List.toFinset_card_of_nodup h.distinct, keys, List.length_map, size]

private theorem get?_eq (h : Holds c calls) (alive : ∀ e ∈ c.entries, now < e.expiry) :
    c.get? now key = firstPut? key calls := by
  ext value
  rw [get?_eq_some_iff h.distinct, ← h.values]
  exact exists_congr fun e => and_congr_right fun member => and_congr_right fun _ =>
    and_iff_right (alive e member)

theorem run_eq (alive : ∀ e ∈ c.entries, ∀ now ∈ call.readings, now < e.expiry)
    (none : call.pair? = none ∨ ¬call.InTime c.lifetime) : (call.run c).2 = c := by
  cases call with
  | get now key =>
    exact afterGet_of_alive fun e member => alive e member now (by simp [Call.readings])
  | purge now => exact purge_of_alive fun e member => alive e member now (by simp [Call.readings])
  | put purged stored key value =>
    rcases none with none | late
    · cases none
    · have late : ¬Clock.CanHold stored c.lifetime := late
      rw [Call.run, if_neg late]
      exact purge_of_alive fun e member => alive e member purged (by simp [Call.readings])

private theorem of_pair?_eq_none (h : Holds c calls) (none : call.pair? = none) :
    Holds c (calls ++ [call]) := by
  refine ⟨h.distinct, fun key value => ?_⟩
  rw [h.values, firstPut?_concat, none, Option.bind_none, Option.or_none]

private theorem put (h : Holds c calls) {purged stored : Nat}
    (first : ∀ e ∈ c.entries, purged < e.expiry) (second : ∀ e ∈ c.entries, stored < e.expiry) :
    Holds ((c.purge purged).store stored key value)
      (calls ++ [.put purged stored key value]) := by
  have values (key' : String) : firstPut? key' (calls ++ [.put purged stored key value]) =
      (firstPut? key' calls).or (if key = key' then some value else none) := firstPut?_concat _ _ _
  rw [purge_of_alive first, store_of_alive second]
  by_cases taken : key ∈ c.keys
  · -- The first put of the key was an earlier one.
    rw [if_pos taken]
    refine ⟨h.distinct, fun key' value' => ?_⟩
    rw [h.values, values]
    by_cases same : key = key'
    · obtain ⟨old, held⟩ := Option.isSome_iff_exists.mp (h.mem_keys_iff.mp taken)
      rw [← same, held, Option.some_or]
    · rw [if_neg same, Option.or_none]
  · rw [if_neg taken]
    have fresh : firstPut? key calls = none := by
      simpa using h.mem_keys_iff.not.mp taken
    refine ⟨List.nodup_cons.mpr ⟨taken, h.distinct⟩, fun key' value' => ?_⟩
    simp only [List.mem_cons, exists_eq_or_imp, h.values, values]
    by_cases same : key = key'
    · simp [← same, fresh]
    · simp [same]

theorem run (h : Holds c calls) (alive : ∀ e ∈ c.entries, ∀ now ∈ call.readings, now < e.expiry)
    (timely : call.InTime c.lifetime) : Holds (call.run c).2 (calls ++ [call]) := by
  cases call with
  | get now key =>
    rw [run_eq alive (.inl rfl)]
    exact h.of_pair?_eq_none rfl
  | purge now =>
    rw [run_eq alive (.inl rfl)]
    exact h.of_pair?_eq_none rfl
  | put purged stored key value =>
    have timely : Clock.CanHold stored c.lifetime := timely
    rw [Call.run, if_pos timely]
    apply h.put
    · intro e member
      exact alive e member purged (by simp [Call.readings])
    · intro e member
      exact alive e member stored (by simp [Call.readings])

end Holds

private theorem lifetime_run (call : Call α) (c : Cache α) :
    (call.run c).2.lifetime = c.lifetime := by
  cases call with
  | get now key =>
    rw [Call.run, afterGet]
    split <;> rfl
  | purge now => rfl
  | put purged stored key value =>
    rw [Call.run, store]
    split
    · split <;> rfl
    · rfl

private theorem lifetime_after (lifetime : Nat) (calls : List (Call α)) :
    (after lifetime calls).lifetime = lifetime := by
  induction calls using List.reverseRecOn with
  | nil => rfl
  | append_singleton calls call ih => rw [after_concat, lifetime_run, ih]

private theorem lasts_concat : Lasts lifetime (calls ++ [call]) ↔ Lasts lifetime calls ∧
    ∀ e ∈ (after lifetime calls).entries, ∀ now ∈ call.readings, now < e.expiry :=
  forall_split_concat (p := fun before call =>
    ∀ e ∈ (after lifetime before).entries, ∀ now ∈ call.readings, now < e.expiry)

theorem Lasts.holds (lasts : Lasts lifetime calls) :
    Holds (after lifetime calls) (goneWell lifetime calls) := by
  induction calls using List.reverseRecOn with
  | nil => exact ⟨List.nodup_nil, by simp [after, empty, goneWell, firstPut?]⟩
  | append_singleton calls call ih =>
    obtain ⟨front, alive⟩ := lasts_concat.mp lasts
    rw [after_concat, goneWell, List.filter_append]
    by_cases timely : call.InTime lifetime
    · rw [List.filter_singleton, decide_eq_true timely]
      exact (ih front).run alive (by rwa [lifetime_after])
    · rw [List.filter_singleton, decide_eq_false timely, cond_false, List.append_nil]
      rw [Holds.run_eq alive (.inr (by rwa [lifetime_after]))]
      exact ih front

private theorem mem_of_mem_afterGet {e : CacheEntry α}
    (member : e ∈ (c.afterGet now key).entries) : e ∈ c.entries :=
  ((step_afterGet now key c).origin e member).resolve_right id

private theorem mem_or_eq_of_mem_store {e : CacheEntry α}
    (member : e ∈ (c.store now key value).entries) :
    e ∈ c.entries ∨ e = ⟨key, value, now + c.lifetime⟩ := by
  rw [store] at member
  split at member
  · exact .inl member
  · rcases List.mem_cons.mp member with new | old
    · exact .inr new
    · exact .inl (List.mem_filter.mp old).1

private theorem expiry_of_mem_run {e : CacheEntry α} (member : e ∈ (call.run c).2.entries) :
    e ∈ c.entries ∨ ∃ now ∈ call.readings, e.expiry = now + c.lifetime := by
  cases call with
  | get now key => exact .inl (mem_of_mem_afterGet member)
  | purge now => exact .inl (List.mem_filter.mp member).1
  | put purged stored key value =>
    rw [Call.run] at member
    split at member
    · rcases mem_or_eq_of_mem_store member with old | rfl
      · exact .inl (List.mem_filter.mp old).1
      · exact .inr ⟨stored, by simp [Call.readings], rfl⟩
    · exact .inl (List.mem_filter.mp member).1

private theorem expiry_of_mem_after {e : CacheEntry α}
    (member : e ∈ (after lifetime calls).entries) :
    ∃ now ∈ calls.flatMap Call.readings, e.expiry = now + lifetime := by
  induction calls using List.reverseRecOn with
  | nil => cases member
  | append_singleton calls call ih =>
    rw [after_concat] at member
    rcases expiry_of_mem_run member with old | ⟨now, reading, expiry⟩
    · obtain ⟨now, reading, expiry⟩ := ih old
      exact ⟨now, by simp [List.flatMap_append, reading], expiry⟩
    · rw [lifetime_after] at expiry
      exact ⟨now, by simp [List.flatMap_append, reading], expiry⟩

private theorem InOrder.front (ordered : InOrder (calls ++ [call])) : InOrder calls := by
  rw [InOrder, List.flatMap_append] at ordered
  exact (List.pairwise_append.mp ordered).1

private theorem InOrder.expiry_le (ordered : InOrder (calls ++ [call])) :
    ∀ e ∈ (after 0 calls).entries, ∀ now ∈ call.readings, e.expiry ≤ now := by
  intro e member now reading
  rw [InOrder, List.flatMap_append] at ordered
  obtain ⟨past, earlier, expiry⟩ := expiry_of_mem_after member
  rw [expiry]
  exact (List.pairwise_append.mp ordered).2.2 past earlier now (by simpa using reading)

private theorem purge_of_dead (dead : ∀ e ∈ c.entries, e.expiry ≤ now) :
    (c.purge now).entries = [] := by
  apply List.filter_eq_nil_iff.mpr
  simpa using dead

private theorem key_ne_of_mem_afterGet (missed : c.get? now key = none) :
    ∀ e ∈ (c.afterGet now key).entries, e.key ≠ key := by
  rw [afterGet, missed]
  intro e member same
  obtain ⟨held, kept⟩ := List.mem_filter.mp member
  have dead := get?_eq_none_iff.mp missed e held same
  have alive : now < e.expiry := by simpa [same] using kept
  omega

private theorem size_afterGet_le : (c.afterGet now key).size ≤ c.size := by
  rw [afterGet]
  split
  · exact le_refl _
  · exact List.length_filter_le _ _

private theorem size_store_of_empty (none : c.entries = []) : (c.store now key value).size = 1 := by
  simp [store, size, none]

private theorem InOrder.size_le (ordered : InOrder calls) : (after 0 calls).size ≤ 1 := by
  induction calls using List.reverseRecOn with
  | nil => exact Nat.zero_le 1
  | append_singleton calls call ih =>
    have before := ih ordered.front
    have dead := ordered.expiry_le
    rw [after_concat]
    cases call with
    | get now key => exact size_afterGet_le.trans before
    | purge now => exact (List.length_filter_le _ _).trans before
    | put purged stored key value =>
      have cleared : ((after 0 calls).purge purged).entries = [] := by
        apply purge_of_dead
        intro e member
        exact dead e member purged (by simp [Call.readings])
      rw [Call.run]
      split
      · exact (size_store_of_empty cleared).le
      · exact (congrArg List.length cleared).le.trans (Nat.zero_le 1)

/-- A call goes well exactly if the clock can hold the end of life of what it puts. While no entry
expires, a cache answers with the first put of a key that goes well, has as many entries as keys
were put, and is changed by such puts alone. With a lifetime of zero and a clock that does not go
back, every lookup misses and leaves no entry under its key, there is one entry at most, and none
after a purge. The calls are those of the cache; a put that reads the clock once is the special case
of equal readings. -/
theorem after_keepsFirstPuts (lifetime : Nat) (calls : List (Call α)) :
    (∀ (c : Cache α) now key value,
      (Call.put now now key value).run c = c.tryPut now key value) ∧
    (∀ call : Call α, (call.run (after lifetime calls)).1 = true ↔ call.InTime lifetime) ∧
    (Lasts lifetime calls →
      (after lifetime calls).size = (putKeys (goneWell lifetime calls)).toFinset.card ∧
      ∀ call, Lasts lifetime (calls ++ [call]) →
        (∀ now key, call = .get now key →
          (after lifetime calls).get? now key = firstPut? key (goneWell lifetime calls)) ∧
        (call.pair? = none ∨ ¬call.InTime lifetime →
          after lifetime (calls ++ [call]) = after lifetime calls)) ∧
    (InOrder calls →
      (after 0 calls).size ≤ 1 ∧
      ∀ call, InOrder (calls ++ [call]) →
        (∀ now key, call = .get now key → (after 0 calls).get? now key = none ∧
          ∀ e ∈ (after 0 (calls ++ [call])).entries, e.key ≠ key) ∧
        (∀ now, call = .purge now → (after 0 (calls ++ [call])).entries = [])) := by
  refine ⟨fun c now key value => run_put_same, ?_, ?_, ?_⟩
  · intro call
    cases call with
    | get now key => exact iff_of_true rfl trivial
    | purge now => exact iff_of_true rfl trivial
    | put purged stored key value =>
      rw [Call.run, lifetime_after]
      split
      · next timely => exact iff_of_true rfl timely
      · next late => exact iff_of_false Bool.false_ne_true late
  · intro lasts
    refine ⟨lasts.holds.size_eq, fun call longer => ?_⟩
    have alive := (lasts_concat.mp longer).2
    constructor
    · rintro now key rfl
      apply lasts.holds.get?_eq
      intro e member
      exact alive e member now (by simp [Call.readings])
    · intro none
      rw [after_concat]
      exact Holds.run_eq alive (by rwa [lifetime_after])
  · intro ordered
    refine ⟨ordered.size_le, fun call longer => ?_⟩
    have dead := longer.expiry_le
    rw [after_concat]
    constructor
    · rintro now key rfl
      have missed : (after 0 calls).get? now key = none := by
        apply get?_eq_none_iff.mpr
        intro e member _
        exact dead e member now (by simp [Call.readings])
      exact ⟨missed, key_ne_of_mem_afterGet missed⟩
    · rintro now rfl
      apply purge_of_dead
      intro e member
      exact dead e member now (by simp [Call.readings])

/-- Two puts of one key and one of another, with a lifetime that suffices and with none. -/
theorem after_keepsFirstPuts_again :
    let calls : List (Call Nat) := [.put 0 0 "a" 10, .put 1 2 "a" 99, .put 2 3 "b" 7]
    (Lasts 5 (calls ++ [.get 4 "a"]) ∧ (after 5 calls).size = 2 ∧
        (after 5 calls).get? 4 "a" = some 10) ∧
      InOrder (calls ++ [.get 3 "b"]) ∧ (after 0 calls).size ≤ 1 ∧
        (after 0 calls).get? 3 "b" = none := by
  intro calls
  have lasts : Lasts 5 calls := by
    have none : Lasts 5 ([] : List (Call Nat)) := by simp [Lasts]
    have one : Lasts 5 [Call.put 0 0 "a" 10] := lasts_concat.mpr ⟨none, by decide⟩
    have two : Lasts 5 [Call.put 0 0 "a" 10, .put 1 2 "a" 99] :=
      lasts_concat.mpr ⟨one, by decide⟩
    exact lasts_concat.mpr ⟨two, by decide⟩
  have longer : Lasts 5 (calls ++ [.get 4 "a"]) := lasts_concat.mpr ⟨lasts, by decide⟩
  have ordered : InOrder calls := by simp [InOrder, Call.readings, calls]
  have longer' : InOrder (calls ++ [.get 3 "b"]) := by simp [InOrder, Call.readings, calls]
  obtain ⟨size, kept⟩ := (after_keepsFirstPuts 5 calls).2.2.1 lasts
  obtain ⟨small, lost⟩ := (after_keepsFirstPuts 5 calls).2.2.2 ordered
  have found := (kept _ longer).1 4 "a" rfl
  exact ⟨⟨longer, size, found⟩, longer', small, ((lost _ longer').1 3 "b" rfl).1⟩

/-- The longest lifetime that settings can have. -/
def longestLifetime : Nat := 1000 * ((1 <<< 64) - 1)

/-- A put into a cache with that lifetime crashes, and the value is not there. -/
theorem after_longestLifetime_loses :
    let calls : List (Call Nat) := [.put 0 0 "a" 10]
    Lasts longestLifetime (calls ++ [.get 0 "a"]) ∧ firstPut? "a" calls = some 10 ∧
      (Call.run (after longestLifetime []) (.put 0 0 "a" 10)).1 = false ∧
        (after longestLifetime calls).get? 0 "a" = none ∧
          (after longestLifetime calls).size = 0 := by
  intro calls
  have none : Lasts longestLifetime ([] : List (Call Nat)) := by simp [Lasts]
  have one : Lasts longestLifetime calls := lasts_concat.mpr ⟨none, by decide⟩
  exact ⟨lasts_concat.mpr ⟨one, by decide⟩, rfl, by decide, by decide, by decide⟩

end AuditPanel.Cache
