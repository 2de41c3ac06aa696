import AuditPanel.Proofs.Audit.CacheInvariant
import Mathlib.Data.List.Induction

/-!
Audits of sources one after the other. While entries live, the cache holds the full views of all
earlier audits and nothing else, each under the key of what the panel was asked.
-/

set_option autoImplicit false

namespace AuditPanel.Auditor

open Consensus (Aggregate)
open SourceAudit

/-- The state of an engine after audits of sources. -/
def stateAfter (a : Auditor) (past : List SourceAudit) : AuditorState :=
  past.foldl (fun s x => (x.run a s).2) (.initial a.settings)

/-- The cache of an engine after audits of sources, if entries live for `ttl`. -/
def cacheAfter (a : Auditor) (ttl : Nat) (past : List SourceAudit) : Cache Aggregate :=
  (a.stateAfter past).cache.getD (.empty ttl)

/-- No entry of the cache has reached its expiry when an audit reads the clock. -/
def Fresh (a : Auditor) (audits : List SourceAudit) : Prop :=
  ∀ before x rest, audits = before ++ x :: rest → ∀ c, (a.stateAfter before).cache = some c →
    ∀ e ∈ c.entries, x.ends a (a.stateAfter before) < e.expiry

variable {a : Auditor} {ttl : Nat} {past before between : List SourceAudit} {x y : SourceAudit}
  {e : CacheEntry Aggregate}

theorem stateAfter_concat (a : Auditor) (past : List SourceAudit) (x : SourceAudit) :
    a.stateAfter (past ++ [x]) = (x.run a (a.stateAfter past)).2 := by
  simp [stateAfter]

theorem reachable_stateAfter (a : Auditor) (past : List SourceAudit) :
    Reachable a (a.stateAfter past) := by
  induction past using List.reverseRecOn with
  | nil => exact .initial
  | append_singleton past x ih =>
    rw [stateAfter_concat]
    exact .audit ih (.source x _)

theorem fresh_concat : Fresh a (past ++ [x]) ↔ Fresh a past ∧
    ∀ c, (a.stateAfter past).cache = some c → ∀ e ∈ c.entries, x.ends a (a.stateAfter past) <
      e.expiry :=
  Cache.forall_split_concat (p := fun before x => ∀ c, (a.stateAfter before).cache = some c →
    ∀ e ∈ c.entries, x.ends a (a.stateAfter before) < e.expiry)

section Caching

variable (caching : a.settings.cacheTtl = some ttl)
include caching

private theorem cache_stateAfter (past : List SourceAudit) :
    (a.stateAfter past).cache = some (a.cacheAfter ttl past) ∧
      (a.cacheAfter ttl past).lifetime = ttl := by
  suffices held : ∃ c, (a.stateAfter past).cache = some c ∧ c.lifetime = ttl by
    obtain ⟨c, held, lifetime⟩ := held
    simp only [cacheAfter, held, Option.getD_some, lifetime, and_self]
  induction past using List.reverseRecOn with
  | nil => exact ⟨.empty ttl, by simp [stateAfter, AuditorState.initial, caching], rfl⟩
  | append_singleton past x ih =>
    obtain ⟨c, held, lifetime⟩ := ih
    obtain ⟨c', after, step⟩ := step_run (x := x) (a := a) held
    exact ⟨c', by rw [stateAfter_concat, after], step.lifetime.trans lifetime⟩

private theorem step_cacheAfter (past : List SourceAudit) (x : SourceAudit) :
    Cache.Step (x.ends a (a.stateAfter past)) (x.Adds a (a.stateAfter past) ttl)
      (a.cacheAfter ttl past) (a.cacheAfter ttl (past ++ [x])) := by
  obtain ⟨held, lifetime⟩ := cache_stateAfter caching past
  obtain ⟨c', after, step⟩ := step_run (x := x) (a := a) held
  have next : a.cacheAfter ttl (past ++ [x]) = c' := by
    rw [cacheAfter, stateAfter_concat, after, Option.getD_some]
  rw [lifetime] at step
  rwa [next]

theorem keys_nodup_cacheAfter (past : List SourceAudit) : (a.cacheAfter ttl past).keys.Nodup :=
  ((reachable_stateAfter a past).isSound _ (cache_stateAfter caching past).1).distinct

theorem exists_adds_of_mem (member : e ∈ (a.cacheAfter ttl past).entries) :
    ∃ before y between, past = before ++ y :: between ∧ y.Adds a (a.stateAfter before) ttl e := by
  induction past using List.reverseRecOn with
  | nil => simp [cacheAfter, stateAfter, AuditorState.initial, caching, Cache.empty] at member
  | append_singleton past x ih =>
    rcases (step_cacheAfter caching past x).origin e member with old | added
    · obtain ⟨before, y, between, rfl, added⟩ := ih old
      exact ⟨before, y, between ++ [x], by simp, added⟩
    · exact ⟨past, x, [], rfl, added⟩

/-- Audits each of which starts so early that entries stored at the start of the ones before it
outlive its deadline. -/
theorem fresh_of_pairwise {audits : List SourceAudit} (early : audits.Pairwise fun y x =>
    x.millis + a.settings.globalTimeout < y.millis + ttl) : Fresh a audits := by
  rintro before x rest rfl c held e member
  obtain rfl : a.cacheAfter ttl before = c := by
    rw [cacheAfter, held, Option.getD_some]
  obtain ⟨first, y, between, rfl, added⟩ := exists_adds_of_mem caching member
  have order := (List.pairwise_append.mp early).2.2 y (by simp) x (by simp)
  have start := millis_le_ends y a (a.stateAfter first)
  have ended := ends_le x a (a.stateAfter (first ++ y :: between))
  rw [added.expiry]
  omega

private theorem alive_of_fresh (fresh : Fresh a (past ++ [x]))
    (member : e ∈ (a.cacheAfter ttl past).entries) :
    x.ends a (a.stateAfter past) < e.expiry :=
  (fresh_concat.mp fresh).2 _ (cache_stateAfter caching past).1 e member

theorem mem_cacheAfter_append (fresh : Fresh a (before ++ between))
    (member : e ∈ (a.cacheAfter ttl before).entries) :
    e ∈ (a.cacheAfter ttl (before ++ between)).entries := by
  induction between using List.reverseRecOn with
  | nil => simpa using member
  | append_singleton between x ih =>
    rw [← List.append_assoc] at fresh ⊢
    have held := ih (fresh_concat.mp fresh).1
    exact (step_cacheAfter caching (before ++ between) x).kept e held
      (alive_of_fresh caching fresh held)

theorem served?_eq {q : PanelRequest} (asked : x.request? a = some q) (past : List SourceAudit) :
    x.served? a (a.stateAfter past) = (a.cacheAfter ttl past).get? x.millis q.key := by
  obtain ⟨p, prepared, rfl⟩ := exists_of_request? asked
  have key := key_request? prepared
  rw [asked, Option.map_some, Option.some.injEq] at key
  rw [served?_eq_get? prepared (cache_stateAfter caching past).1, key]

theorem served?_of_mem {q : PanelRequest} (fresh : Fresh a (past ++ [x]))
    (asked : x.request? a = some q) (member : e ∈ (a.cacheAfter ttl past).entries)
    (key : e.key = q.key) : x.served? a (a.stateAfter past) = some e.value := by
  have alive := alive_of_fresh caching fresh member
  rw [served?_eq caching asked, Cache.get?_eq_some_iff (keys_nodup_cacheAfter caching _)]
  exact ⟨e, member, key, Nat.lt_of_le_of_lt (millis_le_ends x a _) alive, rfl⟩

theorem exists_mem_of_view? (fresh : Fresh a (before ++ y :: between)) {q : PanelRequest}
    {view : Aggregate} (asked : y.request? a = some q)
    (taken : y.view? a (a.stateAfter before) = some view) (full : view.failed = []) :
    ∃ e ∈ (a.cacheAfter ttl (before ++ y :: between)).entries, e.key = q.key ∧ e.value = view := by
  -- An audit that was served took its view from an entry, and one that was not stored its own.
  cases served : y.served? a (a.stateAfter before) with
  | some kept =>
    obtain rfl : kept = view := by simpa [taken] using (run_of_served? served).1.symm
    rw [served?_eq caching asked,
      Cache.get?_eq_some_iff (keys_nodup_cacheAfter caching before)] at served
    obtain ⟨e, member, key, -, value⟩ := served
    exact ⟨e, mem_cacheAfter_append caching fresh member, key, value⟩
  | none =>
    have added : y.Adds a (a.stateAfter before) ttl
        ⟨q.key, view, y.ends a (a.stateAfter before) + ttl⟩ :=
      ⟨by rw [asked]; rfl, served, taken, full, rfl⟩
    have stored := (step_cacheAfter caching before y).stored _ added
    rw [List.append_cons] at fresh ⊢
    exact ⟨_, mem_cacheAfter_append caching fresh stored, rfl, rfl⟩

end Caching

end AuditPanel.Auditor
