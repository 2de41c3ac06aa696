import AuditPanel.Proofs.Audit.SourceAudit

/-!
The cache in every state that an engine gets into by audits of sources and of addresses, whether
entries expire or not: all its views are full, no two have one key, and an audit takes none away
that lives as long as it looks at the clock.
-/

set_option autoImplicit false

namespace AuditPanel.Auditor

open Consensus (Aggregate)
open SourceAudit

/-- The last time at which an audit of an address reads the clock. -/
def addressEnds (a : Auditor) (o : Occasion) (address chain : String) (options : AuditOptions)
    (s : AuditorState) : Nat :=
  match a.fetchedSource? address chain with
  | none => o.millis
  | some source => SourceAudit.ends ⟨o, source, { options with chain := some chain }⟩ a s

/-- An audit of a source or of an address, from the state before it to the one after it, with the
last time at which it reads the clock. -/
inductive Audits (a : Auditor) : Nat → AuditorState → AuditorState → Prop
  | source (x : SourceAudit) (s : AuditorState) : Audits a (x.ends a s) s (x.run a s).2
  | address (o : Occasion) (address chain : String) (options : AuditOptions) (s : AuditorState) :
      Audits a (a.addressEnds o address chain options s) s
        (a.auditAddress o address chain options s).2

/-- The states that an engine gets into. -/
inductive Reachable (a : Auditor) : AuditorState → Prop
  | initial : Reachable a (.initial a.settings)
  | audit {now : Nat} {s s' : AuditorState} : Reachable a s → Audits a now s s' → Reachable a s'

/-- What may become of the cache up to a time: nothing but full views comes in. -/
inductive CacheSteps (now : Nat) : Option (Cache Aggregate) → Option (Cache Aggregate) → Prop
  | absent : CacheSteps now none none
  | present {c c' : Cache Aggregate} {added : CacheEntry Aggregate → Prop} :
      Cache.Step now added c c' → (∀ e, added e → e.value.failed = []) →
        CacheSteps now (some c) (some c')

/-- A cache of full views with a key for each. -/
structure IsSound (c : Cache Aggregate) : Prop where
  full : ∀ e ∈ c.entries, e.value.failed = []
  distinct : c.keys.Nodup

/-- An engine whose caches are sound, and whose audits take no entry away that lives. -/
structure KeepsFullViews (a : Auditor) : Prop where
  sound {s : AuditorState} {c : Cache Aggregate} : Reachable a s → s.cache = some c → IsSound c
  kept {now : Nat} {s s' : AuditorState} {c : Cache Aggregate} : Audits a now s s' →
    s.cache = some c → ∃ c', s'.cache = some c' ∧ ∀ e ∈ c.entries, now < e.expiry → e ∈ c'.entries

variable {a : Auditor} {s s' : AuditorState} {now : Nat}

private theorem CacheSteps.refl (now : Nat) (cache : Option (Cache Aggregate)) :
    CacheSteps now cache cache := by
  cases cache with
  | none => exact .absent
  | some c => exact .present (Cache.Step.refl now c) fun _ none => none.elim

theorem runSource_cache_none {o : Occasion} {source : String} {options : AuditOptions}
    (none : s.cache = none) : (a.runSource o source options s).2.cache = Option.none := by
  cases prepared : prepare a.settings source options with
  | error e => simp only [runSource, prepared, none]
  | ok p =>
    rw [runSource_of_prepare prepared]
    have ways := consult_consults (o := o) prepared s
    generalize consult a o source options p s = run at ways
    cases ways <;> simp [missedState, remember, none]

private theorem cacheSteps_runSource (x : SourceAudit) (a : Auditor) (s : AuditorState) :
    CacheSteps (x.ends a s) s.cache (a.runSource x.occasion x.source x.options s).2.cache := by
  cases held : s.cache with
  | none =>
    rw [runSource_cache_none held]
    exact .absent
  | some c =>
    obtain ⟨c', after, step⟩ := step_runSource (x := x) (a := a) held
    rw [after]
    exact .present step fun e added => added.full

private theorem cacheSteps_runAddress (a : Auditor) (o : Occasion) (address chain : String)
    (options : AuditOptions) (s : AuditorState) :
    CacheSteps (a.addressEnds o address chain options s) s.cache
      (a.runAddress o address chain options s).2.cache := by
  unfold addressEnds
  rcases runAddress_cases a o address chain options s with
    ⟨unfetched, -, n, state⟩ | ⟨source, size, fetched, run⟩
  · rw [state]
    exact .refl _ _
  · rw [fetched, run]
    exact cacheSteps_runSource ⟨o, source, { options with chain := some chain }⟩ a
      { s with fetches := s.fetches + 1 }

private theorem Audits.cacheSteps (audited : Audits a now s s') :
    CacheSteps now s.cache s'.cache := by
  cases audited with
  | source x =>
    rw [cache_run]
    exact cacheSteps_runSource x a s
  | address o address chain options =>
    rw [auditAddress, cache_finish]
    exact cacheSteps_runAddress a o address chain options s

theorem Audits.lifetime (audited : Audits a now s s')
    (lifetime : ∀ c ∈ s.cache, a.settings.cacheTtl = some c.lifetime) :
    ∀ c ∈ s'.cache, a.settings.cacheTtl = some c.lifetime := by
  have steps := audited.cacheSteps
  generalize s'.cache = cache' at steps
  generalize s.cache = cache at steps lifetime
  cases steps with
  | absent => simp
  | present step =>
    rintro _ ⟨⟩
    rw [lifetime _ rfl, step.lifetime]

private theorem CacheSteps.isSound {cache cache' : Option (Cache Aggregate)}
    (steps : CacheSteps now cache cache') (sound : ∀ c, cache = some c → IsSound c) :
    ∀ c', cache' = some c' → IsSound c' := by
  cases steps with
  | absent => simp
  | @present c c' added step full =>
    rintro _ ⟨⟩
    have old := sound c rfl
    refine ⟨?_, step.nodup old.distinct⟩
    intro e member
    exact (step.origin e member).elim (old.full e) (full e)

theorem Reachable.isSound (reached : Reachable a s) : ∀ c, s.cache = some c → IsSound c := by
  induction reached with
  | initial =>
    intro c held
    obtain ⟨ttl, -, rfl⟩ := Option.map_eq_some_iff.mp held
    exact ⟨by simp [Cache.empty], by simp [Cache.keys, Cache.empty]⟩
  | audit _ audited ih => exact audited.cacheSteps.isSound ih

theorem keepsFullViews (a : Auditor) : KeepsFullViews a where
  sound reached held := reached.isSound _ held
  kept := by
    intro now s s' c audited held
    have steps := audited.cacheSteps
    rw [held] at steps
    cases after : s'.cache with
    | none =>
      rw [after] at steps
      cases steps
    | some c' =>
      rw [after] at steps
      cases steps with
      | present step full => exact ⟨c', rfl, step.kept⟩

end AuditPanel.Auditor
