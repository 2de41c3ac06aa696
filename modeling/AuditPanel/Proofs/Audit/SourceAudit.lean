import AuditPanel.Proofs.Audit.Cache
import AuditPanel.Proofs.Audit.CacheKey
import AuditPanel.Proofs.Audit.Engine

/-!
One audit of a source: what it asks the panel, the view that its report is made of, and what it does
to the cache. An audit that finds no view under the key of its request adds its own one, if no
reviewer failed and the clock can hold the end of its life.
-/

set_option autoImplicit false

namespace AuditPanel

open Consensus (Aggregate)

structure SourceAudit where
  occasion : Occasion
  source : String
  options : AuditOptions

namespace SourceAudit

def millis (x : SourceAudit) : Nat :=
  x.occasion.millis

/-- What comes of an audit, and the state that it leaves. -/
def run (x : SourceAudit) (a : Auditor) (s : AuditorState) : Ending AuditReport × AuditorState :=
  a.auditSource x.occasion x.source x.options s

/-- What an audit asks the panel; none for an invalid source. -/
def request? (x : SourceAudit) (a : Auditor) : Option PanelRequest :=
  match Auditor.prepare a.settings x.source x.options with
  | .error _ => none
  | .ok p => some ⟨x.source, p.reviewers, x.options.mode, x.options.chain⟩

/-- The view that an audit finds in the cache. -/
def served? (x : SourceAudit) (a : Auditor) (s : AuditorState) : Option Aggregate :=
  a.cachedView? x.occasion x.source x.options s

/-- The view that the report of an audit is made of. -/
def view? (x : SourceAudit) (a : Auditor) (s : AuditorState) : Option Aggregate :=
  match Auditor.prepare a.settings x.source x.options with
  | .error _ => none
  | .ok p => (a.consult x.occasion x.source x.options p s).1.toOption.map (·.1)

/-- The last time at which an audit reads the clock. -/
def ends (x : SourceAudit) (a : Auditor) (s : AuditorState) : Nat :=
  match x.served? a s with
  | some _ => x.millis
  | none => x.millis + a.sessionTime x.occasion x.source x.options s.made

/-- Audits of valid sources that ask the panel the same, up to the case of the chain. -/
def AsksSame (a : Auditor) (x y : SourceAudit) : Prop :=
  ∃ q q', x.request? a = some q ∧ y.request? a = some q' ∧ q.Same q'

/-- An audit that completes with a view for which no reviewer failed. -/
def CompletesFully (x : SourceAudit) (a : Auditor) (s : AuditorState) : Prop :=
  ∃ r view, (x.run a s).1 = .ok r ∧ x.view? a s = some view ∧ view.failed = []

/-- An entry that an audit adds to a cache: its own full view under the key of its request. -/
structure Adds (x : SourceAudit) (a : Auditor) (s : AuditorState) (lifetime : Nat)
    (e : CacheEntry Aggregate) : Prop where
  key : (x.request? a).map PanelRequest.key = some e.key
  missed : x.served? a s = none
  view : x.view? a s = some e.value
  full : e.value.failed = []
  expiry : e.expiry = x.ends a s + lifetime

variable {a : Auditor} {s : AuditorState} {x y : SourceAudit} {p : Auditor.Preparation}
  {view : Aggregate} {c : Cache Aggregate}

theorem request?_eq (prepared : Auditor.prepare a.settings x.source x.options = .ok p) :
    x.request? a = some ⟨x.source, p.reviewers, x.options.mode, x.options.chain⟩ := by
  simp only [request?, prepared]

theorem key_request? (prepared : Auditor.prepare a.settings x.source x.options = .ok p) :
    (x.request? a).map PanelRequest.key = some p.key := by
  obtain ⟨-, -, -, -, key⟩ := Auditor.prepare_ok prepared
  rw [request?_eq prepared, key]
  rfl

theorem millis_le_ends (x : SourceAudit) (a : Auditor) (s : AuditorState) :
    x.millis ≤ x.ends a s := by
  unfold ends
  split
  · exact Nat.le_refl _
  · exact Nat.le_add_right _ _

theorem ends_le (x : SourceAudit) (a : Auditor) (s : AuditorState) :
    x.ends a s ≤ x.millis + a.settings.globalTimeout := by
  unfold ends
  split
  · exact Nat.le_add_right _ _
  · exact Nat.add_le_add_left (Auditor.sessionTime_le s.made) _

private theorem view?_eq (prepared : Auditor.prepare a.settings x.source x.options = .ok p) :
    x.view? a s = (a.consult x.occasion x.source x.options p s).1.toOption.map (·.1) := by
  simp only [view?, prepared]

theorem view?_eq_some_iff (prepared : Auditor.prepare a.settings x.source x.options = .ok p) :
    x.view? a s = some view ↔
      ∃ elapsed, (a.consult x.occasion x.source x.options p s).1 = .ok (view, elapsed) := by
  rw [view?_eq prepared, Option.map_eq_some_iff]
  simp only [Ending.toOption_eq_some_iff, Prod.exists, exists_and_right, exists_eq_right]

theorem run_of_view? (prepared : Auditor.prepare a.settings x.source x.options = .ok p)
    (taken : x.view? a s = some view) :
    ∃ elapsed, (x.run a s).1 =
      .ok (Auditor.completedReport a.settings x.occasion x.options p view elapsed) := by
  obtain ⟨elapsed, consulted⟩ := (view?_eq_some_iff prepared).mp taken
  obtain ⟨after, completed⟩ := Auditor.auditSource_of_consult prepared consulted
  exact ⟨elapsed, congrArg Prod.fst completed⟩

/-- An audit that is served asks no reviewer: it ends alike with any panel, and it leaves all but
the log as it was. -/
theorem run_of_served? (served : x.served? a s = some view) :
    x.view? a s = some view ∧ ∀ panel, ∃ records,
      x.run { a with panel := panel } s = ((x.run a s).1, { s with records := records }) := by
  cases prepared : Auditor.prepare a.settings x.source x.options with
  | error e => simp [served?, Auditor.cachedView?, prepared] at served
  | ok p =>
    rw [served?, Auditor.cachedView?_eq prepared] at served
    have consulted := Auditor.consult_found a x.source x.options served
    refine ⟨by rw [view?_eq prepared, consulted]; rfl, fun panel => ?_⟩
    have other := Auditor.consult_found { a with panel := panel } x.source x.options served
    rw [run, run, Auditor.auditSource, Auditor.auditSource, Auditor.runSource_of_prepare prepared,
      Auditor.runSource_of_prepare (a := { a with panel := panel }) prepared, consulted, other]
    exact ⟨_, rfl⟩

private theorem not_adds_of_view? (unseen : x.view? a s = none) (lifetime : Nat)
    (e : CacheEntry Aggregate) : ¬x.Adds a s lifetime e := fun added => by
  simpa [unseen] using added.view

private theorem adds_iff (prepared : Auditor.prepare a.settings x.source x.options = .ok p)
    (missed : x.served? a s = none) (taken : x.view? a s = some view) (lifetime : Nat)
    (e : CacheEntry Aggregate) :
    x.Adds a s lifetime e ↔ view.failed = [] ∧ e = ⟨p.key, view, x.ends a s + lifetime⟩ := by
  constructor
  · rintro ⟨key, -, own, full, expiry⟩
    rw [key_request? prepared, Option.some.injEq] at key
    rw [taken, Option.some.injEq] at own
    subst own
    exact ⟨full, by rw [key, ← expiry]⟩
  · rintro ⟨full, rfl⟩
    exact ⟨key_request? prepared, missed, taken, full, rfl⟩

theorem served?_eq_get? (prepared : Auditor.prepare a.settings x.source x.options = .ok p)
    (held : s.cache = some c) : x.served? a s = c.get? x.millis p.key := by
  rw [served?, Auditor.cachedView?_eq prepared, held]
  rfl

private theorem step_remember (c : Cache Aggregate) {now later : Nat} (order : now ≤ later)
    {key : String} (missed : c.get? now key = none) (view : Aggregate) :
    ∃ c', (Auditor.remember (some (c.afterGet now key)) later key view).2 = some c' ∧
      Cache.Step later (fun e => view.failed = [] ∧ Clock.CanHold later c.lifetime ∧
        e = ⟨key, view, later + c.lifetime⟩) c c' := by
  have looked := Cache.step_afterGet now key c
  by_cases full : view.failed = []
  · have put := Cache.step_tryPut view
      (Cache.get?_eq_none_of_le (Cache.get?_afterGet.trans missed) order)
    rw [looked.lifetime] at put
    refine ⟨_, by simp [Auditor.remember, full], (looked.trans put order).congr fun e => ?_⟩
    exact (and_iff_right full).symm
  · refine ⟨c.afterGet now key, by simp [Auditor.remember, full], ?_⟩
    have stays := looked.trans (Cache.Step.refl later _) order
    exact stays.congr fun e => iff_of_false id fun added => full added.1

private theorem ends_of_session? {session : Session.Outcome} (missed : x.served? a s = none)
    (held : a.session? x.occasion x.source x.options s.made = some session) :
    x.ends a s = x.millis + session.elapsed := by
  rw [ends, missed]
  exact congrArg (x.millis + ·) (Auditor.sessionTime_of_session? held)

private theorem step_consult (prepared : Auditor.prepare a.settings x.source x.options = .ok p)
    (held : s.cache = some c) :
    ∃ c', (a.consult x.occasion x.source x.options p s).2.cache = some c' ∧
      Cache.Step (x.ends a s) (x.Adds a s c.lifetime) c c' := by
  have looked := (Cache.step_afterGet x.millis p.key c).trans (Cache.Step.refl (x.ends a s) _)
    (millis_le_ends x a s)
  have cache : (Auditor.missedState x.occasion p s).cache = some (c.afterGet x.millis p.key) := by
    rw [Auditor.missedState, held]
    rfl
  have own := view?_eq (s := s) prepared
  have ways := Auditor.consult_consults (o := x.occasion) prepared s
  generalize a.consult x.occasion x.source x.options p s = run at own ways
  cases ways with
  | @found view served =>
    refine ⟨c, held, (Cache.Step.refl _ c).congr fun e => iff_of_false id fun added => ?_⟩
    cases added.missed.symm.trans served
  | late => exact ⟨_, cache, looked.congr fun e => iff_of_false id (not_adds_of_view? own _ e)⟩
  | silent => exact ⟨_, cache, looked.congr fun e => iff_of_false id (not_adds_of_view? own _ e)⟩
  | @taken session view missed asked _ storable =>
    have ended := ends_of_session? missed asked
    obtain ⟨c', after, step⟩ := step_remember c (Nat.le_add_right x.millis session.elapsed)
      ((served?_eq_get? prepared held).symm.trans missed) view
    refine ⟨c', by rw [cache, ← after]; rfl, ?_⟩
    rw [ended]
    refine step.congr fun e => ?_
    rw [adds_iff prepared missed own, ended]
    exact and_congr_right fun full => and_iff_right (storable full c held)
  | @overdue session view missed asked _ unstorable =>
    obtain ⟨c', after, step⟩ := step_remember c (Nat.le_add_right x.millis session.elapsed)
      ((served?_eq_get? prepared held).symm.trans missed) view
    refine ⟨c', by rw [cache, ← after]; rfl, ?_⟩
    rw [ends_of_session? missed asked]
    refine step.congr fun e => iff_of_false (fun added => unstorable fun _ d same => ?_)
      (not_adds_of_view? own _ e)
    obtain rfl : c = d := Option.some.inj (held.symm.trans same)
    exact added.2.1

theorem step_runSource (held : s.cache = some c) :
    ∃ c', (a.runSource x.occasion x.source x.options s).2.cache = some c' ∧
      Cache.Step (x.ends a s) (x.Adds a s c.lifetime) c c' := by
  cases prepared : Auditor.prepare a.settings x.source x.options with
  | error e =>
    have unseen : x.view? a s = none := by simp only [view?, prepared]
    refine ⟨c, by simp only [Auditor.runSource, prepared, held], ?_⟩
    exact (Cache.Step.refl _ c).congr fun e => iff_of_false id (not_adds_of_view? unseen _ e)
  | ok p =>
    rw [Auditor.runSource_of_prepare prepared]
    exact step_consult prepared held

theorem cache_run (x : SourceAudit) (a : Auditor) (s : AuditorState) :
    (x.run a s).2.cache = (a.runSource x.occasion x.source x.options s).2.cache :=
  Auditor.cache_finish _ _ _ _

theorem step_run (held : s.cache = some c) :
    ∃ c', (x.run a s).2.cache = some c' ∧
      Cache.Step (x.ends a s) (x.Adds a s c.lifetime) c c' := by
  rw [cache_run]
  exact step_runSource held

theorem exists_of_request? {q : PanelRequest} (asked : x.request? a = some q) :
    ∃ p, Auditor.prepare a.settings x.source x.options = .ok p ∧
      q = ⟨x.source, p.reviewers, x.options.mode, x.options.chain⟩ := by
  unfold request? at asked
  split at asked
  · cases asked
  · next p prepared => exact ⟨p, prepared, (Option.some.inj asked).symm⟩

end SourceAudit

end AuditPanel
