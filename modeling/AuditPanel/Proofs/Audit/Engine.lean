import AuditPanel.Audit.Engine
import AuditPanel.Proofs.Panel.Session

/-!
What an audit of a source goes through: a preparation, a look at the cache, a session of the panel
if nothing is found there, and the report. It completes when the source is valid, some reviewer
reports, and the clock can hold the deadline and the end of life of what is stored.
-/

set_option autoImplicit false

namespace AuditPanel

namespace Ending

variable {α β : Type} {x : Ending α}

theorem map_eq_ok_iff {f : α → β} {b : β} : x.map f = .ok b ↔ ∃ a, x = .ok a ∧ f a = b := by
  cases x <;> simp [map]

theorem map_eq_crashed_iff {f : α → β} : x.map f = .crashed ↔ x = .crashed := by
  cases x <;> simp [map]

theorem toOption_eq_some_iff {a : α} : x.toOption = some a ↔ x = .ok a := by
  cases x <;> simp [toOption]

theorem ofExcept_eq_ok_iff {x : Except Failure α} {a : α} : ofExcept x = .ok a ↔ x = .ok a := by
  cases x <;> simp [ofExcept]

private theorem ofExcept_ne_crashed (x : Except Failure α) : ofExcept x ≠ .crashed := by
  cases x <;> simp [ofExcept]

end Ending

namespace Auditor

open Consensus (Aggregate)

variable {a : Auditor} {o : Occasion} {source : String} {options : AuditOptions}
  {s s' : AuditorState}

theorem prepare_ok {settings : Settings} {p : Preparation}
    (h : prepare settings source options = .ok p) :
    validate settings source = .ok () ∧ Source.analyze source.toList = .ok p.analysis ∧
      p.characteristics = p.analysis.characteristics source.toList ∧
      p.reviewers =
        Review.selectPanel p.characteristics options.agents settings.maxConcurrentAgents ∧
      p.key = analysisKey source p.reviewers options.mode options.chain := by
  unfold prepare at h
  cases valid : validate settings source with
  | error e => simp [valid, bind, Except.bind] at h
  | ok _ =>
    cases analysed : Source.analyze source.toList with
    | error e => simp [valid, analysed, bind, Except.bind] at h
    | ok analysis =>
      simp only [valid, analysed, bind, Except.bind, Except.ok.injEq] at h
      subst h
      exact ⟨rfl, rfl, rfl, rfl, rfl⟩

theorem runSource_of_prepare {p : Preparation}
    (prepared : prepare a.settings source options = .ok p) :
    runSource a o source options s =
      ((consult a o source options p s).1.map fun taken =>
        completedReport a.settings o options p taken.1 taken.2,
        (consult a o source options p s).2) := by
  simp only [runSource, prepared]

theorem runSource_ok {r : AuditReport} (h : runSource a o source options s = (.ok r, s')) :
    ∃ p view elapsed, prepare a.settings source options = .ok p ∧
      consult a o source options p s = (.ok (view, elapsed), s') ∧
      r = completedReport a.settings o options p view elapsed := by
  cases prepared : prepare a.settings source options with
  | error e => simp [runSource, prepared] at h
  | ok p =>
    rw [runSource_of_prepare prepared, Prod.mk.injEq, Ending.map_eq_ok_iff] at h
    obtain ⟨⟨⟨view, elapsed⟩, taken, rfl⟩, rfl⟩ := h
    exact ⟨p, view, elapsed, rfl, Prod.ext taken rfl, rfl⟩

theorem auditSource_ok {r : AuditReport} (h : auditSource a o source options s = (.ok r, s')) :
    ∃ after, runSource a o source options s = (.ok r, after) ∧ s' = record a o r after := by
  unfold auditSource finish at h
  split at h
  · next report after run =>
    cases h
    exact ⟨after, run, rfl⟩
  · cases h
  · cases h

theorem cache_finish (o : Occasion) (chain address : Option String)
    (run : Ending AuditReport × AuditorState) :
    (finish a o chain address run).2.cache = run.2.cache := by
  rcases run with ⟨_ | _ | _, after⟩ <;> rfl

def cachedView? (a : Auditor) (o : Occasion) (source : String) (options : AuditOptions)
    (s : AuditorState) : Option Aggregate :=
  match prepare a.settings source options with
  | .error _ => none
  | .ok p => s.cache.bind fun cache => cache.get? o.millis p.key

/-- The session that an audit holds when it finds no view in the cache: none for an invalid source,
or when the clock cannot hold the deadline. -/
def session? (a : Auditor) (o : Occasion) (source : String) (options : AuditOptions)
    (made : Requests) : Option Session.Outcome :=
  match prepare a.settings source options with
  | .error _ => none
  | .ok p => Session.hold (sessionBrief a source options p o.time) a.panel made p.reviewers

/-- The results of such a session. -/
def sessionResults (a : Auditor) (o : Occasion) (source : String) (options : AuditOptions)
    (made : Requests) : List ReviewResult :=
  (session? a o source options made).elim [] (·.results)

/-- How long such a session takes. -/
def sessionTime (a : Auditor) (o : Occasion) (source : String) (options : AuditOptions)
    (made : Requests) : Nat :=
  (session? a o source options made).elim 0 (·.elapsed)

/-- From an occasion on, the clock can hold the deadline of an audit and the end of life of what is
stored by then. -/
def IsTimely (a : Auditor) (o : Occasion) : Prop :=
  Clock.CanHold o.millis a.settings.globalTimeout ∧
    ∀ ttl ∈ a.settings.cacheTtl, Clock.CanHold (o.millis + a.settings.globalTimeout) ttl

instance (a : Auditor) (o : Occasion) : Decidable (a.IsTimely o) :=
  inferInstanceAs (Decidable (_ ∧ ∀ ttl ∈ a.settings.cacheTtl, _))

/-- The state of an audit that has found no view in the cache. -/
def missedState (o : Occasion) (p : Preparation) (s : AuditorState) : AuditorState :=
  { s with cache := s.cache.map fun c => c.afterGet o.millis p.key }

/-- Whether the clock can hold the end of life of a view that is put into a cache at some time.
Views for which a reviewer failed are not put there. -/
def Storable (cache : Option (Cache Aggregate)) (now : Nat) (view : Aggregate) : Prop :=
  view.failed = [] → ∀ c ∈ cache, Clock.CanHold now c.lifetime

private theorem storable_none (now : Nat) (view : Aggregate) : Storable none now view :=
  fun _ c held => absurd held (Option.not_mem_none c)

private theorem remember_fst_iff {cache : Option (Cache Aggregate)} {now : Nat} {key : String}
    {view : Aggregate} : (remember cache now key view).1 = true ↔ Storable cache now view := by
  cases cache with
  | none => exact iff_of_true rfl (storable_none now view)
  | some c =>
    by_cases full : view.failed = []
    · by_cases held : Clock.CanHold now c.lifetime <;>
        simp [remember, Cache.tryPut, Storable, full, held]
    · simp [remember, Storable, full]

private theorem lifetime_afterGet {α : Type} (c : Cache α) (now : Nat) (key : String) :
    (c.afterGet now key).lifetime = c.lifetime := by
  unfold Cache.afterGet
  split <;> rfl

private theorem storable_missedState {p : Preparation} {now : Nat} {view : Aggregate} :
    Storable (missedState o p s).cache now view ↔ Storable s.cache now view := by
  unfold Storable missedState
  cases s.cache with
  | none => simp
  | some c => simp [lifetime_afterGet]

section Prepared

variable {p : Preparation}

theorem cachedView?_eq (prepared : prepare a.settings source options = .ok p) :
    cachedView? a o source options s = s.cache.bind fun cache => cache.get? o.millis p.key := by
  simp only [cachedView?, prepared]

theorem cachedView?_of_cache_eq_none (cacheless : s.cache = none) :
    cachedView? a o source options s = none := by
  unfold cachedView?
  split
  · rfl
  · rw [cacheless, Option.bind_none]

theorem session?_eq_some_iff {made : Requests} {session : Session.Outcome} :
    session? a o source options made = some session ↔
      ∃ p, prepare a.settings source options = .ok p ∧
        Clock.CanHold o.millis a.settings.globalTimeout ∧
        Session.run (sessionBrief a source options p o.time) a.panel made p.reviewers =
          session := by
  unfold session?
  cases prepare a.settings source options with
  | error e => simp
  | ok p =>
    rw [Session.hold_eq_some_iff]
    exact ⟨fun held => ⟨p, rfl, held⟩, fun ⟨_, same, held⟩ => by cases same; exact held⟩

theorem session?_eq_run (prepared : prepare a.settings source options = .ok p)
    (timely : Clock.CanHold o.millis a.settings.globalTimeout) (made : Requests) :
    session? a o source options made =
      some (Session.run (sessionBrief a source options p o.time) a.panel made p.reviewers) :=
  session?_eq_some_iff.mpr ⟨p, prepared, timely, rfl⟩

theorem sessionResults_of_session? {made : Requests} {session : Session.Outcome}
    (held : session? a o source options made = some session) :
    sessionResults a o source options made = session.results := by
  rw [sessionResults, held, Option.elim_some]

theorem sessionTime_of_session? {made : Requests} {session : Session.Outcome}
    (held : session? a o source options made = some session) :
    sessionTime a o source options made = session.elapsed := by
  rw [sessionTime, held, Option.elim_some]

theorem exists_run_of_mem_sessionResults {made : Requests} {result : ReviewResult}
    (member : result ∈ sessionResults a o source options made) :
    ∃ p, prepare a.settings source options = .ok p ∧ sessionResults a o source options made =
      (Session.run (sessionBrief a source options p o.time) a.panel made p.reviewers).results := by
  cases held : session? a o source options made with
  | none => simp [sessionResults, held] at member
  | some session =>
    obtain ⟨p, prepared, -, rfl⟩ := session?_eq_some_iff.mp held
    exact ⟨p, prepared, sessionResults_of_session? held⟩

theorem sessionResults_wellFormed (made : Requests) :
    ∀ result ∈ sessionResults a o source options made, result.IsWellFormed := by
  intro result member
  obtain ⟨p, -, results⟩ := exists_run_of_mem_sessionResults member
  exact Session.run_results_wellFormed result (results ▸ member)

theorem sessionResults_nodup (made : Requests) :
    ((sessionResults a o source options made).map (·.reviewer)).Nodup := by
  cases held : session? a o source options made with
  | none => simp [sessionResults, held]
  | some session =>
    obtain ⟨p, -, -, rfl⟩ := session?_eq_some_iff.mp held
    rw [sessionResults_of_session? held]
    exact Session.run_results_nodup _ _ _ _

theorem sessionTime_le (made : Requests) :
    sessionTime a o source options made ≤ a.settings.globalTimeout := by
  cases held : session? a o source options made with
  | none => simp [sessionTime, held]
  | some session =>
    obtain ⟨p, -, -, rfl⟩ := session?_eq_some_iff.mp held
    rw [sessionTime_of_session? held]
    exact Session.elapsed_run_le (sessionBrief a source options p o.time) a.panel made p.reviewers

/-- How the panel's view of a source is come by, from the state before to what is taken and the
state after: it is found in the cache, or a session is held. A session crashes at its start if the
clock cannot hold the deadline, and at its end if the clock cannot hold the end of life of a view
that is stored. -/
inductive Consults (a : Auditor) (o : Occasion) (source : String) (options : AuditOptions)
    (p : Preparation) (s : AuditorState) : Ending (Aggregate × Nat) × AuditorState → Prop
  | found {view : Aggregate} (served : cachedView? a o source options s = some view) :
      Consults a o source options p s (.ok (view, 0), s)
  | late (missed : cachedView? a o source options s = none)
      (unheld : session? a o source options s.made = none) :
      Consults a o source options p s (.crashed, missedState o p s)
  | silent {session : Session.Outcome} {e : Failure}
      (missed : cachedView? a o source options s = none)
      (held : session? a o source options s.made = some session)
      (fruitless : Consensus.aggregate session.results p.analysis.findings p.characteristics
        a.settings.scoring = .error e) :
      Consults a o source options p s (.error e, { missedState o p s with made := session.made })
  | taken {session : Session.Outcome} {view : Aggregate}
      (missed : cachedView? a o source options s = none)
      (held : session? a o source options s.made = some session)
      (aggregated : Consensus.aggregate session.results p.analysis.findings p.characteristics
        a.settings.scoring = .ok view)
      (storable : Storable s.cache (o.millis + session.elapsed) view) :
      Consults a o source options p s (.ok (view, session.elapsed),
        { missedState o p s with
          made := session.made
          cache := (remember (missedState o p s).cache (o.millis + session.elapsed) p.key view).2 })
  | overdue {session : Session.Outcome} {view : Aggregate}
      (missed : cachedView? a o source options s = none)
      (held : session? a o source options s.made = some session)
      (aggregated : Consensus.aggregate session.results p.analysis.findings p.characteristics
        a.settings.scoring = .ok view)
      (unstorable : ¬Storable s.cache (o.millis + session.elapsed) view) :
      Consults a o source options p s (.crashed,
        { missedState o p s with
          made := session.made
          cache := (remember (missedState o p s).cache (o.millis + session.elapsed) p.key view).2 })

theorem consult_found (a : Auditor) (source : String) (options : AuditOptions) {view : Aggregate}
    (found : (s.cache.bind fun cache => cache.get? o.millis p.key) = some view) :
    consult a o source options p s = (.ok (view, 0), s) := by
  simp only [consult, found]

theorem consult_consults (prepared : prepare a.settings source options = .ok p)
    (s : AuditorState) : Consults a o source options p s (consult a o source options p s) := by
  cases cached : cachedView? a o source options s with
  | some view =>
    rw [consult_found a source options ((cachedView?_eq prepared).symm.trans cached)]
    exact .found cached
  | none =>
    have looked : (s.cache.bind fun c => c.get? o.millis p.key) = none :=
      (cachedView?_eq prepared).symm.trans cached
    have session : Session.hold (sessionBrief a source options p o.time) a.panel s.made
      p.reviewers = session? a o source options s.made := by
      simp only [session?, prepared]
    simp only [consult, looked, session]
    cases held : session? a o source options s.made with
    | none => exact .late cached held
    | some session =>
      cases aggregated : Consensus.aggregate session.results p.analysis.findings p.characteristics
        a.settings.scoring with
      | error e =>
        simp only [conclude, aggregated]
        exact .silent cached held aggregated
      | ok view =>
        have stored :
          (remember (missedState o p s).cache (o.millis + session.elapsed) p.key view).1 =
            true ↔ Storable s.cache (o.millis + session.elapsed) view :=
          remember_fst_iff.trans storable_missedState
        simp only [conclude, aggregated]
        split
        · next cache kept =>
          have kept : remember (missedState o p s).cache (o.millis + session.elapsed) p.key view =
            (true, cache) := kept
          obtain rfl : _ = cache := congrArg Prod.snd kept
          exact .taken cached held aggregated (stored.mp (congrArg Prod.fst kept))
        · next cache lost =>
          have lost : remember (missedState o p s).cache (o.millis + session.elapsed) p.key view =
            (false, cache) := lost
          obtain rfl : _ = cache := congrArg Prod.snd lost
          refine .overdue cached held aggregated fun storable => ?_
          cases (congrArg Prod.fst lost).symm.trans (stored.mpr storable)

theorem exists_session_of_consult (prepared : prepare a.settings source options = .ok p)
    (missed : cachedView? a o source options s = none) {view : Aggregate} {elapsed : Nat}
    (consulted : (consult a o source options p s).1 = .ok (view, elapsed)) :
    ∃ session, session? a o source options s.made = some session ∧ session.elapsed = elapsed ∧
      Consensus.aggregate session.results p.analysis.findings p.characteristics
        a.settings.scoring = .ok view := by
  have ways := consult_consults (o := o) prepared s
  generalize consult a o source options p s = run at consulted ways
  cases ways with
  | found served => cases missed.symm.trans served
  | taken _ held aggregated =>
    cases consulted
    exact ⟨_, held, rfl, aggregated⟩
  | late => cases consulted
  | silent => cases consulted
  | overdue => cases consulted

theorem aggregate_of_consult (prepared : prepare a.settings source options = .ok p)
    (missed : cachedView? a o source options s = none) {view : Aggregate} {elapsed : Nat}
    (consulted : (consult a o source options p s).1 = .ok (view, elapsed)) :
    Consensus.aggregate (sessionResults a o source options s.made) p.analysis.findings
      p.characteristics a.settings.scoring = .ok view := by
  obtain ⟨session, held, -, aggregated⟩ := exists_session_of_consult prepared missed consulted
  rwa [sessionResults_of_session? held]

theorem consult_missed (prepared : prepare a.settings source options = .ok p)
    (missed : cachedView? a o source options s = none) {view : Aggregate}
    (aggregated : Consensus.aggregate (sessionResults a o source options s.made)
      p.analysis.findings p.characteristics a.settings.scoring = .ok view) :
    Storable s.cache (o.millis + sessionTime a o source options s.made) view ∧
        (consult a o source options p s).1 =
          .ok (view, sessionTime a o source options s.made) ∨
      ¬Storable s.cache (o.millis + sessionTime a o source options s.made) view ∧
        (consult a o source options p s).1 = .crashed := by
  have ways := consult_consults (o := o) prepared s
  generalize consult a o source options p s = run at ways
  cases ways with
  | found served => cases missed.symm.trans served
  | late _ unheld =>
    have spoken := (Consensus.aggregate_ok aggregated).1
    simp [sessionResults, unheld, Consensus.reviewsOf, Consensus.inPanelOrder] at spoken
  | silent _ held fruitless =>
    rw [sessionResults_of_session? held, fruitless] at aggregated
    cases aggregated
  | taken _ held made storable =>
    rw [sessionResults_of_session? held, made] at aggregated
    cases aggregated
    rw [sessionTime_of_session? held]
    exact .inl ⟨storable, rfl⟩
  | overdue _ held made unstorable =>
    rw [sessionResults_of_session? held, made] at aggregated
    cases aggregated
    rw [sessionTime_of_session? held]
    exact .inr ⟨unstorable, rfl⟩

theorem elapsed_consult_le (prepared : prepare a.settings source options = .ok p)
    {view : Aggregate} {elapsed : Nat}
    (consulted : (consult a o source options p s).1 = .ok (view, elapsed)) :
    elapsed ≤ a.settings.globalTimeout := by
  cases cached : cachedView? a o source options s with
  | some kept =>
    rw [consult_found a source options ((cachedView?_eq prepared).symm.trans cached)] at consulted
    cases consulted
    exact Nat.zero_le _
  | none =>
    obtain ⟨session, held, rfl, -⟩ := exists_session_of_consult prepared cached consulted
    exact sessionTime_of_session? held ▸ sessionTime_le s.made

theorem IsTimely.canHold (timely : a.IsTimely o)
    (lifetime : ∀ c ∈ s.cache, a.settings.cacheTtl = some c.lifetime) (source : String)
    (options : AuditOptions) {c : Cache Aggregate} (held : c ∈ s.cache) :
    Clock.CanHold (o.millis + sessionTime a o source options s.made) c.lifetime := by
  have limit := timely.2 c.lifetime (lifetime c held)
  have ended : sessionTime a o source options s.made ≤ a.settings.globalTimeout := sessionTime_le _
  unfold Clock.CanHold at *
  omega

theorem consult_completes (prepared : prepare a.settings source options = .ok p)
    (missed : cachedView? a o source options s = none) (timely : a.IsTimely o)
    (lifetime : ∀ c ∈ s.cache, a.settings.cacheTtl = some c.lifetime) {view : Aggregate}
    (aggregated : Consensus.aggregate
      (Session.run (sessionBrief a source options p o.time) a.panel s.made p.reviewers).results
      p.analysis.findings p.characteristics a.settings.scoring = .ok view) :
    ∃ elapsed, (consult a o source options p s).1 = .ok (view, elapsed) := by
  rw [← sessionResults_of_session? (session?_eq_run prepared timely.1 s.made)] at aggregated
  rcases consult_missed prepared missed aggregated with ⟨-, consulted⟩ | ⟨unstorable, -⟩
  · exact ⟨_, consulted⟩
  · exact absurd (fun _ _ held => timely.canHold lifetime source options held) unstorable

theorem auditSource_of_consult (prepared : prepare a.settings source options = .ok p)
    {view : Aggregate} {elapsed : Nat}
    (consulted : (consult a o source options p s).1 = .ok (view, elapsed)) :
    ∃ after, auditSource a o source options s =
      (.ok (completedReport a.settings o options p view elapsed), after) := by
  rw [auditSource, runSource_of_prepare prepared, consulted]
  exact ⟨_, rfl⟩

end Prepared

/-- The source that is fetched for an address, if there is one. -/
def fetchedSource? (a : Auditor) (address chain : String) : Option String :=
  if isValidAddress address then
    a.fetcher.bind fun fetch => (fetch address chain).toOption.bind (·.source)
  else none

/-- An address with a source is audited as that source is, and others leave all but the number of
fetches alone. -/
theorem runAddress_cases (a : Auditor) (o : Occasion) (address chain : String)
    (options : AuditOptions) (s : AuditorState) :
    (fetchedSource? a address chain = none ∧
        (runAddress a o address chain options s).1 ≠ .crashed ∧
          ∃ n, (runAddress a o address chain options s).2 = { s with fetches := n }) ∨
      ∃ source size, fetchedSource? a address chain = some source ∧
        let run := runSource a o source { options with chain := some chain }
          { s with fetches := s.fetches + 1 }
        runAddress a o address chain options s = (run.1.map fun r =>
          { r with
            contractInfo := { r.contractInfo with bytecodeSize := size }
            chain := some chain
            address := some address }, run.2) := by
  have kept : ∃ n, s = { s with fetches := n } := ⟨s.fetches, rfl⟩
  cases valid : isValidAddress address with
  | false => exact .inl (by simpa [fetchedSource?, runAddress, valid] using kept)
  | true =>
    cases fetcher : a.fetcher with
    | none => exact .inl (by simpa [fetchedSource?, runAddress, valid, fetcher] using kept)
    | some fetch =>
      cases fetched : fetch address chain with
      | error e =>
        exact .inl (by simp [fetchedSource?, runAddress, valid, fetcher, fetched, Except.toOption])
      | ok contract =>
        have run : runAddress a o address chain options s =
            runFetched a o address chain options contract { s with fetches := s.fetches + 1 } := by
          simp [runAddress, valid, fetcher, fetched]
        have source : fetchedSource? a address chain = contract.source := by
          simp [fetchedSource?, valid, fetcher, fetched, Except.toOption]
        rw [run, source]
        cases known : contract.source with
        | none =>
          simp only [runFetched, known]
          refine .inl ⟨trivial, fun crashed => ?_, s.fetches + 1, rfl⟩
          exact Ending.ofExcept_ne_crashed _ (Ending.map_eq_crashed_iff.mp crashed)
        | some source =>
          simp only [runFetched, known]
          refine .inr ⟨source, codeSize? contract.bytecode, rfl, ?_⟩
          simp

/-- Whether some reviewer chosen for a source reports about it, asked after `made` requests. -/
def isAnswered (a : Auditor) (o : Occasion) (source : String) (options : AuditOptions)
    (made : Requests) : Bool :=
  match prepare a.settings source options with
  | .error _ => false
  | .ok p =>
    p.reviewers.any fun r =>
      ((Session.ownResult? (sessionBrief a source options p o.time) a.panel made p.reviewers r).bind
        Consensus.successfulReview?).isSome

theorem lifetime_initial {settings : Settings} {c : Cache Aggregate}
    (held : c ∈ (AuditorState.initial settings).cache) : settings.cacheTtl = some c.lifetime := by
  obtain ⟨ttl, own, rfl⟩ := Option.map_eq_some_iff.mp held
  exact own

theorem cachedView?_initial (a : Auditor) (o : Occasion) (source : String)
    (options : AuditOptions) :
    cachedView? a o source options (.initial a.settings) = none := by
  cases prepared : prepare a.settings source options with
  | error e => simp only [cachedView?, prepared]
  | ok p =>
    rw [cachedView?_eq prepared, AuditorState.initial]
    cases a.settings.cacheTtl <;> rfl

theorem auditSource_initial_completes (answered : isAnswered a o source options .none)
    (timely : a.IsTimely o) :
    ∃ r after, auditSource a o source options (.initial a.settings) = (.ok r, after) := by
  unfold isAnswered at answered
  split at answered
  · simp at answered
  · next p prepared =>
    obtain ⟨reviewer, member, reported⟩ := List.any_eq_true.mp answered
    obtain ⟨view, aggregated⟩ := Consensus.aggregate_completes p.analysis.findings p.characteristics
      a.settings.scoring (Session.reviewsOf_run_ne_nil member reported)
    obtain ⟨elapsed, consulted⟩ :=
      consult_completes prepared (cachedView?_initial a o source options) timely
        (fun _ => lifetime_initial) aggregated
    obtain ⟨after, completed⟩ := auditSource_of_consult prepared consulted
    exact ⟨_, after, completed⟩

/-- An engine without a cache all of whose reviewers answer at once with an empty record. -/
def terse : Auditor :=
  { settings := { Settings.standard with cacheTtl := none }
    book := ⟨none, 100⟩
    panel := ⟨fun _ _ _ => .answer 0 "\x7b\x7d", fun _ _ => .zero⟩
    fetcher := none
    sinks := [] }

end Auditor

end AuditPanel
