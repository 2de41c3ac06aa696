import AuditPanel.Proofs.Audit.History
import AuditPanel.Proofs.Audit.StaticFindings

/-!
What a caller sees of the cache. As long as entries live, an audit is served exactly when an earlier
one asked the panel the same and no reviewer failed. It reports what that one reported, and the
panel is not asked again.
-/

set_option autoImplicit false

namespace AuditPanel

open Consensus (Aggregate)
open SourceAudit

/-- Reports that differ at most in the id, the times and the case of the chain. -/
structure AuditReport.Alike (r r' : AuditReport) : Prop where
  rest : r' = { r with
    auditId := r'.auditId
    executionTime := r'.executionTime
    timestamp := r'.timestamp
    chain := r'.chain }
  chain : foldChain r.chain = foldChain r'.chain

namespace Auditor

/-- Requests of two audits that are the same up to the case of the chain if they have one key. -/
def KeysApart (a : Auditor) (y x : SourceAudit) : Prop :=
  ∀ q q', y.request? a = some q → x.request? a = some q' → q.key = q'.key → q.Same q'

/-- What the cache of an engine does for an audit `x` that follows the audits `past`. -/
structure CachesFaithfully (a : Auditor) (past : List SourceAudit) (x : SourceAudit) : Prop where
  served_iff : (x.served? a (a.stateAfter past)).isSome ↔
    ∃ before y between, past = before ++ y :: between ∧ AsksSame a y x ∧
      y.CompletesFully a (a.stateAfter before)
  unasked : (x.served? a (a.stateAfter past)).isSome → ∀ panel, ∃ records,
    x.run { a with panel := panel } (a.stateAfter past) =
      ((x.run a (a.stateAfter past)).1, { a.stateAfter past with records := records })
  alike (before between : List SourceAudit) (y : SourceAudit) : past = before ++ y :: between →
    AsksSame a y x →
    y.CompletesFully a (a.stateAfter before) → ∃ r r', (y.run a (a.stateAfter before)).1 = .ok r ∧
      (x.run a (a.stateAfter past)).1 = .ok r' ∧ r.Alike r'
  kept (before between : List SourceAudit) (c c' : Cache Aggregate) : past ++ [x] = before ++
    between →
    (a.stateAfter before).cache = some c → (a.stateAfter (past ++ [x])).cache = some c' →
      c.entries ⊆ c'.entries

variable {a : Auditor} {s : AuditorState} {ttl : Nat} {past before between : List SourceAudit}
  {x y : SourceAudit}

theorem exists_request?_of_served? {view : Aggregate} (served : x.served? a s = some view) :
    ∃ q, x.request? a = some q := by
  cases prepared : prepare a.settings x.source x.options with
  | error e => simp [served?, cachedView?, prepared] at served
  | ok p => exact ⟨_, request?_eq prepared⟩

private theorem alike_completedReport {settings : Settings} {o o' : Occasion}
    {options options' : AuditOptions}
    {p p' : Preparation} (view : Aggregate) (elapsed elapsed' : Nat)
    (analysis : p.analysis = p'.analysis)
    (chain : foldChain options.chain = foldChain options'.chain) :
    (completedReport settings o options p view elapsed).Alike
      (completedReport settings o' options' p' view elapsed') where
  rest := by simp only [completedReport, analysis]
  chain := chain

private theorem alike_of_view? {s' : AuditorState} {view : Aggregate} (same : AsksSame a y x)
    (taken : y.view? a s = some view) (taken' : x.view? a s' = some view) :
    ∃ r r', (y.run a s).1 = .ok r ∧ (x.run a s').1 = .ok r' ∧ r.Alike r' := by
  obtain ⟨q, q', asked, asked', same⟩ := same
  obtain ⟨p, prepared, rfl⟩ := exists_of_request? asked
  obtain ⟨p', prepared', rfl⟩ := exists_of_request? asked'
  obtain ⟨elapsed, report⟩ := run_of_view? prepared taken
  obtain ⟨elapsed', report'⟩ := run_of_view? prepared' taken'
  have analysis : p.analysis = p'.analysis := by
    have source : y.source = x.source := same.source
    have analysed := (prepare_ok prepared).2.1
    rw [source, (prepare_ok prepared').2.1] at analysed
    exact (Except.ok.inj analysed).symm
  exact ⟨_, _, report, report', alike_completedReport view elapsed elapsed' analysis same.chain⟩

section Caching

variable (caching : a.settings.cacheTtl = some ttl)
include caching

private theorem served?_of_asksSame (fresh : Fresh a (before ++ y :: between ++ [x]))
    (same : AsksSame a y x) {view : Aggregate}
    (taken : y.view? a (a.stateAfter before) = some view) (full : view.failed = []) :
    x.served? a (a.stateAfter (before ++ y :: between)) = some view := by
  obtain ⟨q, q', asked, asked', same⟩ := same
  obtain ⟨e, member, key, rfl⟩ :=
    exists_mem_of_view? caching (fresh_concat.mp fresh).1 asked taken full
  exact served?_of_mem caching fresh asked' member (key.trans same.key_eq)

private theorem asksSame_of_served? (apart : ∀ y ∈ past, KeysApart a y x) {view : Aggregate}
    (served : x.served? a (a.stateAfter past) = some view) :
    ∃ before y between, past = before ++ y :: between ∧ AsksSame a y x ∧
      y.CompletesFully a (a.stateAfter before) := by
  obtain ⟨q', asked'⟩ := exists_request?_of_served? served
  rw [served?_eq caching asked', Cache.get?_eq_some_iff (keys_nodup_cacheAfter caching past)]
    at served
  obtain ⟨e, member, key, -, rfl⟩ := served
  obtain ⟨before, y, between, rfl, added⟩ := exists_adds_of_mem caching member
  obtain ⟨q, asked, own⟩ := Option.map_eq_some_iff.mp added.key
  have same := apart y (by simp) q q' asked asked' (own.trans key)
  obtain ⟨p, prepared, -⟩ := exists_of_request? asked
  obtain ⟨elapsed, completed⟩ := run_of_view? prepared added.view
  exact ⟨before, y, between, rfl, ⟨q, q', asked, asked', same⟩, _, _, completed, added.view,
    added.full⟩

end Caching

/-- As long as entries live and different requests have different keys, the cache serves an audit
exactly when an earlier one asked the same and no reviewer failed, with the report of that one and
without asking the panel, and it loses no entry. In every state that an engine gets into, the cache
holds full views only, and what lives is never replaced. -/
theorem cachesFaithfully (a : Auditor) (ttl : Nat) (past : List SourceAudit) (x : SourceAudit)
    (caching : a.settings.cacheTtl = some ttl) (fresh : Fresh a (past ++ [x]))
    (apart : ∀ y ∈ past, KeysApart a y x) :
    CachesFaithfully a past x ∧ KeepsFullViews a := by
  refine ⟨?_, keepsFullViews a⟩
  constructor
  case served_iff =>
    constructor
    · intro served
      obtain ⟨view, served⟩ := Option.isSome_iff_exists.mp served
      exact asksSame_of_served? caching apart served
    · rintro ⟨before, y, between, rfl, same, r, view, -, taken, full⟩
      rw [served?_of_asksSame caching fresh same taken full]
      rfl
  case unasked =>
    intro served
    obtain ⟨view, served⟩ := Option.isSome_iff_exists.mp served
    exact (run_of_served? served).2
  case alike =>
    rintro before between y rfl same ⟨r, view, completed, taken, full⟩
    have served := served?_of_asksSame caching fresh same taken full
    exact alike_of_view? same taken (run_of_served? served).1
  case kept =>
    intro before between c c' split held held' e member
    have stays := mem_cacheAfter_append (e := e) caching (split ▸ fresh)
    rw [← split, cacheAfter, cacheAfter, held, held'] at stays
    exact stays member

/-- Whether every reviewer chosen for a source reports about it, asked after `made` requests. -/
def isFullyAnswered (a : Auditor) (o : Occasion) (source : String) (options : AuditOptions)
    (made : Requests) : Bool :=
  match prepare a.settings source options with
  | .error _ => false
  | .ok p =>
    !p.reviewers.isEmpty && p.reviewers.all fun r =>
      (Session.ownReview? (sessionBrief a source options p o.time) a.panel made p.reviewers
        r).isSome

theorem completesFully_of_isFullyAnswered
    (answered : isFullyAnswered a x.occasion x.source x.options s.made)
    (missed : x.served? a s = none) (timely : a.IsTimely x.occasion)
    (lifetime : ∀ c ∈ s.cache, a.settings.cacheTtl = some c.lifetime) : x.CompletesFully a s := by
  unfold isFullyAnswered at answered
  split at answered
  · cases answered
  · next p prepared =>
    simp only [Bool.and_eq_true, Bool.not_eq_true', List.all_eq_true] at answered
    obtain ⟨some, brought⟩ := answered
    obtain ⟨r, asked⟩ := List.exists_mem_of_ne_nil p.reviewers (by simpa using some)
    obtain ⟨view, aggregated⟩ := Consensus.aggregate_completes p.analysis.findings p.characteristics
      a.settings.scoring (Session.reviewsOf_run_ne_nil asked (brought r asked))
    have full : view.failed = [] :=
      (Consensus.aggregate_failed_eq_nil_iff aggregated).mpr (Session.run_results_isSome brought)
    obtain ⟨elapsed, consulted⟩ := consult_completes prepared missed timely lifetime aggregated
    have taken := (view?_eq_some_iff prepared).mpr ⟨elapsed, consulted⟩
    obtain ⟨elapsed, report⟩ := run_of_view? prepared taken
    exact ⟨_, view, report, taken, full⟩

private theorem prepare_respelled {settings : Settings} {source : String} {options : AuditOptions}
    {p : Preparation} (prepared : prepare settings source options = .ok p) (chain : Option String) :
    prepare settings source { options with chain := chain } =
      .ok { p with key := analysisKey source p.reviewers options.mode chain } := by
  obtain ⟨valid, analysed, characteristics, reviewers, -⟩ := prepare_ok prepared
  simp only [prepare, valid, analysed, bind, Except.bind, reviewers, characteristics]

theorem asksSame_respelled {q : PanelRequest} (asked : x.request? a = some q) (o : Occasion)
    {chain : Option String} (same : foldChain x.options.chain = foldChain chain) :
    AsksSame a x ⟨o, x.source, { x.options with chain := chain }⟩ := by
  obtain ⟨p, prepared, rfl⟩ := exists_of_request? asked
  have prepared' := prepare_respelled prepared chain
  exact ⟨_, _, asked, request?_eq prepared', ⟨rfl, rfl, rfl, same⟩⟩

private theorem keysApart_of_asksSame (same : AsksSame a y x) : KeysApart a y x := by
  obtain ⟨q, q', asked, asked', same⟩ := same
  intro q₁ q₁' asked₁ asked₁' _
  obtain rfl := Option.some.inj (asked.symm.trans asked₁)
  obtain rfl := Option.some.inj (asked'.symm.trans asked₁')
  exact same

/-- An engine that keeps views for an hour and all of whose reviewers answer at once with an empty
record. -/
def thrifty : Auditor :=
  { terse with settings := .standard }

/-- An audit of a contract that can be destroyed, by one reviewer. -/
def capitalized : SourceAudit :=
  ⟨⟨"1", default⟩, destructible, ⟨some "Ethereum", .fast, some ["security"]⟩⟩

/-- The same audit later, with the chain in another spelling. -/
def uncapitalized : SourceAudit :=
  ⟨⟨"2", default⟩, destructible, ⟨some "ethereum", .fast, some ["security"]⟩⟩

/-- The cache serves the second of two audits that spell the chain differently. -/
theorem capitalized_serves_uncapitalized :
    thrifty.settings.cacheTtl = some 3600000 ∧ Fresh thrifty ([capitalized] ++ [uncapitalized]) ∧
      (∀ y ∈ [capitalized], KeysApart thrifty y uncapitalized) ∧
      CachesFaithfully thrifty [capitalized] uncapitalized ∧
      (uncapitalized.served? thrifty (thrifty.stateAfter [capitalized])).isSome := by
  have answered : isFullyAnswered thrifty capitalized.occasion capitalized.source
      capitalized.options .none = true := by
    decide +kernel
  have missed : capitalized.served? thrifty (.initial thrifty.settings) = none :=
    cachedView?_initial _ _ _ _
  have full : capitalized.CompletesFully thrifty (thrifty.stateAfter []) :=
    completesFully_of_isFullyAnswered answered missed (by decide) fun _ => lifetime_initial
  have valid : (capitalized.request? thrifty).isSome := by
    decide
  obtain ⟨q, asked⟩ := Option.isSome_iff_exists.mp valid
  have same : AsksSame thrifty capitalized uncapitalized :=
    asksSame_respelled asked ⟨"2", default⟩ (by decide)
  have caching : thrifty.settings.cacheTtl = some 3600000 := rfl
  have fresh : Fresh thrifty ([capitalized] ++ [uncapitalized]) :=
    fresh_of_pairwise caching (by decide)
  have apart : ∀ y ∈ [capitalized], KeysApart thrifty y uncapitalized := by
    simpa using keysApart_of_asksSame same
  have faithful := (cachesFaithfully thrifty 3600000 [capitalized] uncapitalized rfl fresh apart).1
  exact ⟨rfl, fresh, apart, faithful,
    faithful.served_iff.mpr ⟨[], capitalized, [], rfl, same, full⟩⟩

end Auditor

end AuditPanel
