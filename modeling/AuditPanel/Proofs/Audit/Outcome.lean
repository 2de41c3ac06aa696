import AuditPanel.Proofs.Audit.Engine
import AuditPanel.Proofs.Panel.Attribution
import AuditPanel.Proofs.Report.Log

/-!
How audits end. An audit of a source fails because the source is refused, before any reviewer is
asked, or because no reviewer succeeded. It crashes when the clock cannot hold a time that it needs,
and nothing else goes wrong. Unless it crashes, one report of it goes to the log, and whatever the
log does, the caller gets the same.
-/

set_option autoImplicit false

namespace AuditPanel

namespace Consensus

variable {results : List ReviewResult} {statics : List Finding} {c : Source.Characteristics}
  {rules : ScoringRules} {view : Aggregate}

private theorem successfulReview?_eq_none_iff {r : ReviewResult} (wellFormed : r.IsWellFormed) :
    successfulReview? r = none ↔ r.success = false := by
  have review := wellFormed.review
  cases success : r.success <;> simp_all [successfulReview?, Option.isSome_iff_ne_none]

private theorem reviewsOf_eq_nil_iff (wellFormed : ∀ r ∈ results, r.IsWellFormed) :
    reviewsOf results = [] ↔ ∀ r ∈ results, r.success = false := by
  simp only [reviewsOf, inPanelOrder, List.filterMap_eq_nil_iff, List.mem_mergeSort]
  exact forall₂_congr fun r member => successfulReview?_eq_none_iff (wellFormed r member)

private theorem failed_of_aggregate_error (wellFormed : ∀ r ∈ results, r.IsWellFormed) {e : Failure}
    (fruitless : aggregate results statics c rules = .error e) :
    (∀ r ∈ results, r.success = false) ∧ e.kind = .noSuccessfulAnalysis := by
  by_cases silent : reviewsOf results = []
  · rw [aggregate_of_reviewsOf_eq_nil silent] at fruitless
    cases fruitless
    exact ⟨(reviewsOf_eq_nil_iff wellFormed).mp silent, rfl⟩
  · obtain ⟨view, made⟩ := aggregate_completes statics c rules silent
    cases made.symm.trans fruitless

private theorem not_failed_of_aggregate_ok (wellFormed : ∀ r ∈ results, r.IsWellFormed)
    (made : aggregate results statics c rules = .ok view) : ¬∀ r ∈ results, r.success = false :=
  fun failed => (aggregate_ok made).1 ((reviewsOf_eq_nil_iff wellFormed).mpr failed)

private theorem failed_eq_nil_iff_success (wellFormed : ∀ r ∈ results, r.IsWellFormed)
    (made : aggregate results statics c rules = .ok view) :
    view.failed = [] ↔ ∀ r ∈ results, r.success = true := by
  rw [aggregate_failed_eq_nil_iff made]
  refine forall₂_congr fun r member => ?_
  rw [Option.isSome_iff_ne_none, ne_eq, successfulReview?_eq_none_iff (wellFormed r member),
    Bool.not_eq_false]

end Consensus

namespace Auditor

open Consensus (Aggregate)

variable {a : Auditor} {o : Occasion} {source : String} {options : AuditOptions} {s : AuditorState}
  {p : Preparation} {run : Ending AuditReport × AuditorState}

/-- A source that no reviewer is asked about: it is blank, longer than allowed, or declares
nothing. -/
def IsRefused (settings : Settings) (source : String) : Prop :=
  Text.isAllBlank source.toList ∨ settings.maxSourceBytes < source.utf8ByteSize ∨
    Source.hasDeclaration source.toList = false

private theorem validate_cases (settings : Settings) (source : String) :
    (IsRefused settings source ∧
        ∃ e, validate settings source = .error e ∧ e.kind = .invalidInput) ∨
      (¬IsRefused settings source ∧ validate settings source = .ok ()) := by
  unfold validate IsRefused
  by_cases blank : Text.isAllBlank source.toList
  · exact .inl ⟨.inl blank, _, if_pos blank, rfl⟩
  rw [if_neg blank]
  by_cases long : settings.maxSourceBytes < source.utf8ByteSize
  · exact .inl ⟨.inr (.inl long), _, if_pos long, rfl⟩
  rw [if_neg long]
  cases declares : Source.hasDeclaration source.toList with
  | false => exact .inl ⟨.inr (.inr rfl), _, rfl, rfl⟩
  | true => exact .inr ⟨by simp [blank, long], rfl⟩

theorem prepare_cases (settings : Settings) (source : String) (options : AuditOptions) :
    (IsRefused settings source ∧
        ∃ e, prepare settings source options = .error e ∧ e.kind = .invalidInput) ∨
      (¬IsRefused settings source ∧ ∃ p, prepare settings source options = .ok p) := by
  rcases validate_cases settings source with ⟨refused, e, invalid, kind⟩ | ⟨accepted, valid⟩
  · exact .inl ⟨refused, e, by simp only [prepare, invalid, bind, Except.bind], kind⟩
  · have written : ¬Text.isAllBlank source.toList := fun blank => accepted (.inl blank)
    have analysed : Source.analyze source.toList = .ok (.ofSource source.toList) := if_neg written
    refine .inr ⟨accepted, ?_⟩
    simp only [prepare, valid, analysed, bind, Except.bind]
    exact ⟨_, rfl⟩

/-- All reviewers of the session that an audit holds succeed, and the clock cannot hold the end of
life of their view in the cache. -/
def IsOverdue (a : Auditor) (o : Occasion) (source : String) (options : AuditOptions)
    (s : AuditorState) : Prop :=
  let results := sessionResults a o source options s.made
  results ≠ [] ∧ (∀ result ∈ results, result.success = true) ∧ ∃ c, s.cache = some c ∧
    ¬Clock.CanHold (o.millis + sessionTime a o source options s.made) c.lifetime

/-- The ways in which a run on a source ends. -/
inductive Runs (a : Auditor) (o : Occasion) (source : String) (options : AuditOptions)
    (s : AuditorState) : Ending AuditReport × AuditorState → Prop
  | refused {e : Failure} (refused : IsRefused a.settings source) (kind : e.kind = .invalidInput) :
      Runs a o source options s (.error e, s)
  | served {r : AuditReport} (accepted : ¬IsRefused a.settings source)
      (found : cachedView? a o source options s ≠ none) : Runs a o source options s (.ok r, s)
  | late {after : AuditorState} (accepted : ¬IsRefused a.settings source)
      (missed : cachedView? a o source options s = none)
      (late : ¬Clock.CanHold o.millis a.settings.globalTimeout) (uncalled : after.made = s.made) :
      Runs a o source options s (.crashed, after)
  | silent {e : Failure} {after : AuditorState} (accepted : ¬IsRefused a.settings source)
      (missed : cachedView? a o source options s = none)
      (timely : Clock.CanHold o.millis a.settings.globalTimeout)
      (failed : ∀ result ∈ sessionResults a o source options s.made, result.success = false)
      (kind : e.kind = .noSuccessfulAnalysis) : Runs a o source options s (.error e, after)
  | overdue {after : AuditorState} (accepted : ¬IsRefused a.settings source)
      (missed : cachedView? a o source options s = none)
      (timely : Clock.CanHold o.millis a.settings.globalTimeout)
      (overdue : IsOverdue a o source options s) : Runs a o source options s (.crashed, after)
  | reported {r : AuditReport} {after : AuditorState} (accepted : ¬IsRefused a.settings source)
      (missed : cachedView? a o source options s = none)
      (timely : Clock.CanHold o.millis a.settings.globalTimeout)
      (succeeded : ¬∀ result ∈ sessionResults a o source options s.made, result.success = false)
      (storable : ¬IsOverdue a o source options s) : Runs a o source options s (.ok r, after)

private theorem storable_iff {view : Aggregate}
    (made : Consensus.aggregate (sessionResults a o source options s.made) p.analysis.findings
      p.characteristics a.settings.scoring = .ok view) :
    Storable s.cache (o.millis + sessionTime a o source options s.made) view ↔
      ¬IsOverdue a o source options s := by
  have spoken : sessionResults a o source options s.made ≠ [] := by
    intro none
    have failed := Consensus.not_failed_of_aggregate_ok (sessionResults_wellFormed s.made) made
    exact failed (by simp [none])
  have full := Consensus.failed_eq_nil_iff_success (sessionResults_wellFormed s.made) made
  simp only [Storable, IsOverdue, full, spoken, ne_eq, not_false_eq_true, true_and, not_and,
    not_exists, not_not, Option.mem_def]

theorem runSource_runs (a : Auditor) (o : Occasion) (source : String) (options : AuditOptions)
    (s : AuditorState) : Runs a o source options s (runSource a o source options s) := by
  rcases prepare_cases a.settings source options with ⟨refused, e, invalid, kind⟩ |
    ⟨accepted, p, prepared⟩
  · simp only [runSource, invalid]
    exact .refused refused kind
  rw [runSource_of_prepare prepared]
  have ways := consult_consults (o := o) prepared s
  generalize consult a o source options p s = run at ways
  have results {session : Session.Outcome} {outcome : Except Failure Aggregate}
      (held : session? a o source options s.made = some session)
      (made : Consensus.aggregate session.results p.analysis.findings p.characteristics
        a.settings.scoring = outcome) :
      Clock.CanHold o.millis a.settings.globalTimeout ∧
        Consensus.aggregate (sessionResults a o source options s.made) p.analysis.findings
          p.characteristics a.settings.scoring = outcome := by
    obtain ⟨-, -, timely, -⟩ := session?_eq_some_iff.mp held
    exact ⟨timely, by rw [sessionResults_of_session? held, made]⟩
  cases ways with
  | found served => exact .served accepted (by rw [served]; exact Option.some_ne_none _)
  | late missed unheld =>
    refine .late accepted missed (fun timely => ?_) rfl
    cases unheld.symm.trans (session?_eq_run prepared timely s.made)
  | silent missed held fruitless =>
    obtain ⟨timely, fruitless⟩ := results held fruitless
    obtain ⟨failed, kind⟩ :=
      Consensus.failed_of_aggregate_error (sessionResults_wellFormed s.made) fruitless
    exact .silent accepted missed timely failed kind
  | taken missed held made storable =>
    obtain ⟨timely, made⟩ := results held made
    rw [← sessionTime_of_session? held, storable_iff made] at storable
    exact .reported accepted missed timely
      (Consensus.not_failed_of_aggregate_ok (sessionResults_wellFormed s.made) made) storable
  | overdue missed held made unstorable =>
    obtain ⟨timely, made⟩ := results held made
    rw [← sessionTime_of_session? held, storable_iff made, not_not] at unstorable
    exact .overdue accepted missed timely unstorable

theorem records_runSource (a : Auditor) (o : Occasion) (source : String) (options : AuditOptions)
    (s : AuditorState) : (runSource a o source options s).2.records = s.records := by
  cases prepared : prepare a.settings source options with
  | error e => simp only [runSource, prepared]
  | ok p =>
    rw [runSource_of_prepare prepared]
    have ways := consult_consults (o := o) prepared s
    generalize consult a o source options p s = run at ways
    cases ways <;> rfl

theorem records_runAddress (a : Auditor) (o : Occasion) (address chain : String)
    (options : AuditOptions) (s : AuditorState) :
    (runAddress a o address chain options s).2.records = s.records := by
  rcases runAddress_cases a o address chain options s with
    ⟨-, -, n, state⟩ | ⟨source, size, -, run⟩
  · rw [state]
  · rw [run]
    exact records_runSource _ _ _ _ _

theorem runFetched_none {fetched : FetchedContract} (unknown : fetched.source = none) (a : Auditor)
    (o : Occasion) (address chain : String) (options : AuditOptions) (s : AuditorState) :
    runFetched a o address chain options fetched s =
      ((Ending.ofExcept (bytecodeReport o address fetched)).map fun r =>
        { r with chain := some chain, address := some address }, s) := by
  simp only [runFetched, unknown]

theorem runAddress_malformed {address : String} (malformed : isValidAddress address = false)
    (a : Auditor) (o : Occasion) (chain : String) (options : AuditOptions) (s : AuditorState) :
    runAddress a o address chain options s = (.error (badAddress address), s) := by
  simp only [runAddress, malformed, Bool.not_false, if_true]

theorem runAddress_fetched {address chain : String} (valid : isValidAddress address = true)
    {fetch : String → String → Except Failure FetchedContract} (fetcher : a.fetcher = some fetch)
    {fetched : FetchedContract} (found : fetch address chain = .ok fetched) (o : Occasion)
    (options : AuditOptions) (s : AuditorState) :
    runAddress a o address chain options s =
      runFetched a o address chain options fetched { s with fetches := s.fetches + 1 } := by
  simp only [runAddress, valid, fetcher, found, Bool.not_true, Bool.false_eq_true, if_false]

/-- How the log relates to the end of an audit with records `before`, of a chain and an address if
they are given: it received the report that the caller gets, or for a failure one that has nothing
but its message and the place, or for a crash nothing. -/
structure IsLogged (a : Auditor) (o : Occasion) (chain address : Option String) (before : Records)
    (ending : Ending AuditReport × AuditorState) : Prop where
  completed : ∀ r, ending.1 = .ok r → before.Received a.sinks r o.time ending.2.records
  failed : ∀ e, ending.1 = .error e → ∃ r : AuditReport,
    before.Received a.sinks r o.time ending.2.records ∧ r.auditId = o.auditId ∧
      r.status = .failed ∧ r.overallScore = 0.0 ∧ r.riskLevel = .critical ∧ r.findings = [] ∧
      r.error = some e.message ∧ r.chain = chain ∧ r.address = address
  crashed : ending.1 = .crashed → ending.2.records = before

private theorem finish_fst (a : Auditor) (o : Occasion) (chain address : Option String)
    (run : Ending AuditReport × AuditorState) : (finish a o chain address run).1 = run.1 := by
  rcases run with ⟨_ | _ | _, _⟩ <;> rfl

private theorem isLogged_finish (a : Auditor) (o : Occasion) (chain address : Option String)
    (run : Ending AuditReport × AuditorState) :
    IsLogged a o chain address run.2.records (finish a o chain address run) := by
  obtain ⟨ending, s⟩ := run
  constructor
  · intro r completed
    rw [finish_fst] at completed
    cases completed
    exact Sink.received_handOver _ _ _ _
  · intro e failed
    rw [finish_fst] at failed
    cases failed
    exact ⟨failedReport o e chain address, Sink.received_handOver _ _ _ _, rfl, rfl, rfl, rfl, rfl,
      rfl, rfl, rfl⟩
  · intro crashed
    rw [finish_fst] at crashed
    cases crashed
    rfl

private theorem finish_made (a : Auditor) (o : Occasion) (chain address : Option String)
    (run : Ending AuditReport × AuditorState) :
    (finish a o chain address run).2.made = run.2.made := by
  rcases run with ⟨_ | _ | _, _⟩ <;> rfl

private theorem finish_fetches (a : Auditor) (o : Occasion) (chain address : Option String)
    (run : Ending AuditReport × AuditorState) :
    (finish a o chain address run).2.fetches = run.2.fetches := by
  rcases run with ⟨_ | _ | _, _⟩ <;> rfl

private theorem auditSource_fst (a : Auditor) (o : Occasion) (source : String)
    (options : AuditOptions) (s : AuditorState) :
    (auditSource a o source options s).1 = (runSource a o source options s).1 :=
  finish_fst _ _ _ _ _

theorem auditAddress_fst (a : Auditor) (o : Occasion) (address chain : String)
    (options : AuditOptions) (s : AuditorState) :
    (auditAddress a o address chain options s).1 = (runAddress a o address chain options s).1 :=
  finish_fst _ _ _ _ _

namespace Runs

variable (runs : Runs a o source options s run)
include runs

private theorem refused_iff :
    IsRefused a.settings source ↔ ∃ e, run.1 = .error e ∧ e.kind = .invalidInput := by
  cases runs with
  | refused refused kind => exact ⟨fun _ => ⟨_, rfl, kind⟩, fun _ => refused⟩
  | silent accepted _ _ _ kind =>
    refine iff_of_false accepted ?_
    rintro ⟨e, ⟨⟩, blamed⟩
    cases kind.symm.trans blamed
  | served accepted | late accepted | overdue accepted | reported accepted =>
    exact iff_of_false accepted (by simp)

private theorem kinds (e : Failure) (failed : run.1 = .error e) :
    IsRefused a.settings source ∧ e.kind = .invalidInput ∨
      ¬IsRefused a.settings source ∧ e.kind = .noSuccessfulAnalysis := by
  cases runs with
  | refused refused kind =>
    cases failed
    exact .inl ⟨refused, kind⟩
  | silent accepted _ _ _ kind =>
    cases failed
    exact .inr ⟨accepted, kind⟩
  | served | late | overdue | reported => cases failed

private theorem missed_iff (accepted : ¬IsRefused a.settings source)
    (missed : cachedView? a o source options s = none)
    (timely : Clock.CanHold o.millis a.settings.globalTimeout) :
    (∃ e, run.1 = .error e) ↔
      ∀ result ∈ sessionResults a o source options s.made, result.success = false := by
  cases runs with
  | refused refused => exact absurd refused accepted
  | served _ found => exact absurd missed found
  | late _ _ late => exact absurd timely late
  | silent _ _ _ failed => exact iff_of_true ⟨_, rfl⟩ failed
  | overdue _ _ _ overdue =>
    obtain ⟨some, succeeded, -⟩ := overdue
    refine iff_of_false (by simp) fun failed => ?_
    obtain ⟨result, member⟩ := List.exists_mem_of_ne_nil _ some
    cases (succeeded result member).symm.trans (failed result member)
  | reported _ _ _ succeeded => exact iff_of_false (by simp) succeeded

theorem found (accepted : ¬IsRefused a.settings source)
    (found : cachedView? a o source options s ≠ none) : ∃ r, run.1 = .ok r := by
  cases runs with
  | refused refused => exact absurd refused accepted
  | served => exact ⟨_, rfl⟩
  | late _ missed | silent _ missed | overdue _ missed | reported _ missed =>
    exact absurd missed found

private theorem crashed_iff : run.1 = .crashed ↔ ¬IsRefused a.settings source ∧
    cachedView? a o source options s = none ∧
      (¬Clock.CanHold o.millis a.settings.globalTimeout ∨ IsOverdue a o source options s) := by
  cases runs with
  | refused refused => exact iff_of_false (by simp) fun crashes => crashes.1 refused
  | served _ found => exact iff_of_false (by simp) fun crashes => found crashes.2.1
  | late accepted missed late => exact iff_of_true rfl ⟨accepted, missed, .inl late⟩
  | overdue accepted missed _ overdue => exact iff_of_true rfl ⟨accepted, missed, .inr overdue⟩
  | silent _ _ timely failed =>
    refine iff_of_false (by simp) ?_
    rintro ⟨-, -, late | ⟨some, succeeded, -⟩⟩
    · exact late timely
    · obtain ⟨result, member⟩ := List.exists_mem_of_ne_nil _ some
      cases (succeeded result member).symm.trans (failed result member)
  | reported _ _ timely _ storable =>
    refine iff_of_false (by simp) ?_
    rintro ⟨-, -, late | overdue⟩
    · exact late timely
    · exact storable overdue

private theorem made_of_late (late : ¬Clock.CanHold o.millis a.settings.globalTimeout) :
    run.2.made = s.made := by
  cases runs with
  | refused | served => rfl
  | late _ _ _ uncalled => exact uncalled
  | silent _ _ timely | overdue _ _ timely | reported _ _ timely => exact absurd timely late

end Runs

theorem Runs.ne_crashed_of_isTimely (runs : Runs a o source options s run) (timely : a.IsTimely o)
    (lifetime : ∀ c ∈ s.cache, a.settings.cacheTtl = some c.lifetime) : run.1 ≠ .crashed := by
  intro crashed
  obtain ⟨-, -, late | ⟨-, -, c, held, overdue⟩⟩ := runs.crashed_iff.mp crashed
  · exact late timely.1
  · exact overdue (timely.canHold lifetime source options held)

/-- How an audit of a source ends. Nobody was called if neither the number of requests grew nor
anything would be different with another panel. -/
structure SourceEnding (a : Auditor) (o : Occasion) (source : String) (options : AuditOptions)
    (s : AuditorState) : Prop where
  refused : IsRefused a.settings source ↔
    ∃ e, (auditSource a o source options s).1 = .error e ∧ e.kind = .invalidInput
  uncalled : IsRefused a.settings source → (auditSource a o source options s).2.made = s.made ∧
    ∀ panel, auditSource { a with panel := panel } o source options s =
      auditSource a o source options s
  missed : ¬IsRefused a.settings source → cachedView? a o source options s = none →
    Clock.CanHold o.millis a.settings.globalTimeout →
      ((∃ e, (auditSource a o source options s).1 = .error e) ↔
        ∀ result ∈ sessionResults a o source options s.made, result.success = false)
  found : ¬IsRefused a.settings source → cachedView? a o source options s ≠ none →
    ∃ r, (auditSource a o source options s).1 = .ok r
  kinds : ∀ e, (auditSource a o source options s).1 = .error e →
    IsRefused a.settings source ∧ e.kind = .invalidInput ∨
      ¬IsRefused a.settings source ∧ e.kind = .noSuccessfulAnalysis
  crashed : (auditSource a o source options s).1 = .crashed ↔ ¬IsRefused a.settings source ∧
    cachedView? a o source options s = none ∧
      (¬Clock.CanHold o.millis a.settings.globalTimeout ∨ IsOverdue a o source options s)
  late : ¬Clock.CanHold o.millis a.settings.globalTimeout →
    (auditSource a o source options s).2.made = s.made
  logged : IsLogged a o options.chain none s.records (auditSource a o source options s)
  unmoved : ∀ sinks, (auditSource { a with sinks := sinks } o source options s).1 =
    (auditSource a o source options s).1

/-- How an audit of an address ends. Where a source is fetched, that is as the audit of the
source. -/
structure AddressEnding (a : Auditor) (o : Occasion) (address chain : String)
    (options : AuditOptions) (s : AuditorState) : Prop where
  malformed : isValidAddress address = false →
    (auditAddress a o address chain options s).2.fetches = s.fetches ∧
      ∀ fetcher, auditAddress { a with fetcher := fetcher } o address chain options s =
        auditAddress a o address chain options s
  sourceless : ∀ fetch fetched, a.fetcher = some fetch → fetch address chain = .ok fetched →
    fetched.source = none → (auditAddress a o address chain options s).2.made = s.made ∧
      ∀ panel, auditAddress { a with panel := panel } o address chain options s =
        auditAddress a o address chain options s
  crashed : (auditAddress a o address chain options s).1 = .crashed ↔
    ∃ source, fetchedSource? a address chain = some source ∧
      (auditSource a o source { options with chain := some chain }
        { s with fetches := s.fetches + 1 }).1 = .crashed
  logged : IsLogged a o (some chain) (some address) s.records
    (auditAddress a o address chain options s)
  unmoved : ∀ sinks, (auditAddress { a with sinks := sinks } o address chain options s).1 =
    (auditAddress a o address chain options s).1

private theorem auditSource_refused (refused : IsRefused a.settings source) (o : Occasion)
    (options : AuditOptions) (s : AuditorState) :
    (auditSource a o source options s).2.made = s.made ∧
      ∀ panel, auditSource { a with panel := panel } o source options s =
        auditSource a o source options s := by
  rcases prepare_cases a.settings source options with ⟨-, e, invalid, -⟩ | ⟨accepted, -⟩
  · have run (panel : Panel) :
        runSource { a with panel := panel } o source options s = (.error e, s) := by
      simp only [runSource, invalid]
    have own : runSource a o source options s = (.error e, s) := run a.panel
    refine ⟨by rw [auditSource, finish_made, own], fun panel => ?_⟩
    simp only [auditSource, run panel, own]
    rfl
  · exact absurd refused accepted

private theorem auditSource_ends (a : Auditor) (o : Occasion) (source : String)
    (options : AuditOptions) (s : AuditorState) : SourceEnding a o source options s := by
  have logged := isLogged_finish a o options.chain none (runSource a o source options s)
  rw [records_runSource] at logged
  have runs := runSource_runs a o source options s
  have ending := auditSource_fst a o source options s
  exact
    { refused := by rw [ending]; exact runs.refused_iff
      uncalled := fun refused => auditSource_refused refused o options s
      missed := by rw [ending]; exact runs.missed_iff
      found := by rw [ending]; exact runs.found
      kinds := by rw [ending]; exact runs.kinds
      crashed := by rw [ending]; exact runs.crashed_iff
      late := fun late => by rw [auditSource, finish_made]; exact runs.made_of_late late
      logged := logged
      -- The log is not looked at before the audit is over.
      unmoved := fun sinks => by rw [auditSource_fst, ending]; rfl }

private theorem auditAddress_crashed_iff {address chain : String} :
    (auditAddress a o address chain options s).1 = .crashed ↔
      ∃ source, fetchedSource? a address chain = some source ∧
        (auditSource a o source { options with chain := some chain }
          { s with fetches := s.fetches + 1 }).1 = .crashed := by
  rw [auditAddress_fst]
  rcases runAddress_cases a o address chain options s with
    ⟨unfetched, told, -⟩ | ⟨source, size, fetched, run⟩
  · exact iff_of_false told (by simp [unfetched])
  · simp only [run, Ending.map_eq_crashed_iff, fetched, Option.some.injEq, exists_eq_left',
      auditSource_fst]

private theorem auditAddress_ends (a : Auditor) (o : Occasion) (address chain : String)
    (options : AuditOptions) (s : AuditorState) : AddressEnding a o address chain options s := by
  have logged := isLogged_finish a o (some chain) (some address)
    (runAddress a o address chain options s)
  rw [records_runAddress] at logged
  refine ⟨fun malformed => ?_, fun fetch fetched fetcher found unknown => ?_,
    auditAddress_crashed_iff, logged, fun sinks => ?_⟩
  · have run := runAddress_malformed malformed a o chain options s
    refine ⟨by rw [auditAddress, finish_fetches, run], fun fetcher => ?_⟩
    simp only [auditAddress, runAddress_malformed malformed]
    rfl
  · cases valid : isValidAddress address with
    | false =>
      refine ⟨by rw [auditAddress, finish_made, runAddress_malformed valid], fun panel => ?_⟩
      simp only [auditAddress, runAddress_malformed valid]
      rfl
    | true =>
      have run (panel : Panel) : runAddress { a with panel := panel } o address chain options s =
          ((Ending.ofExcept (bytecodeReport o address fetched)).map fun r =>
            { r with chain := some chain, address := some address },
            { s with fetches := s.fetches + 1 }) := by
        rw [runAddress_fetched (a := { a with panel := panel }) valid fetcher found,
          runFetched_none unknown]
      have own := run a.panel
      refine ⟨by rw [auditAddress, finish_made]; exact congrArg (·.2.made) own, fun panel => ?_⟩
      simp only [auditAddress, run panel]
      rw [← own]
      rfl
  · rw [auditAddress_fst, auditAddress_fst]
    rfl

/-- How audits end: of each source and of each address. -/
theorem audits_end (a : Auditor) (o : Occasion) (options : AuditOptions) (s : AuditorState) :
    (∀ source, SourceEnding a o source options s) ∧
      ∀ address chain, AddressEnding a o address chain options s :=
  ⟨fun source => auditSource_ends a o source options s, fun address chain =>
    auditAddress_ends a o address chain options s⟩

/-- An engine with a log and with a deadline as late as settings can have it. -/
def endless : Auditor :=
  { terse with
    settings := { terse.settings with globalTimeout := 1000 * (2 ^ 64 - 1) }
    sinks := [.memory] }

/-- Its audits of valid sources crash, and no report of them is handed to the log. -/
theorem endless_leaves_no_report :
    let source := "contract A \x7b\x7d"
    let audit := auditSource endless ⟨"1", default⟩ source ⟨none, .fast, some ["security"]⟩
      (.initial endless.settings)
    ¬IsRefused endless.settings source ∧ audit.1 = .crashed ∧ audit.2.records = .empty := by
  intro source audit
  have accepted : ¬IsRefused endless.settings source := by
    unfold IsRefused
    decide
  have ends := auditSource_ends endless ⟨"1", default⟩ source ⟨none, .fast, some ["security"]⟩
    (.initial endless.settings)
  have crashed : audit.1 = .crashed :=
    ends.crashed.mpr ⟨accepted, cachedView?_of_cache_eq_none rfl, .inl (by decide)⟩
  exact ⟨accepted, crashed, ends.logged.crashed crashed⟩

end Auditor

end AuditPanel
