import AuditPanel.Proofs.Audit.FailedRecord
import AuditPanel.Proofs.Audit.Outcome
import AuditPanel.Proofs.Panel.Wordless
import AuditPanel.Proofs.Report.Store

/-!
What the words of reviewers' failures can change in an audit: the message of an audit in which
nobody succeeded, and the record of it. Completed reports, the cache and the counters are the same.
-/

set_option autoImplicit false

namespace AuditPanel

namespace Consensus

variable {results results' : List ReviewResult} {statics : List Finding}
  {c : Source.Characteristics} {rules : ScoringRules}

private theorem inPanelOrder_wordless (results : List ReviewResult) :
    inPanelOrder (results.map .wordless) = (inPanelOrder results).map .wordless :=
  (List.map_mergeSort
    (r := fun a b : ReviewResult => decide (a.reviewer.priority ≤ b.reviewer.priority))
    (f := ReviewResult.wordless) fun _ _ _ _ => rfl).symm

private theorem reviewsOf_wordless (results : List ReviewResult) :
    reviewsOf (results.map .wordless) = reviewsOf results := by
  rw [reviewsOf, inPanelOrder_wordless, List.filterMap_map]
  rfl

private theorem aggregate_wordless (spoken : reviewsOf results ≠ []) :
    aggregate (results.map .wordless) statics c rules = aggregate results statics c rules := by
  have spoken' : reviewsOf (results.map .wordless) ≠ [] := reviewsOf_wordless results ▸ spoken
  have contributions : (inPanelOrder (results.map .wordless)).map
    (fun r => (r.reviewer.name, r.findingCount)) =
      (inPanelOrder results).map fun r => (r.reviewer.name, r.findingCount) := by
    rw [inPanelOrder_wordless, List.map_map]
    rfl
  have failed :
    ((inPanelOrder (results.map .wordless)).filter fun r => (successfulReview? r).isNone).map
      (·.reviewer) =
      ((inPanelOrder results).filter fun r => (successfulReview? r).isNone).map (·.reviewer) := by
    rw [inPanelOrder_wordless, List.filter_map, List.map_map]
    rfl
  rw [aggregate_of_reviewsOf_ne_nil spoken', aggregate_of_reviewsOf_ne_nil spoken]
  simp only [viewOf, reviewsOf_wordless, contributions, failed, List.length_map]

end Consensus

/-- Two endings that are the same, or both are that nobody succeeded. -/
inductive EndAlike {α : Type} : Ending α → Ending α → Prop
  | same (ending : Ending α) : EndAlike ending ending
  | silent {e e' : Failure} (kind : e.kind = .noSuccessfulAnalysis)
      (kind' : e'.kind = .noSuccessfulAnalysis) : EndAlike (.error e) (.error e')

theorem EndAlike.map {α β : Type} (f : α → β) {x x' : Ending α} (h : EndAlike x x') :
    EndAlike (x.map f) (x'.map f) := by
  cases h with
  | same => exact .same _
  | silent kind kind' => exact .silent kind kind'

private theorem Consensus.aggregate_alike {results results' : List ReviewResult}
    (same : results.map .wordless = results'.map ReviewResult.wordless) (statics : List Finding)
    (c : Source.Characteristics) (rules : ScoringRules) :
    aggregate results statics c rules = aggregate results' statics c rules ∨
      ∃ e e', aggregate results statics c rules = .error e ∧
        aggregate results' statics c rules = .error e' ∧
          e.kind = .noSuccessfulAnalysis ∧ e'.kind = .noSuccessfulAnalysis := by
  have reviews : reviewsOf results = reviewsOf results' := by
    rw [← reviewsOf_wordless, same, reviewsOf_wordless]
  by_cases silent : reviewsOf results = []
  · exact .inr ⟨_, _, aggregate_of_reviewsOf_eq_nil silent,
      aggregate_of_reviewsOf_eq_nil (reviews ▸ silent), rfl, rfl⟩
  · rw [← aggregate_wordless silent, same, aggregate_wordless (reviews ▸ silent)]
    exact .inl rfl

/-- A report without the words in which a failure is told. -/
def AuditReport.wordless (r : AuditReport) : AuditReport :=
  if r.status = .failed then { r with summary := "", error := r.error.map fun _ => "" } else r

/-- A summary without the words in which a failure is told. -/
def AuditSummary.wordless (s : AuditSummary) : AuditSummary :=
  if s.status = AuditStatus.failed.name then { s with error := s.error.map fun _ => "" } else s

/-- Two rows that are the same, or tell of one failed audit in different words. -/
inductive StoreRow.Alike : StoreRow → StoreRow → Prop
  | same (row : StoreRow) : Alike row row
  | failed (o : Occasion) (e e' : Failure) (chain address : Option String) :
    Alike (.ofReport (Auditor.failedReport o e chain address))
      (.ofReport (Auditor.failedReport o e' chain address))

namespace StoreRow.Alike

variable {row row' : StoreRow}

theorem auditId (h : row.Alike row') : row.summary.auditId = row'.summary.auditId := by
  cases h <;> rfl

theorem summary (h : row.Alike row') : row.summary.wordless = row'.summary.wordless := by
  cases h with
  | same => rfl
  | failed o e e' chain address =>
    have failed (e : Failure) :
      (AuditSummary.ofReport (Auditor.failedReport o e chain address)).status =
      AuditStatus.failed.name := rfl
    simp only [ofReport, AuditSummary.wordless, failed, if_true]
    rfl

theorem report? (h : row.Alike row') :
    row.report?.map AuditReport.wordless = row'.report?.map AuditReport.wordless := by
  cases h with
  | same => rfl
  | failed o e e' chain address =>
    simp only [StoreRow.report?, ofReport, AuditReport.read_failedReport, Option.map_map]
    rfl

end StoreRow.Alike

/-- Stores row by row the same but for the words of failed audits. -/
def ReportStore.Alike (s s' : ReportStore) : Prop :=
  List.Forall₂ StoreRow.Alike s.rows s'.rows

namespace ReportStore

variable {s s' : ReportStore}

theorem Alike.save (h : s.Alike s') {r r' : AuditReport}
    (rows : StoreRow.Alike (.ofReport r) (.ofReport r')) :
    (s.save r).Alike (s'.save r') := by
  have named : r.auditId = r'.auditId := rows.auditId
  refine .cons rows (List.rel_filter (fun row row' alike => ?_) h)
  dsimp only
  rw [alike.auditId, named]

private theorem row?_alike (h : s.Alike s') (id : String) :
    s.row? id = none ∧ s'.row? id = none ∨
      ∃ row row', s.row? id = some row ∧ s'.row? id = some row' ∧ row.Alike row' := by
  have among {rows rows' : List StoreRow} (alike : List.Forall₂ StoreRow.Alike rows rows') :
      rows.find? (·.summary.auditId = id) = none ∧ rows'.find? (·.summary.auditId = id) = none ∨
        ∃ row row', rows.find? (·.summary.auditId = id) = some row ∧
          rows'.find? (·.summary.auditId = id) = some row' ∧
          row.Alike row' := by
    induction alike with
    | nil => exact .inl ⟨rfl, rfl⟩
    | @cons row row' _ _ first _ ih =>
      simp only [List.find?_cons, first.auditId]
      split
      · exact .inr ⟨row, row', rfl, rfl, first⟩
      · exact ih
  exact among h

private theorem get_of_row? {id : String} {row : StoreRow} (found : s.row? id = some row) :
    (s.get id).map (·.map AuditReport.wordless) =
      (row.report?.map AuditReport.wordless).elim (.error unreadable) fun r => .ok (some r) := by
  simp only [get, found, StoreRow.report?]
  cases (Json.read? row.record.toList).bind AuditReport.ofJson? <;> rfl

theorem Alike.get (h : s.Alike s') (id : String) :
    (s.get id).map (·.map AuditReport.wordless) = (s'.get id).map (·.map AuditReport.wordless) := by
  rcases row?_alike h id with ⟨absent, absent'⟩ | ⟨row, row', found, found', alike⟩
  · simp only [ReportStore.get, absent, absent']
  · rw [get_of_row? found, get_of_row? found', alike.report?]

private theorem standsBefore_wordless (a b : AuditSummary) :
    AuditSummary.standsBefore a.wordless b.wordless = AuditSummary.standsBefore a b := by
  have kept (s : AuditSummary) : s.wordless.createdAt = s.createdAt ∧
      s.wordless.auditId = s.auditId := by
    unfold AuditSummary.wordless
    split <;> exact ⟨rfl, rfl⟩
  simp only [AuditSummary.standsBefore, kept]

theorem Alike.list (h : s.Alike s') (limit : Int) :
    (s.list limit).map AuditSummary.wordless = (s'.list limit).map AuditSummary.wordless := by
  have rows : (s.rows.map (·.summary)).map AuditSummary.wordless =
      (s'.rows.map (·.summary)).map AuditSummary.wordless := by
    rw [List.map_map, List.map_map]
    unfold ReportStore.Alike at h
    generalize s.rows = rows at h
    generalize s'.rows = rows' at h
    induction h with
    | nil => rfl
    | cons alike rest ih => exact congrArg₂ List.cons alike.summary ih
  have sorted (all : List AuditSummary) : (all.mergeSort AuditSummary.standsBefore).map
    AuditSummary.wordless = (all.map AuditSummary.wordless).mergeSort AuditSummary.standsBefore :=
    List.map_mergeSort fun a _ b _ => (standsBefore_wordless a b).symm
  simp only [ReportStore.list]
  split
  · rw [sorted, sorted, rows]
  · rw [List.map_take, List.map_take, sorted, sorted, rows]

end ReportStore

/-- States that differ only in the words of failed audits in their logs. -/
structure AuditorState.Alike (s s' : AuditorState) : Prop where
  cache : s.cache = s'.cache
  made : s.made = s'.made
  fetches : s.fetches = s'.fetches
  store : s.records.store.Alike s'.records.store

structure RunAlike {α : Type} (run run' : Ending α × AuditorState) : Prop where
  ending : EndAlike run.1 run'.1
  state : run.2.Alike run'.2

namespace Auditor

variable {a : Auditor} {panel' : Panel} {s s' : AuditorState}

private theorem conclude_alike (states : s.Alike s') (o : Occasion) (p : Preparation)
    {session session' : Session.Outcome} (sessions : session.wordless = session'.wordless) :
    RunAlike (conclude a o p session s) (conclude { a with panel := panel' } o p session' s') := by
  have results : session.results.map ReviewResult.wordless = session'.results.map .wordless :=
    congrArg (·.results) sessions
  have made : session.made = session'.made := congrArg (·.made) sessions
  have elapsed : session.elapsed = session'.elapsed := congrArg (·.elapsed) sessions
  simp only [conclude]
  rcases Consensus.aggregate_alike results p.analysis.findings p.characteristics a.settings.scoring
    with same | ⟨e, e', told, told', kind, kind'⟩
  · rw [same, elapsed, states.cache]
    cases Consensus.aggregate session'.results p.analysis.findings p.characteristics
      a.settings.scoring with
    | error e => exact ⟨.same _, rfl, made, states.fetches, states.store⟩
    | ok view =>
      dsimp only
      split
      · exact ⟨.same _, rfl, made, states.fetches, states.store⟩
      · exact ⟨.same _, rfl, made, states.fetches, states.store⟩
  · rw [told, told']
    exact ⟨.silent kind kind', states.cache, made, states.fetches, states.store⟩

private theorem consult_alike (panels : a.panel.wordless = panel'.wordless) (states : s.Alike s')
    (o : Occasion) (source : String) (options : AuditOptions) (p : Preparation) :
    RunAlike (consult a o source options p s)
      (consult { a with panel := panel' } o source options p s') := by
  cases cached : s.cache.bind fun cache => cache.get? o.millis p.key with
  | some view =>
    have cached' := states.cache ▸ cached
    rw [consult_found a source options cached,
      consult_found { a with panel := panel' } source options cached']
    exact ⟨.same _, states⟩
  | none =>
    have cached' := states.cache ▸ cached
    have brief : sessionBrief { a with panel := panel' } source options p o.time =
        sessionBrief a source options p o.time := rfl
    have cache : (missedState o p s).cache = (missedState o p s').cache := by
      rw [missedState, missedState, states.cache]
    have looked : (missedState o p s).Alike (missedState o p s') :=
      ⟨cache, states.made, states.fetches, states.store⟩
    by_cases timely : Clock.CanHold o.millis a.settings.globalTimeout
    · have held (panel : Panel) (made : Requests) :
          Session.hold (sessionBrief a source options p o.time) panel made p.reviewers =
            some (Session.run (sessionBrief a source options p o.time) panel made p.reviewers) :=
        if_pos timely
      simp only [consult, cached, cached', brief, held]
      refine conclude_alike looked o p ?_
      rw [← Session.run_wordless, panels, Session.run_wordless, states.made]
    · have unheld (panel : Panel) (made : Requests) :
          Session.hold (sessionBrief a source options p o.time) panel made p.reviewers = none :=
        if_neg timely
      simp only [consult, cached, cached', brief, unheld]
      exact ⟨.same _, looked⟩

theorem runSource_alike (panels : a.panel.wordless = panel'.wordless) (states : s.Alike s')
    (o : Occasion) (source : String) (options : AuditOptions) :
    RunAlike (runSource a o source options s)
      (runSource { a with panel := panel' } o source options s') := by
  cases prepared : prepare a.settings source options with
  | error e =>
    simp only [runSource, prepared]
    exact ⟨.same _, states⟩
  | ok p =>
    obtain ⟨ending, after⟩ := consult_alike panels states o source options p
    rw [runSource_of_prepare prepared,
      runSource_of_prepare (a := { a with panel := panel' }) prepared]
    exact ⟨ending.map _, after⟩

private theorem runFetched_alike (panels : a.panel.wordless = panel'.wordless) (states : s.Alike s')
    (o : Occasion) (address chain : String) (options : AuditOptions) (fetched : FetchedContract) :
    RunAlike (runFetched a o address chain options fetched s)
      (runFetched { a with panel := panel' } o address chain options fetched s') := by
  cases known : fetched.source with
  | none =>
    rw [runFetched_none known, runFetched_none known]
    exact ⟨.same _, states⟩
  | some source =>
    obtain ⟨ending, after⟩ :=
      runSource_alike panels states o source { options with chain := some chain }
    simp only [runFetched, known]
    exact ⟨ending.map _, after⟩

theorem runAddress_alike (panels : a.panel.wordless = panel'.wordless) (states : s.Alike s')
    (o : Occasion) (address chain : String) (options : AuditOptions) :
    RunAlike (runAddress a o address chain options s)
      (runAddress { a with panel := panel' } o address chain options s') := by
  have fetching : AuditorState.Alike { s with fetches := s.fetches + 1 }
      { s' with fetches := s'.fetches + 1 } :=
    ⟨states.cache, states.made, congrArg (· + 1) states.fetches, states.store⟩
  unfold runAddress
  split
  · exact ⟨.same _, states⟩
  · dsimp only
    cases a.fetcher with
    | none => exact ⟨.same _, states⟩
    | some fetch =>
      dsimp only
      cases fetch address chain with
      | error e => exact ⟨.same _, fetching⟩
      | ok fetched => exact runFetched_alike panels fetching o address chain options fetched

private theorem record_alike (states : s.Alike s') (o : Occasion) {r r' : AuditReport}
    (rows : StoreRow.Alike (.ofReport r) (.ofReport r')) :
    (record a o r s).Alike (record { a with panel := panel' } o r' s') := by
  refine ⟨states.cache, states.made, states.fetches, ?_⟩
  have stored := (Sink.received_handOver a.sinks r o.time s.records).store
  have stored' := (Sink.received_handOver a.sinks r' o.time s'.records).store
  simp only [record, stored, stored']
  split
  · exact states.store.save rows
  · exact states.store

theorem finish_alike (panel' : Panel) (o : Occasion) (chain address : Option String)
    {run run' : Ending AuditReport × AuditorState} (runs : RunAlike run run') :
    RunAlike (finish a o chain address run)
      (finish { a with panel := panel' } o chain address run') := by
  obtain ⟨ending, after⟩ := runs
  obtain ⟨outcome, t⟩ := run
  obtain ⟨outcome', t'⟩ := run'
  cases ending with
  | silent kind kind' =>
    exact ⟨.silent kind kind', record_alike after o (.failed o _ _ chain address)⟩
  | same =>
    cases outcome with
    | error e => exact ⟨.same _, record_alike after o (.same _)⟩
    | ok r => exact ⟨.same _, record_alike after o (.same _)⟩
    | crashed => exact ⟨.same _, after⟩

variable {o : Occasion} {source : String} {options : AuditOptions}

theorem runSource_silent (accepted : ¬IsRefused a.settings source)
    (missed : cachedView? a o source options s = none)
    (timely : Clock.CanHold o.millis a.settings.globalTimeout)
    (silent : Consensus.reviewsOf (sessionResults a o source options s.made) = []) :
    (runSource a o source options s).1 = .error (Consensus.noneSucceeded
      (Consensus.inPanelOrder (sessionResults a o source options s.made))) := by
  rcases prepare_cases a.settings source options with ⟨refused, -⟩ | ⟨-, p, prepared⟩
  · exact absurd refused accepted
  rw [runSource_of_prepare prepared]
  have ways := consult_consults (o := o) prepared s
  generalize consult a o source options p s = run at ways
  cases ways with
  | found served => cases missed.symm.trans served
  | late _ unheld => cases unheld.symm.trans (session?_eq_run prepared timely s.made)
  | silent _ held fruitless =>
    rw [sessionResults_of_session? held] at silent ⊢
    rw [Consensus.aggregate_of_reviewsOf_eq_nil silent] at fruitless
    cases fruitless
    rfl
  | taken _ held made | overdue _ held made =>
    rw [sessionResults_of_session? held] at silent
    exact absurd silent (Consensus.aggregate_ok made).1

theorem get_auditSource_failed {e : Failure} {time : Instant} (stored : .store ∈ a.sinks)
    (failed : (runSource a o source options s).1 = .error e)
    (dated : Instant.ofText? o.time.toText = some time) :
    (auditSource a o source options s).2.records.store.get o.auditId =
      .ok (some (failedReport ⟨o.auditId, time⟩ e options.chain none)) := by
  rcases run : runSource a o source options s with ⟨outcome, after⟩
  rw [run] at failed
  cases failed
  have saved := (Sink.received_handOver a.sinks (failedReport o e options.chain none) o.time
    after.records).store
  rw [if_pos stored] at saved
  have found : (after.records.store.save (failedReport o e options.chain none)).row? o.auditId =
      some (.ofReport (failedReport o e options.chain none)) :=
    List.find?_cons_of_pos (decide_eq_true rfl)
  simp only [auditSource, run, finish, record, saved, ReportStore.get, found, StoreRow.ofReport,
    AuditReport.read_failedReport, dated, Option.map_some]

end Auditor

end AuditPanel
