import AuditPanel.Proofs.Audit.CacheInvariant
import AuditPanel.Proofs.Audit.FinalFindings
import AuditPanel.Proofs.Report.Record
import AuditPanel.Proofs.Source.RuleScan

/-!
Reports keep their sets as increasing lists. The lines of a finding are put in order when an answer
is read, and merges leave them alone; its sources are put in order by the merge. A view that comes
from the cache was made by a panel once, so it is in order as well.
-/

set_option autoImplicit false

namespace AuditPanel

/-- The lines of each finding are a set. -/
def LinesIncrease (findings : List Finding) : Prop :=
  ∀ f ∈ findings, f.affectedLines.Pairwise (· < ·)

theorem LinesIncrease.append {fs fs' : List Finding} (h : LinesIncrease fs)
    (h' : LinesIncrease fs') :
    LinesIncrease (fs ++ fs') :=
  List.forall_mem_append.mpr ⟨h, h'⟩

namespace Review

private theorem linesIncrease_normalize (raw : List Char) (r : Reviewer) :
    LinesIncrease (normalize raw r).findings := by
  have named (value : Option Json) : (linesOf value).Pairwise (· < ·) := by
    cases value with
    | none => exact .nil
    | some v => exact Ordered.nats_pairwise _
  have found (value : Option Json) : LinesIncrease (findingsOf r value) := by
    intro f member
    unfold findingsOf at member
    split at member
    · obtain ⟨members, -, rfl⟩ := List.mem_map.mp member
      exact named _
    · cases member
  unfold normalize
  split
  · exact found _
  · exact nofun

end Review

private theorem Session.linesIncrease_ownReview? {b : Brief} {panel : Panel} {made : Requests}
    {chosen : List Reviewer}
    {r : Reviewer} {review : Review} (brought : ownReview? b panel made chosen r = some review) :
    LinesIncrease review.findings := by
  obtain ⟨text, rfl⟩ := exists_normalize_of_ownReview? brought
  exact Review.linesIncrease_normalize text r

namespace Consensus

variable {results : List ReviewResult} {statics : List Finding} {c : Source.Characteristics}
  {rules : ScoringRules} {view : Aggregate}

private theorem IsMerge.isOrdered {group : List Finding} {m : Finding} (merge : IsMerge group m)
    (lines : LinesIncrease group) :
    m.IsOrdered := by
  obtain ⟨best, member, -, texts⟩ := merge.narrative
  have same : m.affectedLines = best.affectedLines := congrArg Narrative.affectedLines texts
  have own := lines best member
  exact ⟨by rwa [same], merge.increasing⟩

private theorem linesIncrease_scoredFindings {reviews : List Review}
    (answers : ∀ a ∈ reviews, LinesIncrease a.findings)
    (scanned : LinesIncrease statics) : LinesIncrease (scoredFindings reviews statics) := by
  intro f member
  have merge := isMerge_of_mem_scoredFindings member
  refine (merge.isOrdered fun g inside => ?_).lines_increase
  rcases List.mem_append.mp (List.mem_filter.mp inside).1 with proposed | static
  · rw [candidates] at proposed
    obtain ⟨a, reported, taken⟩ := List.mem_flatMap.mp proposed
    obtain ⟨own, found, rfl⟩ := List.mem_map.mp taken
    rw [candidate]
    exact answers a reported own found
  · exact scanned g static

theorem lastByName_pairwise (xs : List (String × Nat)) : (lastByName xs).Pairwise fun a b =>
    a.1 < b.1 := by
  refine List.pairwise_filterMap.mpr ((Ordered.strings_pairwise _).imp ?_)
  intro name name' increase m found m' found'
  obtain ⟨_, -, rfl⟩ := Option.map_eq_some_iff.mp found
  obtain ⟨_, -, rfl⟩ := Option.map_eq_some_iff.mp found'
  exact increase

structure Aggregate.IsOrdered (view : Aggregate) : Prop where
  lines_increase : LinesIncrease (view.findings ++ view.lowConfidence)
  contributions_increase : view.contributions.Pairwise fun a b => a.1 < b.1

private theorem aggregate_isOrdered (answers : ∀ a ∈ reviewsOf results, LinesIncrease a.findings)
    (scanned : LinesIncrease statics) (aggregated : aggregate results statics c rules = .ok view) :
    view.IsOrdered := by
  constructor
  · intro f member
    have taken := (findings_append_lowConfidence_perm aggregated).subset member
    exact linesIncrease_scoredFindings answers scanned f taken
  · obtain ⟨-, rfl⟩ := aggregate_eq_ok_iff.mp aggregated
    exact lastByName_pairwise _

end Consensus

namespace Auditor

open Consensus (Aggregate)

variable {a : Auditor} {o : Occasion} {source : String} {options : AuditOptions} {s : AuditorState}
  {p : Preparation}

/-- All views that an engine keeps are in order. -/
def HoldsOrdered (s : AuditorState) : Prop :=
  ∀ c, s.cache = some c → ∀ e ∈ c.entries, e.value.IsOrdered

/-- A run that leaves such a state, and whose report is in order and has the id and the time of its
occasion. -/
structure RunsInOrder (o : Occasion) (run : Ending AuditReport × AuditorState) : Prop where
  report : ∀ r, run.1 = .ok r → r.IsOrdered ∧ r.auditId = o.auditId ∧ r.timestamp = o.time
  holds : HoldsOrdered run.2

private theorem RunsInOrder.of_failure (e : Failure) (held : HoldsOrdered s) :
    RunsInOrder o (.error e, s) := by
  refine ⟨fun r completed => ?_, held⟩
  cases completed

theorem holdsOrdered_initial (settings : Settings) : HoldsOrdered (.initial settings) := by
  intro c held
  obtain ⟨ttl, -, rfl⟩ := Option.map_eq_some_iff.mp held
  exact nofun

private theorem linesIncrease_analysis (prepared : prepare a.settings source options = .ok p) :
    LinesIncrease p.analysis.findings := by
  intro f member
  obtain ⟨-, analysed, -⟩ := prepare_ok prepared
  obtain ⟨n, -, lines⟩ := (Source.isScanned_of_mem_analyze analysed member).line
  rw [lines]
  exact List.pairwise_singleton _ _

private theorem linesIncrease_sessionResults (made : Requests) :
    ∀ review ∈ Consensus.reviewsOf (sessionResults a o source options made),
      LinesIncrease review.findings := by
  intro review member
  obtain ⟨result, inside, succeeded⟩ := List.mem_filterMap.mp member
  rw [Consensus.inPanelOrder, List.mem_mergeSort] at inside
  obtain ⟨p, -, results⟩ := exists_run_of_mem_sessionResults inside
  rw [results] at inside
  obtain ⟨r, -, brought⟩ := Session.exists_run_results_iff.mp ⟨result, inside, succeeded⟩
  exact Session.linesIncrease_ownReview? brought

private theorem isOrdered_of_consult (prepared : prepare a.settings source options = .ok p)
    (held : HoldsOrdered s)
    {view : Aggregate} {elapsed : Nat}
    (consulted : (consult a o source options p s).1 = .ok (view, elapsed)) :
    view.IsOrdered := by
  cases cached : cachedView? a o source options s with
  | some stored =>
    have found := (cachedView?_eq prepared).symm.trans cached
    rw [consult_found a source options found] at consulted
    cases consulted
    obtain ⟨c, kept, got⟩ := Option.bind_eq_some_iff.mp found
    obtain ⟨e, first, rfl⟩ := Option.map_eq_some_iff.mp got
    exact held c kept e (List.mem_of_find?_eq_some first)
  | none =>
    exact Consensus.aggregate_isOrdered (linesIncrease_sessionResults s.made)
      (linesIncrease_analysis prepared) (aggregate_of_consult prepared cached consulted)

private theorem isOrdered_completedReport (prepared : prepare a.settings source options = .ok p)
    {view : Aggregate} (ordered : view.IsOrdered) (o : Occasion) (elapsed : Nat) :
    (completedReport a.settings o options p view elapsed).IsOrdered := by
  refine ⟨fun f member => ?_, ordered.contributions_increase⟩
  have merge := Consensus.isMerge_of_mem_merged ((finalFindings_perm view _).subset member)
  have lines : LinesIncrease (lastRound view p.analysis.findings) := by
    have listed : LinesIncrease (listedOf view) := fun g inside =>
      ordered.lines_increase g ((listedOf_sublist view).subset inside)
    exact listed.append (linesIncrease_analysis prepared)
  exact merge.isOrdered fun g inside => lines g (List.mem_filter.mp inside).1

theorem runsInOrder_runSource (held : HoldsOrdered s) (a : Auditor) (o : Occasion) (source : String)
    (options : AuditOptions) : RunsInOrder o (a.runSource o source options s) := by
  constructor
  · intro r completed
    obtain ⟨p, view, elapsed, prepared, consulted, rfl⟩ := runSource_ok (Prod.ext completed rfl)
    have ordered := isOrdered_of_consult prepared held (congrArg Prod.fst consulted)
    exact ⟨isOrdered_completedReport prepared ordered o elapsed, rfl, rfl⟩
  · intro c' after e member
    cases cache : s.cache with
    | none =>
      rw [runSource_cache_none cache] at after
      cases after
    | some c =>
      let x : SourceAudit := ⟨o, source, options⟩
      obtain ⟨c'', after', step⟩ := SourceAudit.step_runSource (x := x) (a := a) cache
      cases after.symm.trans after'
      rcases step.origin e member with old | added
      · exact held c cache e old
      · -- What came in is the view of this very audit.
        have own := added.view
        cases prepared : prepare a.settings source options with
        | error f => simp [SourceAudit.view?, x, prepared] at own
        | ok p =>
          obtain ⟨elapsed, consulted⟩ :=
            (SourceAudit.view?_eq_some_iff (x := x) prepared).mp own
          exact isOrdered_of_consult prepared held consulted

private theorem runsInOrder_runFetched (held : HoldsOrdered s) (a : Auditor) (o : Occasion)
    (address chain : String) (options : AuditOptions) (fetched : FetchedContract) :
    RunsInOrder o (a.runFetched o address chain options fetched s) := by
  unfold runFetched
  split
  · refine ⟨fun r completed => ?_, held⟩
    simp only [Ending.map_eq_ok_iff, Ending.ofExcept_eq_ok_iff] at completed
    obtain ⟨bare, completed, rfl⟩ := completed
    unfold bytecodeReport at completed
    cases scanned : Bytecode.scan fetched.bytecode with
    | error e => simp [scanned, bind, Except.bind] at completed
    | ok scan =>
      simp only [scanned, bind, Except.bind] at completed
      split at completed
      · cases completed
      · cases completed
        have range :=
          AuditReport.inRange_bare o.auditId .bytecodeOnly bytecodeOnlyScore .medium o.time
        exact ⟨⟨range.findings, range.contributions_increase⟩, rfl, rfl⟩
  · next source _ =>
    obtain ⟨report, holds⟩ :=
      runsInOrder_runSource held a o source { options with chain := some chain }
    refine ⟨fun r completed => ?_, holds⟩
    obtain ⟨made, outcome, rfl⟩ := Ending.map_eq_ok_iff.mp completed
    obtain ⟨⟨findings, contributions⟩, id, time⟩ := report made outcome
    exact ⟨⟨findings, contributions⟩, id, time⟩

theorem runsInOrder_runAddress (held : HoldsOrdered s) (a : Auditor) (o : Occasion)
    (address chain : String) (options : AuditOptions) :
    RunsInOrder o (a.runAddress o address chain options s) := by
  unfold runAddress
  split
  · exact .of_failure _ held
  split
  · exact .of_failure _ held
  split
  · exact .of_failure _ held
  · exact runsInOrder_runFetched (s := { s with fetches := s.fetches + 1 }) held a o address chain
      options _

end Auditor

end AuditPanel
