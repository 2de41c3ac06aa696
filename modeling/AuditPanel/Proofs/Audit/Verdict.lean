import AuditPanel.Proofs.Audit.StaticFindings
import AuditPanel.Proofs.Consensus.Permutation
import AuditPanel.Proofs.Consensus.Provenance

/-!
The verdict of a report rests on findings alone. What reviewers say about the contract besides their
findings, scores and risk levels included, moves the panel's view but not the verdict.
-/

set_option autoImplicit false

namespace AuditPanel

/-- What a report decides about a contract. -/
structure Verdict where
  findings : List Finding
  overallScore : Float
  riskLevel : RiskLevel
  counts : SeverityCounts
  staticFindingCount : Nat

/-- What a report decides about a contract. -/
def AuditReport.verdict (r : AuditReport) : Verdict :=
  ⟨r.findings, r.overallScore, r.riskLevel, r.counts, r.staticFindingCount⟩

namespace Consensus

/-- Whether a reviewer succeeded and reported exactly these findings. -/
def Heard (results : List ReviewResult) (x : Reviewer) (found : List Finding) : Prop :=
  ∃ r ∈ results, ∃ a, successfulReview? r = some a ∧ a.reviewer = x ∧ a.findings = found

/-- The same reviewers succeeded, each with the same findings. -/
def HeardAlike (results results' : List ReviewResult) : Prop :=
  ∀ x found, Heard results x found ↔ Heard results' x found

section Heard

variable {results results' : List ReviewResult}

private theorem mem_reviewsOf_map {x : Reviewer} {found : List Finding} :
    (x, found) ∈ (reviewsOf results).map (fun a => (a.reviewer, a.findings)) ↔
      Heard results x found := by
  simp only [List.mem_map, reviewsOf, List.mem_filterMap, inPanelOrder, List.mem_mergeSort,
    Prod.mk.injEq, Heard]
  constructor
  · rintro ⟨a, ⟨r, member, success⟩, named, same⟩
    exact ⟨r, member, a, success, named, same⟩
  · rintro ⟨r, member, a, success, named, same⟩
    exact ⟨a, ⟨r, member, success⟩, named, same⟩

private theorem reviewsOf_map_perm (wellFormed : ∀ r ∈ results, r.IsWellFormed)
    (distinct : (results.map (·.reviewer)).Nodup) (wellFormed' : ∀ r ∈ results', r.IsWellFormed)
    (distinct' : (results'.map (·.reviewer)).Nodup) (alike : HeardAlike results results') :
    ((reviewsOf results).map fun a => (a.reviewer, a.findings)).Perm
      ((reviewsOf results').map fun a => (a.reviewer, a.findings)) := by
  have nodup {rs : List ReviewResult} (h : ((reviewsOf rs).map (·.reviewer)).Nodup) :
      ((reviewsOf rs).map fun a => (a.reviewer, a.findings)).Nodup := by
    refine List.Nodup.of_map Prod.fst ?_
    simpa [Function.comp_def] using h
  refine (List.perm_ext_iff_of_nodup (nodup (reviewsOf_reviewers_nodup wellFormed distinct))
    (nodup (reviewsOf_reviewers_nodup wellFormed' distinct'))).mpr ?_
  rintro ⟨x, found⟩
  rw [mem_reviewsOf_map, mem_reviewsOf_map]
  exact alike x found

private theorem scoredFindings_eq_of_heard (statics : List Finding)
    (perm : ((reviewsOf results).map fun a => (a.reviewer, a.findings)).Perm
      ((reviewsOf results').map fun a => (a.reviewer, a.findings))) :
    scoredFindings (reviewsOf results) statics = scoredFindings (reviewsOf results') statics := by
  have reports (reviews : List Review) : candidates reviews =
      (reviews.map fun a => (a.reviewer, a.findings)).flatMap fun heard =>
        heard.2.map (candidate heard.1) := by
    simp [candidates, List.flatMap_map]
  refine scoredFindings_eq_of_perm ?_ (by simpa using perm.length_eq) (.refl statics)
  rw [reports, reports]
  exact perm.flatMap_right _

private theorem heard_run_iff {b : Session.Brief} {panel : Panel} {made : Requests}
    {chosen : List Reviewer} {x : Reviewer} {found : List Finding} :
    Heard (Session.run b panel made chosen).results x found ↔
      x ∈ chosen ∧ (Session.ownReview? b panel made chosen x).map (·.findings) = some found := by
  constructor
  · rintro ⟨r, member, review, success, rfl, rfl⟩
    obtain ⟨y, asked, brought⟩ := Session.exists_run_results_iff.mp ⟨r, member, success⟩
    rw [Session.reviewer_of_ownReview? brought]
    exact ⟨asked, by rw [brought]; rfl⟩
  · rintro ⟨asked, brought⟩
    obtain ⟨review, own, rfl⟩ := Option.map_eq_some_iff.mp brought
    obtain ⟨r, member, success⟩ := Session.exists_run_results_iff.mpr ⟨x, asked, own⟩
    exact ⟨r, member, review, success, Session.reviewer_of_ownReview? own, rfl⟩

variable {statics : List Finding} {c : Source.Characteristics} {rules : ScoringRules}
  {view view' : Aggregate}

private theorem aggregate_findings_eq_of_heard
    (perm : ((reviewsOf results).map fun a => (a.reviewer, a.findings)).Perm
      ((reviewsOf results').map fun a => (a.reviewer, a.findings)))
    (aggregated : aggregate results statics c rules = .ok view)
    (aggregated' : aggregate results' statics c rules = .ok view') :
    view.findings = view'.findings ∧ view.lowConfidence = view'.lowConfidence := by
  obtain ⟨-, -, kept, low⟩ := aggregate_ok aggregated
  obtain ⟨-, -, kept', low'⟩ := aggregate_ok aggregated'
  rw [kept, kept', low, low', scoredFindings_eq_of_heard statics perm]
  exact ⟨rfl, rfl⟩

end Heard

end Consensus

namespace Auditor

open Consensus

private theorem completedReport_verdict_eq {settings : Settings} {o o' : Occasion}
    {options : AuditOptions} {p : Preparation}
    {view view' : Aggregate} {elapsed elapsed' : Nat} (kept : view.findings = view'.findings)
    (low : view.lowConfidence = view'.lowConfidence) :
    (completedReport settings o options p view elapsed).verdict =
      (completedReport settings o' options p view' elapsed').verdict := by
  have final : finalFindings view p.analysis.findings =
      finalFindings view' p.analysis.findings := by
    rw [finalFindings, finalFindings, kept, low]
  simp only [AuditReport.verdict, completedReport, final]

/-- Two audits of a source whose reviewers report the same findings reach the same verdict, whatever
else the reviewers declare, whichever books and panels they work with, and whenever they are held.
Only when the clock cannot hold the end of life of what the other one stores, it crashes instead. -/
theorem auditSource_verdict_eq (a a' : Auditor) (o o' : Occasion) (source : String)
    (options : AuditOptions) (s s' after : AuditorState) (r : AuditReport)
    (settings : a'.settings = a.settings) (missed : cachedView? a o source options s = none)
    (missed' : cachedView? a' o' source options s' = none)
    (alike : HeardAlike (sessionResults a o source options s.made)
      (sessionResults a' o' source options s'.made))
    (completed : auditSource a o source options s = (.ok r, after)) :
    (∃ r' after', auditSource a' o' source options s' = (.ok r', after') ∧ r'.verdict = r.verdict) ∨
      (auditSource a' o' source options s').1 = .crashed ∧
        ∃ c, s'.cache = some c ∧
          ¬Clock.CanHold (o'.millis + sessionTime a' o' source options s'.made) c.lifetime := by
  obtain ⟨_, run, -⟩ := auditSource_ok completed
  obtain ⟨p, view, elapsed, prepared, consulted, rfl⟩ := runSource_ok run
  have prepared' : prepare a'.settings source options = .ok p := settings ▸ prepared
  have aggregated := aggregate_of_consult prepared missed (congrArg Prod.fst consulted)
  have perm := reviewsOf_map_perm (sessionResults_wellFormed s.made) (sessionResults_nodup s.made)
    (sessionResults_wellFormed s'.made) (sessionResults_nodup s'.made) alike
  have answered' : reviewsOf (sessionResults a' o' source options s'.made) ≠ [] := by
    have answered := (aggregate_ok aggregated).1
    intro none
    rw [none] at perm
    exact answered (by simpa using perm.eq_nil)
  obtain ⟨view', aggregated'⟩ := aggregate_completes p.analysis.findings p.characteristics
    a'.settings.scoring answered'
  rcases consult_missed prepared' missed' aggregated' with ⟨-, consulted'⟩ | ⟨unstorable, crashed⟩
  · obtain ⟨after', completed'⟩ := auditSource_of_consult prepared' consulted'
    rw [settings] at aggregated'
    obtain ⟨kept, low⟩ := aggregate_findings_eq_of_heard perm aggregated aggregated'
    refine .inl ⟨_, after', completed', ?_⟩
    rw [settings]
    exact (completedReport_verdict_eq kept low).symm
  · simp only [Storable, not_forall] at unstorable
    obtain ⟨-, c, held, late⟩ := unstorable
    refine .inr ⟨?_, c, held, late⟩
    rw [auditSource, runSource_of_prepare prepared', crashed]
    rfl

/-- Whether a session asks one reviewer alone, who reports no finding. -/
def isQuiet (a : Auditor) (o : Occasion) (source : String) (options : AuditOptions) (x : Reviewer) :
    Bool :=
  match prepare a.settings source options with
  | .error _ => false
  | .ok p =>
    p.reviewers = [x] ∧
      (Session.ownReview? (sessionBrief a source options p o.time) a.panel .none p.reviewers x).map
        (·.findings.isEmpty) = some true

private theorem heard_iff_of_isQuiet {a : Auditor} {o : Occasion} {source : String}
    {options : AuditOptions} {x : Reviewer} (quiet : isQuiet a o source options x)
    (timely : Clock.CanHold o.millis a.settings.globalTimeout) (y : Reviewer)
    (found : List Finding) : Heard (sessionResults a o source options .none) y found ↔ y = x ∧
    found = [] := by
  unfold isQuiet at quiet
  split at quiet
  · cases quiet
  · next p prepared =>
    obtain ⟨asked, brought⟩ := of_decide_eq_true quiet
    obtain ⟨review, own, none⟩ := Option.map_eq_some_iff.mp brought
    rw [sessionResults_of_session? (session?_eq_run prepared timely _), heard_run_iff, asked,
      List.mem_singleton]
    refine and_congr_right ?_
    rintro rfl
    rw [← asked, own, Option.map_some, Option.some.injEq, List.isEmpty_iff.mp none, eq_comm]

/-- An engine all of whose reviewers declare the best score. -/
def lenient : Auditor :=
  { terse with panel := ⟨fun _ _ _ => .answer 0 "\x7b\"score\": 100\x7d", fun _ _ => .zero⟩ }

/-- An engine all of whose reviewers declare the worst score. -/
def harsh : Auditor :=
  { terse with panel := ⟨fun _ _ _ => .answer 0 "\x7b\"score\": 0\x7d", fun _ _ => .zero⟩ }

/-- The best and the worst score lead to one verdict on a contract that can be destroyed. -/
theorem harsh_verdict_eq_lenient :
    let options : AuditOptions := ⟨none, .fast, some ["security"]⟩
    ∃ r r' after after',
      auditSource lenient ⟨"1", default⟩ destructible options (.initial lenient.settings) =
        (.ok r, after) ∧
        auditSource harsh ⟨"2", default⟩ destructible options (.initial harsh.settings) =
          (.ok r', after') ∧ r'.verdict = r.verdict := by
  intro options
  have answered : isAnswered lenient ⟨"1", default⟩ destructible options .none = true := by
    decide +kernel
  have quiet : isQuiet lenient ⟨"1", default⟩ destructible options .security = true := by
    decide +kernel
  have quiet' : isQuiet harsh ⟨"2", default⟩ destructible options .security = true := by
    decide +kernel
  have missed (a : Auditor) (o : Occasion) : cachedView? a o destructible options
      (.initial terse.settings) = none :=
    cachedView?_of_cache_eq_none rfl
  have timely : Clock.CanHold (default : Instant).millis lenient.settings.globalTimeout := by
    decide
  obtain ⟨r, after, completed⟩ :=
    auditSource_initial_completes answered (by decide)
  have alike : HeardAlike (sessionResults lenient ⟨"1", default⟩ destructible options .none)
      (sessionResults harsh ⟨"2", default⟩ destructible options .none) := by
    intro x found
    rw [heard_iff_of_isQuiet quiet timely, heard_iff_of_isQuiet quiet' timely]
  rcases auditSource_verdict_eq lenient harsh ⟨"1", default⟩ ⟨"2", default⟩ destructible options
    (.initial lenient.settings) (.initial harsh.settings) after r rfl (missed _ _)
      (missed _ _) alike completed with ⟨r', after', completed', same⟩ | ⟨-, c, held, -⟩
  · exact ⟨r, r', after, after', completed, completed', same⟩
  · cases held

end Auditor

end AuditPanel
