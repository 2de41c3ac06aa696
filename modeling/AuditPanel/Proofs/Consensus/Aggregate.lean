import AuditPanel.Consensus.Aggregate
import AuditPanel.Proofs.Consensus.Merge

/-!
What a panel's view is made of: the merged candidates and static findings, each with its scores,
split at the confidence floor.
-/

set_option autoImplicit false

namespace AuditPanel.Consensus

@[simp] theorem scored_unscored (n : Nat) (f : Finding) : scored n f.unscored = scored n f := rfl

@[simp] theorem key_scored (n : Nat) (f : Finding) : (scored n f).key = f.key := rfl

theorem sortFindings_perm (fs : List Finding) : (sortFindings fs).Perm fs :=
  List.mergeSort_perm _ _

theorem sortFindings_nil : sortFindings [] = [] :=
  List.mergeSort_nil

def candidates (reviews : List Review) : List Finding :=
  reviews.flatMap fun a => a.findings.map (candidate a.reviewer)

theorem scoredFindings_eq (reviews : List Review) (statics : List Finding) :
    scoredFindings reviews statics =
      (merged (candidates reviews ++ statics)).map (scored (reviews.length + 1)) := by
  simp [scoredFindings, merged, candidates, Function.comp_def]

theorem scoredFindings_keys (reviews : List Review) (statics : List Finding) :
    (scoredFindings reviews statics).map Finding.key = (merged (candidates reviews ++ statics)).map
      Finding.key := by
  simp [scoredFindings_eq, Function.comp_def]

private theorem isMerge_scored {group : List Finding} {m : Finding} (n : Nat)
    (h : IsMerge group m) :
    IsMerge group (scored n m) where
  narrative := h.narrative
  increasing := h.increasing
  sources := h.sources
  severity_le := h.severity_le
  confidence_le := h.confidence_le

theorem isMerge_of_mem_scoredFindings {reviews : List Review} {statics : List Finding} {f : Finding}
    (h : f ∈ scoredFindings reviews statics) :
    IsMerge ((candidates reviews ++ statics).filter (·.key = f.key)) f := by
  rw [scoredFindings_eq] at h
  obtain ⟨m, hm, rfl⟩ := List.mem_map.mp h
  exact isMerge_scored _ (isMerge_of_mem_merged hm)

/-- The reports of the results that succeeded, in the order of the panel. -/
def reviewsOf (results : List ReviewResult) : List Review :=
  (inPanelOrder results).filterMap successfulReview?

section View

variable {results : List ReviewResult} {statics : List Finding} {c : Source.Characteristics}
  {rules : ScoringRules} {view : Aggregate}

/-- The view of a panel that has a report. -/
def viewOf (results : List ReviewResult) (statics : List Finding) (c : Source.Characteristics)
    (rules : ScoringRules) :
    Aggregate :=
  let reviews := reviewsOf results
  let all := scoredFindings reviews statics
  let kept := sortFindings (all.filter fun f => !decide (f.finalConfidence < rules.minConfidence))
  let low := sortFindings (all.filter fun f => f.finalConfidence < rules.minConfidence)
  let score :=
    deductedScore ((weightedScore? reviews rules).getD Review.defaultScore) kept rules.penalties
  { findings := kept
    lowConfidence := low
    overallScore := score
    riskLevel := riskLevel score kept rules.thresholds
    confidenceScore := coverageScore reviews.length results.length kept
    summary := summaryOf reviews results.length kept low.length c
    recommendations := dedupText (reviews.flatMap (·.recommendations))
    gasOptimizations := dedupText (reviews.flatMap (·.gasOptimizations))
    codeQuality := mergeQuality reviews
    contributions :=
      lastByName ((inPanelOrder results).map fun r => (r.reviewer.name, r.findingCount))
    successful := reviews.map (·.reviewer)
    failed := ((inPanelOrder results).filter fun r => (successfulReview? r).isNone).map (·.reviewer)
    possibleSources := reviews.length + 1 }

theorem aggregate_of_reviewsOf_eq_nil (silent : reviewsOf results = []) :
    aggregate results statics c rules = .error (noneSucceeded (inPanelOrder results)) := by
  have none : ((inPanelOrder results).filterMap successfulReview?).isEmpty = true :=
    List.isEmpty_iff.mpr silent
  simp only [aggregate, none, if_true]

theorem aggregate_of_reviewsOf_ne_nil (answered : reviewsOf results ≠ []) :
    aggregate results statics c rules = .ok (viewOf results statics c rules) := by
  have some' : ((inPanelOrder results).filterMap successfulReview?).isEmpty = false := by
    simpa [reviewsOf] using answered
  simp only [aggregate, some', Bool.false_eq_true, if_false, List.partition_eq_filter_filter]
  rfl

theorem aggregate_eq_ok_iff :
    aggregate results statics c rules = .ok view ↔ reviewsOf results ≠ [] ∧
      viewOf results statics c rules = view := by
  by_cases silent : reviewsOf results = []
  · simp [aggregate_of_reviewsOf_eq_nil silent, silent]
  · simp [aggregate_of_reviewsOf_ne_nil silent, silent]

theorem aggregate_ok (h : aggregate results statics c rules = .ok view) :
    reviewsOf results ≠ [] ∧ view.possibleSources = (reviewsOf results).length + 1 ∧
      view.findings = sortFindings ((scoredFindings (reviewsOf results) statics).filter
        fun f => !decide (f.finalConfidence < rules.minConfidence)) ∧
      view.lowConfidence = sortFindings ((scoredFindings (reviewsOf results) statics).filter
        fun f => f.finalConfidence < rules.minConfidence) := by
  obtain ⟨answered, rfl⟩ := aggregate_eq_ok_iff.mp h
  exact ⟨answered, rfl, rfl, rfl⟩

theorem aggregate_completes (statics : List Finding) (c : Source.Characteristics)
    (rules : ScoringRules)
    (answered : reviewsOf results ≠ []) : ∃ view, aggregate results statics c rules = .ok view :=
  ⟨_, aggregate_of_reviewsOf_ne_nil answered⟩

theorem aggregate_failed_eq_nil_iff (h : aggregate results statics c rules = .ok view) :
    view.failed = [] ↔ ∀ r ∈ results, (successfulReview? r).isSome := by
  obtain ⟨-, rfl⟩ := aggregate_eq_ok_iff.mp h
  simp [viewOf, inPanelOrder, Option.isSome_iff_ne_none]

theorem aggregate_quality (h : aggregate results statics c rules = .ok view) :
    view.codeQuality = mergeQuality (reviewsOf results) ∧
      view.confidenceScore = coverageScore (reviewsOf results).length results.length
        view.findings := by
  obtain ⟨-, rfl⟩ := aggregate_eq_ok_iff.mp h
  exact ⟨rfl, rfl⟩

theorem aggregate_findings_eq_nil (h : aggregate results [] c rules = .ok view)
    (quiet : ∀ a ∈ reviewsOf results, a.findings = []) :
    view.findings = [] ∧ view.lowConfidence = [] := by
  have none : candidates (reviewsOf results) ++ [] = [] := by
    rw [List.append_nil, candidates, List.flatMap_eq_nil_iff]
    intro a member
    rw [quiet a member, List.map_nil]
  obtain ⟨-, -, kept, low⟩ := aggregate_ok h
  rw [kept, low, scoredFindings_eq, none, merged_nil]
  exact ⟨sortFindings_nil, sortFindings_nil⟩

theorem findings_append_lowConfidence_perm (h : aggregate results statics c rules = .ok view) :
    (view.findings ++ view.lowConfidence).Perm (scoredFindings (reviewsOf results) statics) := by
  obtain ⟨-, -, kept, low⟩ := aggregate_ok h
  rw [kept, low]
  refine ((sortFindings_perm _).append (sortFindings_perm _)).trans ?_
  refine List.perm_append_comm.trans ?_
  exact List.filter_append_perm _ _

end View

end AuditPanel.Consensus
