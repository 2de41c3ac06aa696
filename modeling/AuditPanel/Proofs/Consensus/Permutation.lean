import AuditPanel.Proofs.Consensus.Aggregate
import Mathlib.Data.List.Perm.Basic

/-!
The panel's view does not depend on the order in which anything arrives: results are put in the
order of the panel, merging does not see the order of the findings, and what else a report says is
taken report by report.
-/

set_option autoImplicit false

namespace AuditPanel

theorem Reviewer.eq_of_priority_eq {r r' : Reviewer} (h : r.priority = r'.priority) : r = r' := by
  cases r <;> cases r' <;> first | rfl | cases h

/-- A report with the findings of another in some other order. -/
def Review.Rearranged (a a' : Review) : Prop :=
  ∃ findings, a.findings.Perm findings ∧ a' = { a with findings := findings }

/-- A result with the report of another rearranged. -/
def ReviewResult.Rearranged (r r' : ReviewResult) : Prop :=
  r' = { r with review := r'.review } ∧ Option.Rel Review.Rearranged r.review r'.review

def Review.bare (a : Review) : Review :=
  { a with findings := [] }

private theorem Review.Rearranged.bare_eq {a a' : Review} (h : a.Rearranged a') :
    a.bare = a'.bare := by
  obtain ⟨findings, -, rfl⟩ := h
  rfl

namespace Consensus

open List (Forall₂)

/-- Results in another order, with rearranged reports. -/
def Shuffled (results results' : List ReviewResult) : Prop :=
  ∃ moved, results.Perm moved ∧ Forall₂ ReviewResult.Rearranged moved results'

private theorem map_eq_of_forall₂ {α β : Type} {r : α → α → Prop} {f : α → β}
    (same : ∀ a a', r a a' → f a = f a')
    {xs ys : List α} (h : Forall₂ r xs ys) : xs.map f = ys.map f := by
  induction h with
  | nil => rfl
  | cons first _ ih => rw [List.map_cons, List.map_cons, same _ _ first, ih]

theorem inPanelOrder_pairwise (results : List ReviewResult) :
    (inPanelOrder results).Pairwise fun a b => a.reviewer.priority ≤ b.reviewer.priority := by
  exact List.pairwise_mergeSort'
    (fun a b : ReviewResult => a.reviewer.priority ≤ b.reviewer.priority) results

theorem inPanelOrder_eq_of_perm {results sorted : List ReviewResult}
    (distinct : (results.map (·.reviewer)).Nodup)
    (perm : sorted.Perm results)
    (ordered : sorted.Pairwise fun a b => a.reviewer.priority ≤ b.reviewer.priority) :
    sorted = inPanelOrder results := by
  have sortedPerm : (inPanelOrder results).Perm results := List.mergeSort_perm _ _
  refine (perm.trans sortedPerm.symm).eq_of_pairwise ?_ ordered (inPanelOrder_pairwise results)
  intro a b ha hb below above
  exact List.inj_on_of_nodup_map distinct (perm.subset ha) (sortedPerm.subset hb)
    (Reviewer.eq_of_priority_eq (Nat.le_antisymm below above))

private theorem inPanelOrder_rearranged {results results' : List ReviewResult}
    (distinct : (results.map (·.reviewer)).Nodup) (shuffled : Shuffled results results') :
    Forall₂ ReviewResult.Rearranged (inPanelOrder results) (inPanelOrder results') := by
  obtain ⟨moved, perm, rearranged⟩ := shuffled
  have sameReviewer (r r' : ReviewResult) (h : r.Rearranged r') : r.reviewer = r'.reviewer := by
    rw [h.1]
  obtain ⟨sorted, aligned, sortedPerm⟩ :=
    List.perm_comp_forall₂ ((List.mergeSort_perm results _).trans perm) rearranged
  have reviewers : (inPanelOrder results).map (·.reviewer) = sorted.map (·.reviewer) :=
    map_eq_of_forall₂ sameReviewer aligned
  have distinct' : (results'.map (·.reviewer)).Nodup := by
    rw [← map_eq_of_forall₂ sameReviewer rearranged]
    exact (perm.map _).nodup distinct
  have ordered : sorted.Pairwise fun a b => a.reviewer.priority ≤ b.reviewer.priority := by
    have kept := inPanelOrder_pairwise results
    have key :=
      @List.pairwise_map _ _ ReviewResult.reviewer (fun a b : Reviewer => a.priority ≤ b.priority)
    rw [← key] at kept ⊢
    rwa [← reviewers]
  rwa [← inPanelOrder_eq_of_perm distinct' sortedPerm ordered]

private theorem reviewsOf_rearranged {results results' : List ReviewResult}
    (aligned : Forall₂ ReviewResult.Rearranged (inPanelOrder results) (inPanelOrder results')) :
    Forall₂ Review.Rearranged (reviewsOf results) (reviewsOf results') := by
  refine List.rel_filterMap ?_ aligned
  intro r r' h
  obtain ⟨same, reviews⟩ := h
  rw [successfulReview?, successfulReview?, show r'.success = r.success by rw [same]]
  split
  · exact reviews
  · exact .none

private theorem candidates_perm {reviews reviews' : List Review}
    (h : Forall₂ Review.Rearranged reviews reviews') :
    (candidates reviews).Perm (candidates reviews') := by
  induction h with
  | nil => rfl
  | cons first _ ih =>
    obtain ⟨findings, perm, rfl⟩ := first
    exact (perm.map _).append ih

theorem scoredFindings_eq_of_perm {reviews reviews' : List Review} {statics statics' : List Finding}
    (reports : (candidates reviews).Perm (candidates reviews'))
    (count : reviews.length = reviews'.length)
    (perm : statics.Perm statics') :
    scoredFindings reviews statics = scoredFindings reviews' statics' := by
  have forget (n : Nat) (fs : List Finding) : fs.map (scored n) = (fs.map Finding.unscored).map
      (scored n) := by
    simp [Function.comp_def]
  rw [scoredFindings_eq, scoredFindings_eq, forget, merged_perm (reports.append perm),
    ← forget, count]

/-- What a view takes from a result besides its report. -/
def outcome (r : ReviewResult) : Reviewer × Option String × Nat × Bool :=
  (r.reviewer, r.error, r.findingCount, (successfulReview? r).isNone)

private theorem outcome_eq_of_rearranged {r r' : ReviewResult} (h : r.Rearranged r') :
    outcome r = outcome r' := by
  obtain ⟨reviewer, success, review, error, time, stamp⟩ := r
  obtain ⟨reviewer', success', review', error', time', stamp'⟩ := r'
  obtain ⟨same, reviews⟩ := h
  simp only [ReviewResult.mk.injEq] at same
  obtain ⟨rfl, rfl, -, rfl, rfl, rfl⟩ := same
  cases reviews with
  | none => rfl
  | some rearranged =>
    obtain ⟨findings, perm, rfl⟩ := rearranged
    cases success' <;> simp [outcome, ReviewResult.findingCount, successfulReview?, perm.length_eq]

section Congr

variable (reviews : List Review)

private theorem weightedScore?_bare (rules : ScoringRules) :
    weightedScore? (reviews.map Review.bare) rules = weightedScore? reviews rules := by
  simp [weightedScore?, Function.comp_def, Review.bare]

private theorem summaryOf_bare (dispatched : Nat) (kept : List Finding) (dropped : Nat)
    (c : Source.Characteristics) :
    summaryOf (reviews.map Review.bare) dispatched kept dropped c = summaryOf reviews dispatched
      kept dropped c := by
  simp only [summaryOf, List.filterMap_map, List.length_map]
  rfl

private theorem mergeQuality_bare :
    mergeQuality (reviews.map Review.bare) = mergeQuality reviews := by
  simp [mergeQuality, List.filterMap_map, List.flatMap_map, Function.comp_def, Review.bare]

variable {results results' : List ReviewResult} {statics statics' : List Finding}

/-- A view is fixed by the reports without findings, the outcomes in the order of the panel and the
scored findings. -/
private theorem aggregate_congr (c : Source.Characteristics) (rules : ScoringRules)
    (reports : (reviewsOf results).map Review.bare = (reviewsOf results').map Review.bare)
    (outcomes : (inPanelOrder results).map outcome = (inPanelOrder results').map outcome)
    (found : scoredFindings (reviewsOf results) statics = scoredFindings (reviewsOf results')
      statics') :
    aggregate results statics c rules = aggregate results' statics' c rules := by
  have count : (reviewsOf results).length = (reviewsOf results').length := by
    simpa using congrArg List.length reports
  have asked : results.length = results'.length := by
    simpa [inPanelOrder] using congrArg List.length outcomes
  have none : reviewsOf results = [] ↔ reviewsOf results' = [] := by
    rw [← List.map_eq_nil_iff (f := Review.bare), reports, List.map_eq_nil_iff]
  have base : weightedScore? (reviewsOf results) rules = weightedScore? (reviewsOf results')
      rules := by
    rw [← weightedScore?_bare, reports, weightedScore?_bare]
  have summary (dispatched : Nat) (kept : List Finding) (dropped : Nat) :
      summaryOf (reviewsOf results) dispatched kept dropped c =
        summaryOf (reviewsOf results') dispatched kept dropped c := by
    rw [← summaryOf_bare, reports, summaryOf_bare]
  have quality : mergeQuality (reviewsOf results) = mergeQuality (reviewsOf results') := by
    rw [← mergeQuality_bare, reports, mergeQuality_bare]
  have advice : (reviewsOf results).flatMap (·.recommendations) = (reviewsOf results').flatMap
      (·.recommendations) := by
    simpa [List.flatMap_map, Review.bare] using congrArg (·.flatMap Review.recommendations) reports
  have gas : (reviewsOf results).flatMap (·.gasOptimizations) = (reviewsOf results').flatMap
      (·.gasOptimizations) := by
    simpa [List.flatMap_map, Review.bare] using congrArg (·.flatMap Review.gasOptimizations) reports
  have successful : (reviewsOf results).map (·.reviewer) = (reviewsOf results').map
      (·.reviewer) := by
    simpa [Function.comp_def, Review.bare] using congrArg (·.map Review.reviewer) reports
  have counts : (inPanelOrder results).map (fun r => (r.reviewer.name, r.findingCount)) =
      (inPanelOrder results').map (fun r => (r.reviewer.name, r.findingCount)) := by
    simpa [Function.comp_def, outcome] using congrArg (·.map fun x => (x.1.name, x.2.2.1)) outcomes
  have failed : ((inPanelOrder results).filter fun r => (successfulReview? r).isNone).map
    (·.reviewer) =
      ((inPanelOrder results').filter fun r => (successfulReview? r).isNone).map (·.reviewer) := by
    simpa [List.filter_map, Function.comp_def, outcome] using
      congrArg (fun xs => (xs.filter (·.2.2.2)).map (·.1)) outcomes
  have failure : noneSucceeded (inPanelOrder results) = noneSucceeded (inPanelOrder results') := by
    have reasons := congrArg (·.map fun x => x.1.name ++ ": " ++ x.2.1.getD "no analysis") outcomes
    simp only [List.map_map, Function.comp_def, outcome] at reasons
    have length : (inPanelOrder results).length = (inPanelOrder results').length := by
      simpa using congrArg List.length outcomes
    simp only [noneSucceeded, reasons, length]
  by_cases silent : reviewsOf results = []
  · rw [aggregate_of_reviewsOf_eq_nil silent, aggregate_of_reviewsOf_eq_nil (none.mp silent),
      failure]
  · rw [aggregate_of_reviewsOf_ne_nil silent, aggregate_of_reviewsOf_ne_nil (mt none.mpr silent)]
    simp only [viewOf, found, count, asked, base, summary, quality, advice, gas, successful,
      counts, failed]

end Congr

/-- The view of results of different reviewers, or the failure to have one, does not depend on the
order of the results, of the findings in each report and of the static findings. -/
theorem aggregate_eq_of_shuffled (results results' : List ReviewResult)
    (statics statics' : List Finding)
    (c : Source.Characteristics) (rules : ScoringRules)
    (distinct : (results.map (·.reviewer)).Nodup)
    (shuffled : Shuffled results results') (perm : statics.Perm statics') :
    aggregate results statics c rules = aggregate results' statics' c rules := by
  have aligned := inPanelOrder_rearranged distinct shuffled
  have reviews := reviewsOf_rearranged aligned
  refine aggregate_congr c rules ?_ ?_ ?_
  · exact map_eq_of_forall₂ (fun _ _ h => h.bare_eq) reviews
  · exact map_eq_of_forall₂ (fun _ _ h => outcome_eq_of_rearranged h) aligned
  · exact scoredFindings_eq_of_perm (candidates_perm reviews) reviews.length_eq perm

/-- A report of two findings, a failure and two static findings, all turned round. -/
theorem aggregate_turned_round :
    let f : Finding := { (default : Finding) with name := "first" }
    let g : Finding := { (default : Finding) with name := "second" }
    let security (fs : List Finding) :=
      ReviewResult.succeeded { Review.neutral .security with findings := fs } 0 default
    let quality := ReviewResult.failed .quality "no answer" 0 default
    aggregate [security [f, g], quality] [f, g] default .standard =
      aggregate [quality, security [g, f]] [g, f] default .standard := by
  intro f g security quality
  have turned : (security [f, g]).Rearranged (security [g, f]) :=
    ⟨rfl, .some ⟨[g, f], .swap g f [], rfl⟩⟩
  have shuffled : Shuffled [security [f, g], quality] [quality, security [g, f]] :=
    ⟨[quality, security [f, g]], .swap quality _ [], .cons ⟨rfl, .none⟩ (.cons turned .nil)⟩
  exact aggregate_eq_of_shuffled _ _ _ _ default .standard (by decide) shuffled (.swap g f [])

end Consensus

end AuditPanel
