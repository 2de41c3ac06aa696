import AuditPanel.Proofs.Audit.OrderedReport
import AuditPanel.Proofs.Panel.Isolation
import AuditPanel.Proofs.Review.Selection

/-!
Who is credited in a report. Nobody is chosen twice, a session has one result for each of those
chosen, and its view credits each of them with the findings of the answer, or with none for a
failure.
-/

set_option autoImplicit false

namespace AuditPanel

/-- How a result counts: as nothing for a failure, and else by the findings in the answer as it is
read. -/
def ReviewResult.CountsAs (result : ReviewResult) (n : Nat) : Prop :=
  result.success = false ∧ n = 0 ∨
    result.success = true ∧ ∃ text, result.review = some (Review.normalize text result.reviewer) ∧
      n = (Review.normalize text result.reviewer).findings.length

/-- Contributions that name each chosen reviewer once, with what the one result of that reviewer
counts. -/
structure IsCredited (chosen : List Reviewer) (results : List ReviewResult)
    (contributions : List (String × Nat)) :
    Prop where
  reviewers : (results.map (·.reviewer)).Perm chosen
  names : (contributions.map (·.1)).Perm (chosen.map Reviewer.name)
  nodup : (contributions.map (·.1)).Nodup
  credit : ∀ r ∈ results, ∃ n, (r.reviewer.name, n) ∈ contributions ∧ r.CountsAs n

namespace Session

variable {b : Brief} {panel : Panel} {made : Requests} {chosen : List Reviewer}

private theorem countsAs_of_mem_run {result : ReviewResult}
    (member : result ∈ (run b panel made chosen).results) :
    result.CountsAs result.findingCount := by
  have success := (run_results_wellFormed result member).review
  have brought := review_of_mem_run member
  unfold ReviewResult.findingCount
  cases given : result.review with
  | none => exact .inl ⟨by simpa [given] using success.symm, rfl⟩
  | some review =>
    obtain ⟨text, rfl⟩ := exists_normalize_of_ownReview? (brought.symm.trans given)
    exact .inr ⟨by simpa [given] using success.symm, text, given, rfl⟩

end Session

namespace Consensus

theorem mem_lastByName {xs : List (String × Nat)} (distinct : (xs.map (·.1)).Nodup)
    {m : String × Nat} :
    m ∈ lastByName xs ↔ m ∈ xs := by
  rw [lastByName, List.mem_filterMap]
  constructor
  · rintro ⟨name, -, given⟩
    obtain ⟨own, found, rfl⟩ := Option.map_eq_some_iff.mp given
    have named : own.1 = name := by simpa using List.find?_some found
    rw [← named]
    exact List.mem_reverse.mp (List.mem_of_find?_eq_some found)
  · intro member
    refine ⟨m.1, (Ordered.mem_strings _ _).mpr (List.mem_map_of_mem member), ?_⟩
    cases found : xs.reverse.find? fun other => decide (other.1 = m.1) with
    | none => simpa using List.find?_eq_none.mp found m (List.mem_reverse.mpr member)
    | some own =>
      have named : own.1 = m.1 := by simpa using List.find?_some found
      have held := List.mem_reverse.mp (List.mem_of_find?_eq_some found)
      rw [List.inj_on_of_nodup_map distinct held member named, Option.map_some]

private theorem lastByName_perm {xs : List (String × Nat)} (distinct : (xs.map (·.1)).Nodup) :
    (lastByName xs).Perm xs := by
  have increase := lastByName_pairwise xs
  have different : (lastByName xs).Nodup := increase.imp fun below same =>
    (ne_of_lt below) (congrArg Prod.fst same)
  exact (List.perm_ext_iff_of_nodup different distinct.of_map).mpr fun m => mem_lastByName distinct

theorem aggregate_contributions {results : List ReviewResult} {statics : List Finding}
    {c : Source.Characteristics}
    {rules : ScoringRules} {view : Aggregate}
    (aggregated : aggregate results statics c rules = .ok view) :
    view.contributions =
      lastByName ((inPanelOrder results).map fun r => (r.reviewer.name, r.findingCount)) := by
  obtain ⟨-, rfl⟩ := aggregate_eq_ok_iff.mp aggregated
  rfl

theorem isCredited_of_aggregate {b : Session.Brief} {panel : Panel} {made : Requests}
    {chosen : List Reviewer}
    (distinct : chosen.Nodup) {statics : List Finding} {c : Source.Characteristics}
    {rules : ScoringRules} {view : Aggregate}
    (aggregated : aggregate (Session.run b panel made chosen).results statics c rules = .ok view) :
    IsCredited chosen (Session.run b panel made chosen).results view.contributions := by
  set results := (Session.run b panel made chosen).results with session
  have reviewers : (results.map (·.reviewer)).Perm chosen := Session.run_results_perm distinct
  have ordered : (inPanelOrder results).Perm results := List.mergeSort_perm _ _
  have counted :
    (((inPanelOrder results).map fun r => (r.reviewer.name, r.findingCount)).map (·.1)).Perm
      (chosen.map Reviewer.name) := by
    have named := ((ordered.map (·.reviewer)).trans reviewers).map Reviewer.name
    rwa [List.map_map] at named ⊢
  have names : (chosen.map Reviewer.name).Nodup := distinct.map fun _ _ => name_injective
  have kept := lastByName_perm (counted.symm.nodup names)
  rw [← aggregate_contributions aggregated] at kept
  exact
    { reviewers := reviewers
      names := (kept.map (·.1)).trans counted
      nodup := ((kept.map (·.1)).trans counted).symm.nodup names
      credit := fun r member => ⟨r.findingCount,
        kept.symm.subset (List.mem_map.mpr ⟨r, ordered.symm.subset member, rfl⟩),
        Session.countsAs_of_mem_run member⟩ }

end Consensus

end AuditPanel
