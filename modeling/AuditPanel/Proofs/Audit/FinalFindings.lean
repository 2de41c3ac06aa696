import AuditPanel.Audit.Engine
import AuditPanel.Proofs.Consensus.Aggregate
import AuditPanel.Proofs.Consensus.Scores

/-!
The findings of a report: what the last merge makes of the panel's view and the static findings. The
view has taken up every static finding before, so the scanner's own copies change nothing; they only
bring back the static findings under the confidence floor.
-/

set_option autoImplicit false

namespace AuditPanel.Auditor

open Consensus

/-- What the last merge works on: the findings the panel kept, its static ones under the floor, and
those of the scanner. -/
def lastRound (view : Aggregate) (statics : List Finding) : List Finding :=
  view.findings ++ view.lowConfidence.filter Finding.isStatic ++ statics

theorem finalFindings_perm (view : Aggregate) (statics : List Finding) :
    (finalFindings view statics).Perm (merged (lastRound view statics)) :=
  sortFindings_perm _

theorem mem_lastRound_of_static {view : Aggregate} {statics : List Finding} {f : Finding}
    (h : f ∈ statics) :
    f ∈ lastRound view statics :=
  List.mem_append_right _ h

theorem exists_filter_finalFindings {view : Aggregate} {statics : List Finding} {f : Finding}
    (h : f ∈ lastRound view statics) :
    ∃ m, (finalFindings view statics).filter (·.key = f.key) = [m] ∧
      IsMerge ((lastRound view statics).filter (·.key = f.key)) m := by
  obtain ⟨m, only, merge⟩ := exists_filter_merged (List.mem_map.mpr ⟨f, h, rfl⟩)
  refine ⟨m, ?_, merge⟩
  have same := (finalFindings_perm view statics).filter (·.key = f.key)
  rw [only] at same
  exact List.perm_singleton.mp same

/-- The findings of a view that a report lists: those the panel kept and the static ones under the
floor. -/
def listedOf (view : Aggregate) : List Finding :=
  view.findings ++ view.lowConfidence.filter Finding.isStatic

section View

variable {results : List ReviewResult} {statics : List Finding} {c : Source.Characteristics}
  {rules : ScoringRules} {view : Aggregate}

theorem listedOf_sublist (view : Aggregate) :
    (listedOf view).Sublist (view.findings ++ view.lowConfidence) :=
  List.filter_sublist.append_left _

private theorem mem_scoredFindings_of_listed
    (aggregated : aggregate results statics c rules = .ok view) {v : Finding}
    (h : v ∈ listedOf view) : v ∈ scoredFindings (reviewsOf results) statics :=
  (findings_append_lowConfidence_perm aggregated).subset ((listedOf_sublist view).subset h)

private theorem listedOf_keys_nodup (aggregated : aggregate results statics c rules = .ok view) :
    ((listedOf view).map Finding.key).Nodup := by
  refine ((listedOf_sublist view).map Finding.key).nodup ?_
  refine ((findings_append_lowConfidence_perm aggregated).map Finding.key).symm.nodup ?_
  rw [scoredFindings_keys]
  exact merged_keys_nodup _

private theorem exists_listed_of_static (aggregated : aggregate results statics c rules = .ok view)
    {f : Finding}
    (hf : f ∈ statics) (sources : f.detectedBy = [staticSource]) :
    ∃ v ∈ listedOf view, v.key = f.key := by
  have taken : f.key ∈ (scoredFindings (reviewsOf results) statics).map Finding.key := by
    rw [scoredFindings_keys, mem_merged_keys]
    exact List.mem_map.mpr ⟨f, List.mem_append_right _ hf, rfl⟩
  obtain ⟨v, hv, keyed⟩ := List.mem_map.mp taken
  have member : f ∈ (candidates (reviewsOf results) ++ statics).filter (·.key = v.key) :=
    List.mem_filter.mpr ⟨List.mem_append_right _ hf, by simp [keyed]⟩
  have static : v.isStatic = true := by
    refine List.elem_eq_true_of_mem ?_
    exact (isMerge_of_mem_scoredFindings hv).mem_detectedBy_of_mem member (by simp [sources])
  refine ⟨v, ?_, keyed⟩
  rcases List.mem_append.mp ((findings_append_lowConfidence_perm aggregated).symm.subset hv) with
    kept | low
  · exact List.mem_append_left _ kept
  · exact List.mem_append_right _ (List.mem_filter.mpr ⟨low, static⟩)

/-- Of the listed findings only `v` has its key, so what else the last merge groups with it comes
from the scanner. -/
private theorem eq_or_static_of_mem_group
    (aggregated : aggregate results statics c rules = .ok view) {v f : Finding}
    (hv : v ∈ listedOf view) (hf : f ∈ (lastRound view statics).filter (·.key = v.key)) :
    f = v ∨ (f ∈ statics ∧ f.key = v.key) := by
  obtain ⟨member, same⟩ := List.mem_filter.mp hf
  rw [decide_eq_true_iff] at same
  rcases List.mem_append.mp member with listed | static
  · left
    exact List.inj_on_of_nodup_map (listedOf_keys_nodup aggregated) listed hv same
  · right
    exact ⟨static, same⟩

private theorem mem_group_of_listed (statics : List Finding) {v : Finding}
    (hv : v ∈ listedOf view) :
    v ∈ (lastRound view statics).filter (·.key = v.key) := by
  apply List.mem_filter.mpr
  exact ⟨List.mem_append_left _ hv, decide_eq_true rfl⟩

private theorem isMerge_lastRound (aggregated : aggregate results statics c rules = .ok view)
    {v : Finding}
    (hv : v ∈ listedOf view) : IsMerge ((lastRound view statics).filter (·.key = v.key)) v := by
  have before : IsMerge ((candidates (reviewsOf results) ++ statics).filter (·.key = v.key)) v :=
    isMerge_of_mem_scoredFindings (mem_scoredFindings_of_listed aggregated hv)
  apply before.absorbs (mem_group_of_listed statics hv)
  intro f hf
  rcases eq_or_static_of_mem_group aggregated hv hf with same | ⟨static, same⟩
  · exact .inl same
  · right
    exact List.mem_filter.mpr ⟨List.mem_append_right _ static, decide_eq_true same⟩

private theorem eq_of_mem_lastRound (aggregated : aggregate results statics c rules = .ok view)
    (raw : ∀ f ∈ statics, f.consensus = 0.0 ∧ f.finalConfidence = 0.0) {v m : Finding}
    (hv : v ∈ listedOf view)
    (hm : m ∈ merged (lastRound view statics)) (keyed : m.key = v.key) : m = v := by
  obtain ⟨first, rest, made, perm⟩ := exists_mergeGroup_of_mem_merged hm
  rw [keyed] at perm
  have told : m.unscored = v.unscored := by
    have merge : IsMerge (first :: rest) m := made ▸ isMerge_mergeGroup first rest
    exact (merge.of_perm perm).unscored_eq (isMerge_lastRound aggregated hv) key_of_mem_filter
  have kept {score : Finding → Float}
    (absorbs : ∀ a b, score (absorb a b) = greater (score a) (score b))
      (amount : Double.Amount (score v)) (none : ∀ f ∈ statics, score f = 0.0) : score m =
        score v := by
    rw [made]
    apply score_mergeGroup absorbs amount
    · intro f hf
      rcases eq_or_static_of_mem_group aggregated hv (perm.subset hf) with same | ⟨static, -⟩
      · exact .inl (congrArg score same)
      · exact .inr (none f static)
    · exact ⟨v, perm.symm.subset (mem_group_of_listed statics hv), rfl⟩
  have amounts := amount_of_mem_scoredFindings (mem_scoredFindings_of_listed aggregated hv)
  apply Finding.eq_of_unscored_eq told
  · exact kept (fun _ _ => rfl) amounts.1 fun f hf => (raw f hf).1
  · exact kept (fun _ _ => rfl) amounts.2 fun f hf => (raw f hf).2

private theorem mem_merged_lastRound_iff (aggregated : aggregate results statics c rules = .ok view)
    (sources : ∀ f ∈ statics, f.detectedBy = [staticSource])
    (raw : ∀ f ∈ statics, f.consensus = 0.0 ∧ f.finalConfidence = 0.0) (v : Finding) :
    v ∈ merged (lastRound view statics) ↔ v ∈ listedOf view := by
  constructor
  · intro hm
    have keyed : v.key ∈ (lastRound view statics).map Finding.key :=
      mem_merged_keys.mp (List.mem_map.mpr ⟨v, hm, rfl⟩)
    obtain ⟨f, hf, same⟩ := List.mem_map.mp keyed
    obtain ⟨listed, hl, key⟩ : ∃ listed ∈ listedOf view, listed.key = f.key := by
      rcases List.mem_append.mp hf with listed | static
      · exact ⟨f, listed, rfl⟩
      · exact exists_listed_of_static aggregated static (sources f static)
    rw [eq_of_mem_lastRound aggregated raw hl hm (same.symm.trans key.symm)]
    exact hl
  · intro hv
    have keyed : v.key ∈ (merged (lastRound view statics)).map Finding.key :=
      mem_merged_keys.mpr (List.mem_map.mpr ⟨v, List.mem_append_left _ hv, rfl⟩)
    obtain ⟨m, hm, same⟩ := List.mem_map.mp keyed
    exact eq_of_mem_lastRound aggregated raw hv hm same ▸ hm

end View

/-- The last merge lists the findings that the panel kept and its static ones under the floor, each
as the panel left it, scores included. -/
theorem finalFindings_perm_view (results : List ReviewResult) (statics : List Finding)
    (c : Source.Characteristics)
    (rules : ScoringRules) (view : Aggregate)
    (aggregated : aggregate results statics c rules = .ok view)
    (sources : ∀ f ∈ statics, f.detectedBy = [staticSource])
    (raw : ∀ f ∈ statics, f.consensus = 0.0 ∧ f.finalConfidence = 0.0) :
    (finalFindings view statics).Perm
      (view.findings ++ view.lowConfidence.filter Finding.isStatic) := by
  refine (finalFindings_perm view statics).trans ?_
  refine (List.perm_ext_iff_of_nodup (merged_keys_nodup _).of_map
    (listedOf_keys_nodup aggregated).of_map).mpr ?_
  exact mem_merged_lastRound_iff aggregated sources raw

/-- Every rule of the scanner hits one line, of which the only report says nothing. -/
theorem finalFindings_perm_neutral :
    let statics := Source.ruleTable.map fun r => r.finding .low 1 []
    ∃ view, aggregate [.succeeded (.neutral .security) 0 default] statics default .standard =
      .ok view ∧
      (finalFindings view statics).Perm
        (view.findings ++ view.lowConfidence.filter Finding.isStatic) := by
  intro statics
  have reported : reviewsOf [.succeeded (.neutral .security) 0 default] ≠ [] := by
    simp [reviewsOf, inPanelOrder, successfulReview?, ReviewResult.succeeded]
  obtain ⟨view, aggregated⟩ := aggregate_completes statics default .standard reported
  refine ⟨view, aggregated, finalFindings_perm_view _ statics _ _ view aggregated ?_ ?_⟩
  · intro f hf
    obtain ⟨r, -, rfl⟩ := List.mem_map.mp hf
    rfl
  · intro f hf
    obtain ⟨r, -, rfl⟩ := List.mem_map.mp hf
    exact ⟨rfl, rfl⟩

end AuditPanel.Auditor
