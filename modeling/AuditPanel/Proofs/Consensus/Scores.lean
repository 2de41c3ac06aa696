import AuditPanel.Proofs.Consensus.Aggregate
import AuditPanel.Proofs.Double

/-!
The scores of findings are finite and have no minus sign, whatever is scored. So a merge with
findings that have no scores yet keeps them.
-/

set_option autoImplicit false

namespace AuditPanel.Consensus

open Double

private theorem amount_consensusRatio (f : Finding) (possible : Nat) :
    Amount (consensusRatio f possible) := by
  unfold consensusRatio
  split
  · exact amount_zero
  · exact ((unsigned_float_ofNat _).div (unsigned_float_ofNat _)).smaller_one

def weights : List Float :=
  1.0 :: Taxonomy.categoryWeights.map (·.2)

private theorem weight_mem_weights (category : String) : Taxonomy.weight category ∈ weights := by
  unfold Taxonomy.weight
  split
  · next name w found =>
    exact List.mem_cons_of_mem _ (List.mem_map.mpr ⟨_, List.mem_of_find?_eq_some found, rfl⟩)
  · exact List.mem_cons_self

private theorem amount_weighted :
    ∀ w ∈ weights, ∀ boost ∈ [boostFactor, 1.0], ∀ confidence ∈ [Confidence.low, .medium, .high],
    Amount (smaller (confidence.value * boost) 1.0 * w) := by
  decide +kernel

private theorem amount_finalConfidence (f : Finding) {consensus : Float} (h : Amount consensus) :
    Amount (finalConfidence f consensus) := by
  have listed : f.confidence ∈ [Confidence.low, .medium, .high] := by
    cases f.confidence <;> decide
  have weighted (boost : Float) (hb : boost ∈ [boostFactor, 1.0]) :=
    amount_weighted _ (weight_mem_weights f.category) boost hb _ listed
  simp only [finalConfidence]
  refine Unsigned.clamp_unit ?_ ?_
  · refine Unsigned.mul ?_ h.unsigned
    split
    · exact (weighted boostFactor (by simp)).unsigned
    · exact (weighted 1.0 (by simp)).unsigned
  · refine Amount.isNaN_mul ?_ h
    split
    · exact weighted boostFactor (by simp)
    · exact weighted 1.0 (by simp)

private theorem amount_scored (n : Nat) (f : Finding) :
    Amount (scored n f).consensus ∧ Amount (scored n f).finalConfidence := by
  simp only [scored]
  exact ⟨amount_consensusRatio f n, amount_finalConfidence f (amount_consensusRatio f n)⟩

theorem amount_of_mem_scoredFindings {reviews : List Review} {statics : List Finding} {f : Finding}
    (h : f ∈ scoredFindings reviews statics) : Amount f.consensus ∧ Amount f.finalConfidence := by
  rw [scoredFindings_eq] at h
  obtain ⟨m, -, rfl⟩ := List.mem_map.mp h
  exact amount_scored _ m

private theorem foldl_greater_eq {x start : Float} {xs : List Float} (amount : Amount x)
    (known : ∀ y ∈ start :: xs, y = x ∨ y = 0.0) (present : x ∈ start :: xs) :
    xs.foldl greater start = x := by
  induction xs generalizing start with
  | nil => exact (List.mem_singleton.mp present).symm
  | cons y ys ih =>
    have step : greater start y = x ∨ greater start y = 0.0 ∧ start = 0.0 ∧ y = 0.0 := by
      rcases known start (by simp) with rfl | rfl <;> rcases known y (by simp) with rfl | rfl
      · exact .inl (greater_self _)
      · exact .inl amount.greater_zero
      · exact .inl amount.zero_greater
      · exact .inr ⟨greater_self _, rfl, rfl⟩
    rw [List.foldl_cons]
    refine ih ?_ ?_
    · intro z hz
      rcases List.mem_cons.mp hz with rfl | later
      · exact step.imp_right And.left
      · exact known z (by simp [later])
    · rcases step with reached | ⟨zero, rfl, rfl⟩
      · simp [reached]
      · simpa [zero] using present

section Score

variable {score : Finding → Float}
  (absorbs : ∀ a b, score (absorb a b) = greater (score a) (score b))
include absorbs

private theorem score_foldl_absorb (m : Finding) (fs : List Finding) :
    score (fs.foldl absorb m) = (fs.map score).foldl greater (score m) := by
  induction fs generalizing m with
  | nil => rfl
  | cons f fs ih => rw [List.foldl_cons, ih, absorbs, List.map_cons, List.foldl_cons]

theorem score_mergeGroup {x : Float} (amount : Amount x) {first : Finding} {rest : List Finding}
    (known : ∀ f ∈ first :: rest, score f = x ∨ score f = 0.0)
    (present : ∃ f ∈ first :: rest, score f = x) :
    score (mergeGroup first rest) = x := by
  rw [mergeGroup, score_foldl_absorb absorbs]
  refine foldl_greater_eq amount ?_ ?_
  · intro y hy
    rcases List.mem_cons.mp hy with rfl | hy
    · exact known _ (strongest_mem first rest)
    · obtain ⟨f, hf, rfl⟩ := List.mem_map.mp hy
      exact known f hf
  · obtain ⟨f, hf, rfl⟩ := present
    exact List.mem_cons_of_mem _ (List.mem_map.mpr ⟨f, hf, rfl⟩)

end Score

end AuditPanel.Consensus
