import AuditPanel.Proofs.Consensus.Aggregate
import AuditPanel.Proofs.Finding.Order

/-!
The list of a report. Findings with different identities stand in one strict order, and the counts
of a report are the numbers of its findings.
-/

set_option autoImplicit false

namespace AuditPanel

/-- Whether a finding stands before another one: it is more severe, or as severe and more certain,
or alike in both and of smaller identity. -/
def Finding.ListedBefore (f g : Finding) : Prop :=
  g.severity.level < f.severity.level ∨ f.severity = g.severity ∧
    (Consensus.totalRank g.finalConfidence < Consensus.totalRank f.finalConfidence ∨
      Consensus.totalRank f.finalConfidence = Consensus.totalRank g.finalConfidence ∧
        FindingKey.order f.key g.key = .lt)

namespace Consensus

private instance : Std.TransCmp fun f g : Finding => FindingKey.order f.key g.key where
  eq_swap := Std.OrientedCmp.eq_swap
  isLE_trans := Std.TransCmp.isLE_trans

instance : Std.TransCmp reportOrder :=
  inferInstanceAs <| Std.TransCmp <|
    compareLex (fun f g : Finding => compareOn (fun f : Finding => f.severity.level) g f) <|
      compareLex
        (fun f g : Finding => compareOn (fun f : Finding => totalRank f.finalConfidence) g f) <|
        fun f g : Finding => FindingKey.order f.key g.key

private theorem reportOrder_total (f g : Finding) :
    ((reportOrder f g).isLE || (reportOrder g f).isLE) = true := by
  rcases h : reportOrder f g with _ | _ | _
  · simp
  · simp
  · have flipped : reportOrder g f = .lt := Std.OrientedCmp.gt_iff_lt.mp h
    simp [flipped]

private theorem listedBefore_of_reportOrder {f g : Finding} (before : (reportOrder f g).isLE)
    (differ : f.key ≠ g.key) :
    f.ListedBefore g := by
  simp only [reportOrder, Ordering.isLE_then_iff_and, Nat.isLE_compare, Nat.compare_eq_lt,
    Int.isLE_compare, Int.compare_eq_lt] at before
  obtain ⟨severity, rest⟩ := before
  rcases Nat.lt_or_eq_of_le severity with higher | alike
  · exact .inl higher
  obtain ⟨confidence, last⟩ := rest.resolve_left (Nat.not_lt.mpr alike.ge)
  refine .inr ⟨Severity.eq_of_level_eq alike.symm, ?_⟩
  rcases Int.lt_or_eq_of_le confidence with surer | alike
  · exact .inl surer
  · exact .inr
      ⟨alike.symm, FindingKey.lt_of_le_of_ne (last.resolve_left (Int.not_lt.mpr alike.ge)) differ⟩

theorem sortFindings_pairwise {fs : List Finding} (distinct : (fs.map Finding.key).Nodup) :
    (sortFindings fs).Pairwise Finding.ListedBefore := by
  have ordered : (sortFindings fs).Pairwise fun f g => (reportOrder f g).isLE :=
    List.pairwise_mergeSort (fun _ _ _ => Std.TransCmp.isLE_trans) reportOrder_total fs
  have differ := List.pairwise_map.mp (((sortFindings_perm fs).map Finding.key).symm.nodup distinct)
  exact ordered.imp₂ (fun _ _ => listedBefore_of_reportOrder) differ

end Consensus

namespace SeverityCounts

def of (c : SeverityCounts) : Severity → Nat
  | .critical => c.critical
  | .high => c.high
  | .medium => c.medium
  | .low => c.low

theorem of_ofFindings (fs : List Finding) (severity : Severity) :
    (ofFindings fs).of severity = (fs.filter (·.severity = severity)).length := by
  rw [← List.countP_eq_length_filter]
  cases severity <;> rfl

theorem total_ofFindings (fs : List Finding) : (ofFindings fs).total = fs.length := by
  induction fs with
  | nil => rfl
  | cons f rest ih =>
    simp only [total, ofFindings, countOf, List.countP_cons, List.length_cons] at ih ⊢
    cases f.severity <;> simp <;> omega

end SeverityCounts

end AuditPanel
