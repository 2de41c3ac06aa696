import AuditPanel.Proofs.Consensus.Merge

/-!
The law of merging, in terms of those who contribute. There is one entry for each identity. It takes
its texts from one of the strongest contributors alone and all else from all of them, so it does not
matter in which order they come.
-/

set_option autoImplicit false

namespace AuditPanel.Consensus

/-- A finding that stands for all of its contributors, which have one identity. -/
structure StandsFor (contributors : List Finding) (k : FindingKey) (m : Finding) : Prop where
  key : m.key = k
  increasing : m.detectedBy.Pairwise (· < ·)
  sources (x : String) : x ∈ m.detectedBy ↔ ∃ f ∈ contributors, x ∈ f.detectedBy
  severity : (∀ f ∈ contributors, f.severity.level ≤ m.severity.level) ∧
    ∃ f ∈ contributors, f.severity = m.severity
  confidence : (∀ f ∈ contributors, f.confidence.level ≤ m.confidence.level) ∧
    ∃ f ∈ contributors, f.confidence = m.confidence
  texts : ∃ best ∈ contributors, (∀ f ∈ contributors, (strength f best).isLE) ∧
    best.severity = m.severity ∧
    m.name = best.name ∧ m.description = best.description ∧ m.recommendation = best.recommendation ∧
      m.impact = best.impact ∧ m.codeSnippet = best.codeSnippet

/-- Entries of a list of findings: one for each identity in it and none besides, which stands for
all findings with that identity. -/
structure MergesByIdentity (fs : List Finding) (entries : List (FindingKey × Finding)) : Prop where
  keys_nodup : (entries.map (·.1)).Nodup
  listed (k : FindingKey) : k ∈ entries.map (·.1) ↔ ∃ f ∈ fs, f.key = k
  standsFor : ∀ entry ∈ entries, StandsFor (fs.filter (·.key = entry.1)) entry.1 entry.2

def unscoredEntry (entry : FindingKey × Finding) : FindingKey × Finding :=
  (entry.1, entry.2.unscored)

private theorem severity_le_of_strength_le {f g : Finding} (weaker : (strength f g).isLE) :
    f.severity.level ≤ g.severity.level := by
  simp only [strength, Ordering.isLE_then_iff_and, Nat.isLE_compare] at weaker
  exact weaker.1

private theorem IsMerge.standsFor {group : List Finding} {k : FindingKey} {m : Finding}
    (merge : IsMerge group m) (keyed : ∀ f ∈ group, f.key = k) : StandsFor group k m where
  key := merge.key_eq keyed
  increasing := merge.increasing
  sources := merge.sources
  severity := ⟨fun _ member => merge.severity_le_of_mem member, merge.exists_severity_eq⟩
  confidence := ⟨fun _ member => merge.confidence_le_of_mem member, merge.exists_confidence_eq⟩
  texts := by
    obtain ⟨best, member, strongest, told⟩ := merge.narrative
    -- No contributor is more severe than the strongest one, for strength compares severities first.
    have highest : m.severity.level ≤ best.severity.level :=
      (merge.severity_le _).mpr fun f inside => severity_le_of_strength_le (strongest f inside)
    have severity :=
      Severity.eq_of_level_eq (Nat.le_antisymm (merge.severity_le_of_mem member) highest)
    simp only [Finding.narrative, Narrative.mk.injEq] at told
    obtain ⟨name, description, -, -, snippet, recommendation, impact⟩ := told
    exact ⟨best, member, strongest, severity, name, description, recommendation, impact, snippet⟩

private theorem mergesByIdentity_mergeFindings (fs : List Finding) :
    MergesByIdentity fs (mergeFindings fs) where
  keys_nodup := (mergeFindings_keys_pairwise fs).nodup
  listed k := by rw [mem_mergeFindings_keys, List.mem_map]
  standsFor _ member := (isMerge_of_mem_mergeFindings member).standsFor key_of_mem_filter

private theorem unscoredEntry_mergeFindings (fs : List Finding) :
    (mergeFindings fs).map unscoredEntry = ((merged fs).map Finding.unscored).map fun m =>
      (m.key, m) := by
  rw [merged, List.map_map, List.map_map]
  refine List.map_congr_left fun entry member => ?_
  rw [unscoredEntry, ← key_of_mem_mergeFindings member]
  rfl

/-- Findings are merged by identity, and in whatever order they come, the same entries result,
scores aside. -/
theorem mergeFindings_byIdentity (fs : List Finding) :
    MergesByIdentity fs (mergeFindings fs) ∧
      ∀ fs', fs.Perm fs' → (mergeFindings fs).map unscoredEntry =
        (mergeFindings fs').map unscoredEntry := by
  refine ⟨mergesByIdentity_mergeFindings fs, fun fs' perm => ?_⟩
  rw [unscoredEntry_mergeFindings, unscoredEntry_mergeFindings, merged_perm perm]

/-- Two spellings of one name are merged, and alike if they come the other way round. -/
theorem mergeFindings_two_spellings :
    let f : Finding :=
      { (default : Finding) with
        name := "Re-entrancy", severity := .high, detectedBy := ["security"] }
    let g : Finding := { (default : Finding) with name := "reentrancy ", detectedBy := ["static"] }
    (∃ m, (f.key, m) ∈ mergeFindings [f, g] ∧ StandsFor [f, g] f.key m ∧ m.name = "Re-entrancy") ∧
      [f, g].Perm [g, f] ∧ (mergeFindings [f, g]).map unscoredEntry = (mergeFindings [g, f]).map
        unscoredEntry := by
  intro f g
  obtain ⟨merges, unordered⟩ := mergeFindings_byIdentity [f, g]
  have same : g.key = f.key := by decide
  have group : [f, g].filter (·.key = f.key) = [f, g] := by simp [same]
  obtain ⟨⟨_, m⟩, member, rfl⟩ := List.mem_map.mp ((merges.listed f.key).mpr ⟨f, by simp, rfl⟩)
  have standsFor := merges.standsFor _ member
  rw [group] at standsFor
  refine ⟨⟨m, member, standsFor, ?_⟩, .swap g f [], unordered _ (.swap g f [])⟩
  obtain ⟨best, inside, strongest, -, name, -⟩ := standsFor.texts
  have higher : f.severity.level ≤ best.severity.level :=
    severity_le_of_strength_le (strongest f (by simp))
  rcases List.mem_pair.mp inside with rfl | rfl
  · exact name
  · exact absurd higher (by decide)

end AuditPanel.Consensus
