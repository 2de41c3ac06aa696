import AuditPanel.Proofs.Consensus.Aggregate

/-!
Where the findings of a panel's view come from. Each identity that a successful reviewer or the
scanner reports is listed once, with exactly those who report it among its sources, and stands on
each scale where the highest of them put it.
-/

set_option autoImplicit false

namespace AuditPanel

/-- A result as a session makes it: with a report by its own reviewer if it succeeded, and else with
an error text. -/
structure ReviewResult.IsWellFormed (r : ReviewResult) : Prop where
  review : r.review.isSome = r.success
  error : r.error.isSome = !r.success
  reviewer (a : Review) : r.review = some a → a.reviewer = r.reviewer

namespace Consensus

/-- The identity of a reviewer's finding after its category is made canonical. -/
def canonicalKey (f : Finding) : FindingKey :=
  { f.key with category := Taxonomy.canonicalize f.category }

@[simp] theorem key_candidate (r : Reviewer) (f : Finding) :
    (candidate r f).key = canonicalKey f := by
  simp only [candidate, canonicalKey, Finding.key]

@[simp] theorem severity_candidate (r : Reviewer) (f : Finding) :
    (candidate r f).severity = f.severity := by
  simp only [candidate]

@[simp] theorem confidence_candidate (r : Reviewer) (f : Finding) :
    (candidate r f).confidence = f.confidence := by
  simp only [candidate]

/-- Whether a result succeeded and its report holds a finding with an identity. -/
def Reports (r : ReviewResult) (k : FindingKey) (f : Finding) : Prop :=
  r.success = true ∧ (∃ a, r.review = some a ∧ f ∈ a.findings) ∧ canonicalKey f = k

/-- Whether a finding comes from a successful reviewer or from the scanner and has an identity. -/
def Contributes (results : List ReviewResult) (statics : List Finding) (k : FindingKey)
    (f : Finding) : Prop :=
  (∃ r ∈ results, Reports r k f) ∨ (f ∈ statics ∧ f.key = k)

/-- What a session and the scanner hand to the panel: results of different reviewers, each of whose
findings names its reviewer alone, and findings that name the scanner alone. -/
structure IsAttributed (results : List ReviewResult) (statics : List Finding) : Prop where
  wellFormed (r : ReviewResult) : r ∈ results → r.IsWellFormed
  distinct : (results.map (·.reviewer)).Nodup
  own (r : ReviewResult) : r ∈ results → ∀ a, r.review = some a → ∀ f ∈ a.findings,
    f.detectedBy = [r.reviewer.name]
  scanner (f : Finding) : f ∈ statics → f.detectedBy = [staticSource]

/-- A finding of a view accounted for by what was reported. -/
structure IsAccounted (results : List ReviewResult) (statics : List Finding) (possible : Nat)
    (v : Finding) : Prop where
  reviewer (x : Reviewer) : x.name ∈ v.detectedBy ↔ ∃ r ∈ results, r.reviewer = x ∧ ∃ f,
    Reports r v.key f
  scanner : staticSource ∈ v.detectedBy ↔ ∃ f ∈ statics, f.key = v.key
  known (x : String) : x ∈ v.detectedBy → x = staticSource ∨ ∃ r : Reviewer, x = r.name
  distinct : v.detectedBy.Nodup
  length_le : v.detectedBy.length ≤ possible
  uncapped : v.consensus = Float.ofNat v.detectedBy.length / Float.ofNat possible
  severity : (∀ f, Contributes results statics v.key f → f.severity.level ≤ v.severity.level) ∧
    ∃ f, Contributes results statics v.key f ∧ f.severity = v.severity
  confidence :
    (∀ f, Contributes results statics v.key f → f.confidence.level ≤ v.confidence.level) ∧
    ∃ f, Contributes results statics v.key f ∧ f.confidence = v.confidence

/-- A view that lists every reported identity once, and nothing else. -/
structure HasProvenance (results : List ReviewResult) (statics : List Finding) (view : Aggregate) :
    Prop where
  keys_nodup : ((view.findings ++ view.lowConfidence).map Finding.key).Nodup
  listed (k : FindingKey) : k ∈ (view.findings ++ view.lowConfidence).map Finding.key ↔
    ∃ f, Contributes results statics k f
  accounted (v : Finding) : v ∈ view.findings ++ view.lowConfidence →
    IsAccounted results statics view.possibleSources v

theorem name_injective {r r' : Reviewer} (h : r.name = r'.name) : r = r' := by
  cases r <;> cases r' <;> first | rfl | simp [Reviewer.name] at h

private theorem name_ne_static (r : Reviewer) : r.name ≠ staticSource := by
  cases r <;> decide

section Reports

variable {results : List ReviewResult}

private theorem mem_reviewsOf {a : Review} :
    a ∈ reviewsOf results ↔ ∃ r ∈ results, r.success = true ∧ r.review = some a := by
  simp only [reviewsOf, List.mem_filterMap, inPanelOrder, List.mem_mergeSort, successfulReview?]
  refine exists_congr fun r => and_congr_right fun _ => ?_
  cases r.success <;> simp

theorem reviewsOf_reviewers_nodup (wellFormed : ∀ r ∈ results, r.IsWellFormed)
    (distinct : (results.map (·.reviewer)).Nodup) :
    ((reviewsOf results).map (·.reviewer)).Nodup := by
  have perm : (inPanelOrder results).Perm results := List.mergeSort_perm _ _
  have apart : (inPanelOrder results).Pairwise fun r r' => r ∈ results ∧ r' ∈ results ∧
      r.reviewer ≠ r'.reviewer := by
    refine (List.pairwise_map.mp ((perm.map _).symm.nodup distinct)).imp_of_mem ?_
    intro r r' hr hr' differ
    exact ⟨perm.subset hr, perm.subset hr', differ⟩
  have own {r : ReviewResult} {a : Review} (member : r ∈ results) (h : a ∈ successfulReview? r) :
      a.reviewer = r.reviewer := by
    unfold successfulReview? at h
    split at h
    · exact (wellFormed r member).reviewer a h
    · simp at h
  refine List.pairwise_map.mpr (apart.filterMap _ ?_)
  rintro r r' ⟨hr, hr', differ⟩ a ha a' ha'
  rw [own hr ha, own hr' ha']
  exact differ

private theorem reviewsOf_length_le (wellFormed : ∀ r ∈ results, r.IsWellFormed)
    (distinct : (results.map (·.reviewer)).Nodup) : (reviewsOf results).length ≤ 6 := by
  have all : (reviewsOf results).map (·.reviewer) ⊆ Reviewer.all := by
    intro r _
    cases r <;> decide
  have bound :=
    (List.subperm_of_subset (reviewsOf_reviewers_nodup wellFormed distinct) all).length_le
  rwa [List.length_map] at bound

end Reports

/-- The candidates and static findings with an identity. -/
def groupOf (results : List ReviewResult) (statics : List Finding) (k : FindingKey) :
    List Finding :=
  (candidates (reviewsOf results) ++ statics).filter (·.key = k)

section Groups

variable {results : List ReviewResult} {statics : List Finding} {k : FindingKey}

private theorem mem_groupOf {g : Finding} :
    g ∈ groupOf results statics k ↔
      (∃ r ∈ results, ∃ a, r.review = some a ∧ ∃ f, Reports r k f ∧ f ∈ a.findings ∧
        g = candidate a.reviewer f) ∨ (g ∈ statics ∧ g.key = k) := by
  simp only [groupOf, candidates, List.mem_filter, List.mem_append, List.mem_flatMap, List.mem_map,
    mem_reviewsOf, decide_eq_true_eq, Reports]
  constructor
  · rintro ⟨⟨a, ⟨r, hr, success, review⟩, f, hf, rfl⟩ | statics, keyed⟩
    · rw [key_candidate] at keyed
      exact .inl ⟨r, hr, a, review, f, ⟨success, ⟨a, review, hf⟩, keyed⟩, hf, rfl⟩
    · exact .inr ⟨statics, keyed⟩
  · rintro (⟨r, hr, a, review, f, ⟨success, -, keyed⟩, hf, rfl⟩ | ⟨statics, keyed⟩)
    · rw [← key_candidate a.reviewer] at keyed
      exact ⟨.inl ⟨a, ⟨r, hr, success, review⟩, f, hf, rfl⟩, keyed⟩
    · exact ⟨.inr statics, keyed⟩

private theorem exists_contributes {g : Finding} (h : g ∈ groupOf results statics k) :
    ∃ f, Contributes results statics k f ∧ f.severity = g.severity ∧
      f.confidence = g.confidence := by
  rcases mem_groupOf.mp h with ⟨r, hr, a, -, f, reported, -, rfl⟩ | found
  · exact ⟨f, .inl ⟨r, hr, reported⟩, (severity_candidate _ f).symm,
      (confidence_candidate _ f).symm⟩
  · exact ⟨g, .inr found, rfl, rfl⟩

private theorem exists_mem_groupOf {f : Finding} (h : Contributes results statics k f) :
    ∃ g ∈ groupOf results statics k, g.severity = f.severity ∧ g.confidence = f.confidence := by
  rcases h with ⟨r, hr, reported⟩ | found
  · obtain ⟨-, ⟨a, review, hf⟩, -⟩ := id reported
    exact ⟨candidate a.reviewer f, mem_groupOf.mpr (.inl ⟨r, hr, a, review, f, reported, hf, rfl⟩),
      severity_candidate _ f, confidence_candidate _ f⟩
  · exact ⟨f, mem_groupOf.mpr (.inr found), rfl, rfl⟩

private theorem mem_detectedBy_iff (attributed : IsAttributed results statics) {v : Finding}
    (merge : IsMerge (groupOf results statics k) v) (x : String) :
    x ∈ v.detectedBy ↔
      (∃ r ∈ results, x = r.reviewer.name ∧ ∃ f, Reports r k f) ∨
        (x = staticSource ∧ ∃ f ∈ statics, f.key = k) := by
  have sources {r : ReviewResult} {a : Review} {f : Finding} (hr : r ∈ results)
    (review : r.review = some a)
      (hf : f ∈ a.findings) : x ∈ (candidate a.reviewer f).detectedBy ↔ x = r.reviewer.name := by
    simp [candidate, attributed.own r hr a review f hf,
      (attributed.wellFormed r hr).reviewer a review]
  rw [merge.sources]
  constructor
  · rintro ⟨g, hg, hx⟩
    rcases mem_groupOf.mp hg with ⟨r, hr, a, review, f, reported, hf, rfl⟩ | ⟨found, keyed⟩
    · exact .inl ⟨r, hr, (sources hr review hf).mp hx, f, reported⟩
    · rw [attributed.scanner g found, List.mem_singleton] at hx
      exact .inr ⟨hx, g, found, keyed⟩
  · rintro (⟨r, hr, named, f, reported⟩ | ⟨rfl, f, found, keyed⟩)
    · obtain ⟨-, ⟨a, review, hf⟩, -⟩ := id reported
      exact ⟨_, mem_groupOf.mpr (.inl ⟨r, hr, a, review, f, reported, hf, rfl⟩),
        (sources hr review hf).mpr named⟩
    · refine ⟨f, mem_groupOf.mpr (.inr ⟨found, keyed⟩), ?_⟩
      simp [attributed.scanner f found]

private theorem detectedBy_length_le (attributed : IsAttributed results statics) {v : Finding}
    (merge : IsMerge (groupOf results statics k) v) :
    v.detectedBy.length ≤ (reviewsOf results).length + 1 := by
  have known : v.detectedBy ⊆ staticSource :: (reviewsOf results).map (·.reviewer.name) := by
    intro x hx
    rcases (mem_detectedBy_iff attributed merge x).mp hx with
      ⟨r, hr, rfl, f, success, ⟨a, review, -⟩, -⟩ | ⟨rfl, -⟩
    · have listed : a ∈ reviewsOf results := mem_reviewsOf.mpr ⟨r, hr, success, review⟩
      rw [← (attributed.wellFormed r hr).reviewer a review]
      exact List.mem_cons_of_mem _ (List.mem_map.mpr ⟨a, listed, rfl⟩)
    · exact List.mem_cons_self
  have bound :=
    (List.subperm_of_subset (merge.increasing.imp (fun h => ne_of_lt h)) known).length_le
  rwa [List.length_cons, List.length_map] at bound

end Groups

private theorem smaller_ratio_one : ∀ n < 8, ∀ k < n + 1, n ≠ 0 →
    smaller (Float.ofNat k / Float.ofNat n) 1.0 = Float.ofNat k / Float.ofNat n := by
  decide +kernel

section View

variable {results : List ReviewResult} {statics : List Finding}

private theorem consensus_of_mem_scoredFindings {reviews : List Review} {v : Finding}
    (h : v ∈ scoredFindings reviews statics) :
    v.consensus = smaller (Float.ofNat v.detectedBy.length / Float.ofNat (reviews.length + 1))
      1.0 := by
  rw [scoredFindings_eq] at h
  obtain ⟨m, -, rfl⟩ := List.mem_map.mp h
  simp only [scored, consensusRatio, Nat.add_one_ne_zero, if_false]

private theorem isAccounted_of_mem_scoredFindings (attributed : IsAttributed results statics)
    {v : Finding} (h : v ∈ scoredFindings (reviewsOf results) statics) :
    IsAccounted results statics ((reviewsOf results).length + 1) v := by
  have merge : IsMerge (groupOf results statics v.key) v := isMerge_of_mem_scoredFindings h
  have sources := mem_detectedBy_iff attributed merge
  have bound := detectedBy_length_le attributed merge
  refine ⟨?_, ?_, ?_, ?_, bound, ?_, ⟨?_, ?_⟩, ⟨?_, ?_⟩⟩
  · intro x
    rw [sources]
    constructor
    · rintro (⟨r, hr, named, reported⟩ | ⟨named, -⟩)
      · exact ⟨r, hr, name_injective named.symm, reported⟩
      · exact absurd named (name_ne_static x)
    · rintro ⟨r, hr, rfl, reported⟩
      exact .inl ⟨r, hr, rfl, reported⟩
  · rw [sources]
    constructor
    · rintro (⟨r, -, named, -⟩ | ⟨-, found⟩)
      · exact absurd named.symm (name_ne_static r.reviewer)
      · exact found
    · intro found
      exact .inr ⟨rfl, found⟩
  · intro x hx
    rcases (sources x).mp hx with ⟨r, -, named, -⟩ | ⟨named, -⟩
    · exact .inr ⟨r.reviewer, named⟩
    · exact .inl named
  · exact merge.increasing.imp fun below => ne_of_lt below
  · have few := reviewsOf_length_le attributed.wellFormed attributed.distinct
    rw [consensus_of_mem_scoredFindings h]
    exact smaller_ratio_one _ (by omega) _ (by omega) (by omega)
  · intro f hf
    obtain ⟨g, hg, same, -⟩ := exists_mem_groupOf hf
    exact same ▸ merge.severity_le_of_mem hg
  · obtain ⟨g, hg, same⟩ := merge.exists_severity_eq
    obtain ⟨f, hf, severity, -⟩ := exists_contributes hg
    exact ⟨f, hf, severity.trans same⟩
  · intro f hf
    obtain ⟨g, hg, -, same⟩ := exists_mem_groupOf hf
    exact same ▸ merge.confidence_le_of_mem hg
  · obtain ⟨g, hg, same⟩ := merge.exists_confidence_eq
    obtain ⟨f, hf, -, confidence⟩ := exists_contributes hg
    exact ⟨f, hf, confidence.trans same⟩

private theorem mem_scoredFindings_keys {k : FindingKey} :
    k ∈ (scoredFindings (reviewsOf results) statics).map Finding.key ↔ ∃ f,
      Contributes results statics k f := by
  rw [scoredFindings_keys, mem_merged_keys]
  constructor
  · intro listed
    obtain ⟨g, hg, keyed⟩ := List.mem_map.mp listed
    obtain ⟨f, hf, -⟩ := exists_contributes (List.mem_filter.mpr ⟨hg, decide_eq_true keyed⟩)
    exact ⟨f, hf⟩
  · rintro ⟨f, hf⟩
    obtain ⟨g, hg, -⟩ := exists_mem_groupOf hf
    obtain ⟨listed, keyed⟩ := List.mem_filter.mp hg
    exact List.mem_map.mpr ⟨g, listed, of_decide_eq_true keyed⟩

/-- A panel with a report has a view, and the view accounts for all that was reported: nothing is
lost, nothing is listed twice, and every source is named. -/
theorem aggregate_hasProvenance (results : List ReviewResult) (statics : List Finding)
    (c : Source.Characteristics)
    (rules : ScoringRules) (attributed : IsAttributed results statics)
    (answered : ∃ r ∈ results, r.success = true) :
    ∃ view, aggregate results statics c rules = .ok view ∧ HasProvenance results statics view := by
  have reported : reviewsOf results ≠ [] := by
    obtain ⟨r, hr, success⟩ := answered
    have present := (attributed.wellFormed r hr).review
    rw [success] at present
    obtain ⟨a, review⟩ := Option.isSome_iff_exists.mp present
    exact List.ne_nil_of_mem (mem_reviewsOf.mpr ⟨r, hr, success, review⟩)
  obtain ⟨view, aggregated⟩ := aggregate_completes statics c rules reported
  have perm := findings_append_lowConfidence_perm aggregated
  have keys := perm.map Finding.key
  refine ⟨view, aggregated, ?_, ?_, ?_⟩
  · refine keys.symm.nodup ?_
    rw [scoredFindings_keys]
    exact merged_keys_nodup _
  · intro k
    rw [keys.mem_iff, mem_scoredFindings_keys]
  · intro v hv
    rw [(aggregate_ok aggregated).2.1]
    exact isAccounted_of_mem_scoredFindings attributed (perm.subset hv)

end View

/-- A reviewer and the scanner report one issue, the reviewer under another spelling of its
category, and another reviewer fails. -/
theorem two_sources_hasProvenance :
    let issue (category source : String) : Finding :=
      { (default : Finding) with
        name := "Reentrancy", category := category, detectedBy := [source] }
    let results :=
      [ReviewResult.succeeded
        { Review.neutral .security with findings := [issue "Re-entrancy" "security"] } 0 default,
        ReviewResult.failed .quality "no answer" 0 default]
    let statics := [issue "reentrancy" staticSource]
    results.map (·.success) = [true, false] ∧
      ∃ view, aggregate results statics default .standard = .ok view ∧
        HasProvenance results statics view := by
  intro issue results statics
  refine ⟨rfl, aggregate_hasProvenance results statics default .standard ⟨?_, by decide, ?_, ?_⟩ ?_⟩
  · intro r hr
    simp only [results, List.mem_cons, List.not_mem_nil, or_false] at hr
    rcases hr with rfl | rfl
    · exact ⟨rfl, rfl, by rintro _ ⟨⟩; rfl⟩
    · exact ⟨rfl, rfl, by rintro _ ⟨⟩⟩
  · intro r hr a review f hf
    simp only [results, List.mem_cons, List.not_mem_nil, or_false] at hr
    rcases hr with rfl | rfl
    · cases review
      cases List.mem_singleton.mp hf
      rfl
    · cases review
  · intro f hf
    cases List.mem_singleton.mp hf
    rfl
  · exact ⟨_, List.mem_cons_self, rfl⟩

end Consensus

end AuditPanel
