import AuditPanel.Proofs.Consensus.Groups
import AuditPanel.Proofs.Consensus.Strength
import AuditPanel.Proofs.Ordered

/-!
What a merge makes of findings. A merged finding tells what one of the strongest of its group tells,
has all their sources and stands as high as the highest on each scale. This fixes it up to the two
scores, whatever the order of the group.
-/

set_option autoImplicit false

namespace AuditPanel

namespace Finding

/-- A finding as it is before it is scored. -/
def unscored (f : Finding) : Finding :=
  { f with consensus := 0.0, finalConfidence := 0.0 }

private theorem unscored_eq_iff {a b : Finding} :
    a.unscored = b.unscored ↔ a.narrative = b.narrative ∧ a.detectedBy = b.detectedBy ∧
      a.severity = b.severity ∧ a.confidence = b.confidence := by
  simp only [unscored, narrative, Finding.mk.injEq, Narrative.mk.injEq]
  tauto

theorem eq_of_unscored_eq {a b : Finding} (h : a.unscored = b.unscored)
    (consensus : a.consensus = b.consensus)
    (finalConfidence : a.finalConfidence = b.finalConfidence) : a = b := by
  simp only [unscored, Finding.mk.injEq] at h
  obtain ⟨_, _, _, _, _, _, _, _, _, _, _, _⟩ := a
  obtain ⟨_, _, _, _, _, _, _, _, _, _, _, _⟩ := b
  simp_all

end Finding

namespace Consensus

/-- What a group of findings with one key merges into. -/
structure IsMerge (group : List Finding) (m : Finding) : Prop where
  narrative : ∃ best ∈ group, (∀ f ∈ group, (strength f best).isLE) ∧ m.narrative = best.narrative
  increasing : m.detectedBy.Pairwise (· < ·)
  sources (x : String) : x ∈ m.detectedBy ↔ ∃ f ∈ group, x ∈ f.detectedBy
  severity_le (n : Nat) : m.severity.level ≤ n ↔ ∀ f ∈ group, f.severity.level ≤ n
  confidence_le (n : Nat) : m.confidence.level ≤ n ↔ ∀ f ∈ group, f.confidence.level ≤ n

section Absorb

variable (m f : Finding) (fs : List Finding)

@[simp] theorem narrative_absorb : (absorb m f).narrative = m.narrative := rfl

@[simp] theorem mem_absorb_detectedBy (x : String) :
    x ∈ (absorb m f).detectedBy ↔ x ∈ m.detectedBy ∨ x ∈ f.detectedBy := by
  simp [absorb]

private theorem absorb_increasing : (absorb m f).detectedBy.Pairwise (· < ·) :=
  Ordered.strings_pairwise _

@[simp] theorem narrative_foldl_absorb : (fs.foldl absorb m).narrative = m.narrative := by
  induction fs generalizing m with
  | nil => rfl
  | cons f fs ih => simp [ih]

@[simp] theorem mem_foldl_absorb_detectedBy (x : String) :
    x ∈ (fs.foldl absorb m).detectedBy ↔ x ∈ m.detectedBy ∨ ∃ f ∈ fs, x ∈ f.detectedBy := by
  induction fs generalizing m with
  | nil => simp
  | cons f fs ih => simp [ih, or_assoc]

@[simp] theorem foldl_absorb_severity_le (n : Nat) :
    (fs.foldl absorb m).severity.level ≤ n ↔ m.severity.level ≤ n ∧ ∀ f ∈ fs,
      f.severity.level ≤ n := by
  induction fs generalizing m with
  | nil => simp
  | cons f fs ih => simp [ih, absorb, and_assoc]

@[simp] theorem foldl_absorb_confidence_le (n : Nat) :
    (fs.foldl absorb m).confidence.level ≤ n ↔ m.confidence.level ≤ n ∧ ∀ f ∈ fs,
      f.confidence.level ≤ n := by
  induction fs generalizing m with
  | nil => simp
  | cons f fs ih => simp [ih, absorb, and_assoc]

private theorem foldl_absorb_increasing (h : m.detectedBy.Pairwise (· < ·)) :
    (fs.foldl absorb m).detectedBy.Pairwise (· < ·) := by
  induction fs generalizing m with
  | nil => exact h
  | cons f fs ih => exact ih _ (absorb_increasing m f)

end Absorb

theorem isMerge_mergeGroup (first : Finding) (rest : List Finding) :
    IsMerge (first :: rest) (mergeGroup first rest) where
  narrative := ⟨strongest first rest, strongest_mem first rest, strength_strongest first rest,
    narrative_foldl_absorb _ _⟩
  increasing :=
    foldl_absorb_increasing (absorb (strongest first rest) first) rest (absorb_increasing _ _)
  sources x := by
    rw [mergeGroup, mem_foldl_absorb_detectedBy]
    refine or_iff_right_of_imp ?_
    intro own
    exact ⟨_, strongest_mem first rest, own⟩
  severity_le n := by
    rw [mergeGroup, foldl_absorb_severity_le]
    exact and_iff_right_of_imp fun all => all _ (strongest_mem first rest)
  confidence_le n := by
    rw [mergeGroup, foldl_absorb_confidence_le]
    exact and_iff_right_of_imp fun all => all _ (strongest_mem first rest)

private theorem exists_height_eq {group : List Finding} {height : Finding → Nat} {top : Nat}
    {member : Finding}
    (hm : member ∈ group) (least : ∀ n, top ≤ n ↔ ∀ f ∈ group, height f ≤ n) :
    ∃ f ∈ group, height f = top := by
  by_contra unreached
  have lower (f : Finding) (hf : f ∈ group) : height f < top :=
    lt_of_le_of_ne ((least top).mp le_rfl f hf) fun same => unreached ⟨f, hf, same⟩
  have bound := (least (top - 1)).mpr fun f hf => Nat.le_sub_one_of_lt (lower f hf)
  have positive := lower member hm
  omega

private theorem height_le_iff_of_taken (height : Finding → Nat) {group group' : List Finding}
    {m : Finding}
    (present : m ∈ group') (taken : ∀ f ∈ group', f = m ∨ f ∈ group)
    (highest : ∀ f ∈ group, height f ≤ height m)
    (n : Nat) : height m ≤ n ↔ ∀ f ∈ group', height f ≤ n := by
  constructor
  · intro bound f hf
    rcases taken f hf with rfl | member
    · exact bound
    · exact (highest f member).trans bound
  · intro all
    exact all m present

namespace IsMerge

variable {group group' : List Finding} {m m' f : Finding}

theorem of_perm (h : IsMerge group m) (perm : group.Perm group') : IsMerge group' m where
  narrative := by
    obtain ⟨best, member, strongest, texts⟩ := h.narrative
    exact ⟨best, perm.subset member, fun f hf => strongest f (perm.symm.subset hf), texts⟩
  increasing := h.increasing
  sources x := by simpa only [perm.mem_iff] using h.sources x
  severity_le n := by simpa only [perm.mem_iff] using h.severity_le n
  confidence_le n := by simpa only [perm.mem_iff] using h.confidence_le n

theorem severity_le_of_mem (h : IsMerge group m) (hf : f ∈ group) :
    f.severity.level ≤ m.severity.level :=
  (h.severity_le _).mp le_rfl f hf

theorem confidence_le_of_mem (h : IsMerge group m) (hf : f ∈ group) :
    f.confidence.level ≤ m.confidence.level :=
  (h.confidence_le _).mp le_rfl f hf

theorem mem_detectedBy_of_mem (h : IsMerge group m) (hf : f ∈ group) {x : String}
    (hx : x ∈ f.detectedBy) :
    x ∈ m.detectedBy :=
  (h.sources x).mpr ⟨f, hf, hx⟩

private theorem strength_le_of_mem (h : IsMerge group m) (hf : f ∈ group) :
    (strength f m).isLE := by
  obtain ⟨best, member, strongest, texts⟩ := h.narrative
  exact strength_le_of_raised (strongest f hf) texts (h.severity_le_of_mem member)
    (h.confidence_le_of_mem hf) (h.confidence_le_of_mem member)

theorem key_eq {k : FindingKey} (h : IsMerge group m) (keyed : ∀ f ∈ group, f.key = k) :
    m.key = k := by
  obtain ⟨best, member, -, texts⟩ := h.narrative
  rw [Finding.key_eq_of_narrative_eq texts, keyed best member]

theorem exists_severity_eq (h : IsMerge group m) : ∃ f ∈ group, f.severity = m.severity := by
  obtain ⟨best, member, -⟩ := h.narrative
  obtain ⟨f, hf, same⟩ := exists_height_eq member h.severity_le
  exact ⟨f, hf, Severity.eq_of_level_eq same⟩

theorem exists_confidence_eq (h : IsMerge group m) : ∃ f ∈ group, f.confidence = m.confidence := by
  obtain ⟨best, member, -⟩ := h.narrative
  obtain ⟨f, hf, same⟩ := exists_height_eq member h.confidence_le
  exact ⟨f, hf, Confidence.eq_of_level_eq same⟩

theorem absorbs (h : IsMerge group m) (present : m ∈ group')
    (taken : ∀ f ∈ group', f = m ∨ f ∈ group) :
    IsMerge group' m where
  narrative := by
    refine ⟨m, present, ?_, rfl⟩
    intro f hf
    rcases taken f hf with rfl | member
    · simp [Std.ReflCmp.compare_self]
    · exact h.strength_le_of_mem member
  increasing := h.increasing
  sources x := by
    constructor
    · intro hx
      exact ⟨m, present, hx⟩
    · rintro ⟨f, hf, hx⟩
      rcases taken f hf with rfl | member
      · exact hx
      · exact h.mem_detectedBy_of_mem member hx
  severity_le := height_le_iff_of_taken (·.severity.level) present taken fun _ hf =>
    h.severity_le_of_mem hf
  confidence_le := height_le_iff_of_taken (·.confidence.level) present taken fun _ hf =>
    h.confidence_le_of_mem hf

theorem unscored_eq {k : FindingKey} (h : IsMerge group m) (h' : IsMerge group m')
    (keyed : ∀ f ∈ group, f.key = k) : m.unscored = m'.unscored := by
  obtain ⟨best, member, strongest, texts⟩ := h.narrative
  obtain ⟨best', member', strongest', texts'⟩ := h'.narrative
  have tie : strength best best' = .eq :=
    Std.OrientedCmp.isLE_antisymm (strongest' best member) (strongest best' member')
  refine Finding.unscored_eq_iff.mpr ⟨?_, ?_, ?_, ?_⟩
  · rw [texts, texts']
    exact (eq_of_strength_eq tie).2.2 ((keyed best member).trans (keyed best' member').symm)
  · exact h.increasing.eq_of_mem_iff h'.increasing fun x => (h.sources x).trans (h'.sources x).symm
  · refine Severity.eq_of_level_eq (le_antisymm ?_ ?_)
    · exact (h.severity_le _).mpr fun f hf => h'.severity_le_of_mem hf
    · exact (h'.severity_le _).mpr fun f hf => h.severity_le_of_mem hf
  · refine Confidence.eq_of_level_eq (le_antisymm ?_ ?_)
    · exact (h.confidence_le _).mpr fun f hf => h'.confidence_le_of_mem hf
    · exact (h'.confidence_le _).mpr fun f hf => h.confidence_le_of_mem hf

end IsMerge

theorem key_of_mem_filter {fs : List Finding} {k : FindingKey} :
    ∀ f ∈ fs.filter (·.key = k), f.key = k := by
  intro f hf
  simpa using (List.mem_filter.mp hf).2

private theorem mergeFindings_keys (fs : List Finding) :
    (mergeFindings fs).map (·.1) = (groups fs).map (·.1) := by
  simp [mergeFindings, Function.comp_def]

theorem mergeFindings_keys_pairwise (fs : List Finding) :
    ((mergeFindings fs).map (·.1)).Pairwise (FindingKey.order · · = .lt) := by
  rw [mergeFindings_keys]
  exact groups_keys_pairwise fs

theorem mem_mergeFindings_keys {fs : List Finding} {k : FindingKey} :
    k ∈ (mergeFindings fs).map (·.1) ↔ k ∈ fs.map Finding.key := by
  rw [mergeFindings_keys, mem_groups_keys]

theorem isMerge_of_mem_mergeFindings {fs : List Finding} {entry : FindingKey × Finding}
    (h : entry ∈ mergeFindings fs) : IsMerge (fs.filter (·.key = entry.1)) entry.2 := by
  obtain ⟨g, hg, rfl⟩ := List.mem_map.mp h
  exact (isMerge_mergeGroup g.2.1 g.2.2).of_perm (group_perm_filter hg)

theorem key_of_mem_mergeFindings {fs : List Finding} {entry : FindingKey × Finding}
    (h : entry ∈ mergeFindings fs) : entry.2.key = entry.1 :=
  (isMerge_of_mem_mergeFindings h).key_eq key_of_mem_filter

def merged (fs : List Finding) : List Finding :=
  (mergeFindings fs).map (·.2)

theorem merged_nil : merged [] = [] := by
  simp [merged, mergeFindings, groups]

private theorem merged_keys (fs : List Finding) :
    (merged fs).map Finding.key = (mergeFindings fs).map (·.1) := by
  rw [merged, List.map_map]
  exact List.map_congr_left fun entry h => key_of_mem_mergeFindings h

theorem merged_keys_nodup (fs : List Finding) : ((merged fs).map Finding.key).Nodup := by
  rw [merged_keys]
  exact (mergeFindings_keys_pairwise fs).nodup

theorem mem_merged_keys {fs : List Finding} {k : FindingKey} :
    k ∈ (merged fs).map Finding.key ↔ k ∈ fs.map Finding.key := by
  rw [merged_keys, mem_mergeFindings_keys]

theorem exists_mergeGroup_of_mem_merged {fs : List Finding} {m : Finding} (h : m ∈ merged fs) :
    ∃ first rest, m = mergeGroup first rest ∧ (first :: rest).Perm (fs.filter (·.key = m.key)) := by
  obtain ⟨entry, member, rfl⟩ := List.mem_map.mp h
  rw [key_of_mem_mergeFindings member]
  obtain ⟨g, hg, rfl⟩ := List.mem_map.mp member
  exact ⟨g.2.1, g.2.2, rfl, group_perm_filter hg⟩

theorem isMerge_of_mem_merged {fs : List Finding} {m : Finding} (h : m ∈ merged fs) :
    IsMerge (fs.filter (·.key = m.key)) m := by
  obtain ⟨first, rest, made, perm⟩ := exists_mergeGroup_of_mem_merged h
  have merge : IsMerge (first :: rest) m := made ▸ isMerge_mergeGroup first rest
  exact merge.of_perm perm

theorem exists_filter_merged {fs : List Finding} {k : FindingKey}
    (listed : k ∈ fs.map Finding.key) :
    ∃ m, (merged fs).filter (·.key = k) = [m] ∧ IsMerge (fs.filter (·.key = k)) m := by
  obtain ⟨m, hm, rfl⟩ := List.mem_map.mp (mem_merged_keys.mpr listed)
  refine ⟨m, ?_, isMerge_of_mem_merged hm⟩
  have once := List.inj_on_of_nodup_map (merged_keys_nodup fs)
  refine List.perm_singleton.mp ((List.perm_ext_iff_of_nodup ?_ (List.nodup_singleton m)).mpr ?_)
  · exact ((merged_keys_nodup fs).of_map).filter _
  · intro f
    simp only [List.mem_filter, decide_eq_true_eq, List.mem_singleton]
    constructor
    · rintro ⟨hf, same⟩
      exact once hf hm same
    · rintro rfl
      exact ⟨hm, rfl⟩

private theorem unscored_mem_merged_of_perm {fs fs' : List Finding} (perm : fs.Perm fs')
    {u : Finding}
    (h : u ∈ (merged fs).map Finding.unscored) : u ∈ (merged fs').map Finding.unscored := by
  obtain ⟨m, hm, rfl⟩ := List.mem_map.mp h
  have listed : m.key ∈ (merged fs').map Finding.key := by
    rw [mem_merged_keys, ← (perm.map Finding.key).mem_iff, ← mem_merged_keys]
    exact List.mem_map.mpr ⟨m, hm, rfl⟩
  obtain ⟨m', hm', same⟩ := List.mem_map.mp listed
  have group : IsMerge (fs'.filter (·.key = m.key)) m :=
    (isMerge_of_mem_merged hm).of_perm (perm.filter _)
  have group' : IsMerge (fs'.filter (·.key = m.key)) m' := same ▸ isMerge_of_mem_merged hm'
  exact List.mem_map.mpr ⟨m', hm', group'.unscored_eq group key_of_mem_filter⟩

private theorem unscored_merged_pairwise (fs : List Finding) :
    ((merged fs).map Finding.unscored).Pairwise
      (fun a b => FindingKey.order a.key b.key = .lt) := by
  have keys : ((merged fs).map Finding.key).Pairwise (FindingKey.order · · = .lt) :=
    merged_keys fs ▸ mergeFindings_keys_pairwise fs
  exact List.pairwise_map.mpr (List.pairwise_map.mp keys)

theorem merged_perm {fs fs' : List Finding} (perm : fs.Perm fs') :
    (merged fs).map Finding.unscored = (merged fs').map Finding.unscored := by
  have asymm : Std.Asymm fun a b : Finding => FindingKey.order a.key b.key = .lt :=
    ⟨fun _ _ => Std.OrientedCmp.not_lt_of_lt⟩
  refine (unscored_merged_pairwise fs).eq_of_mem_iff (unscored_merged_pairwise fs') ?_
  intro u
  exact ⟨unscored_mem_merged_of_perm perm, unscored_mem_merged_of_perm perm.symm⟩

end Consensus

end AuditPanel
