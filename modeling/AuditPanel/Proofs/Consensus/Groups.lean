import AuditPanel.Consensus.Merge
import AuditPanel.Proofs.Finding.Order

/-!
Groups of findings with one key. Put end to end they are the findings in the order of their keys,
and no key has two groups, so a group holds exactly the findings with its key.
-/

set_option autoImplicit false

namespace AuditPanel.Consensus

/-- The members of groups, one after the other, each with the key of its group. -/
def membersOf (gs : List (FindingKey × Finding × List Finding)) : List (FindingKey × Finding) :=
  gs.flatMap fun g => (g.2.1 :: g.2.2).map (g.1, ·)

@[simp] theorem membersOf_nil : membersOf [] = [] := rfl

@[simp] theorem membersOf_cons (g : FindingKey × Finding × List Finding)
    (gs : List (FindingKey × Finding × List Finding)) :
    membersOf (g :: gs) = (g.2.1 :: g.2.2).map (g.1, ·) ++ membersOf gs := rfl

private theorem first_mem_membersOf {gs : List (FindingKey × Finding × List Finding)}
    {g : FindingKey × Finding × List Finding} (h : g ∈ gs) : (g.1, g.2.1) ∈ membersOf gs :=
  List.mem_flatMap.mpr ⟨g, h, by simp⟩

private theorem groupsFrom_eq_append (key : FindingKey) (first : Finding) (members : List Finding)
    (out : List (FindingKey × Finding × List Finding)) (keyed : List (FindingKey × Finding)) :
    groupsFrom key first members out keyed = out.reverse ++ groupsFrom key first members []
      keyed := by
  induction keyed generalizing key first members out with
  | nil => simp [groupsFrom]
  | cons entry keyed ih =>
    obtain ⟨k, f⟩ := entry
    by_cases same : k = key
    · simpa only [groupsFrom, same, if_true] using ih key first (f :: members) out
    · have closed := ih k f [] ((key, first, members.reverse) :: out)
      have single := ih k f [] [(key, first, members.reverse)]
      simp only [groupsFrom, same, if_false]
      rw [closed, single]
      simp

/-- A finding with the key of the open group joins it; one with another key closes it and opens the
next. -/
private theorem groupsFrom_cons (key k : FindingKey) (first f : Finding) (members : List Finding)
    (keyed : List (FindingKey × Finding)) :
    groupsFrom key first members [] ((k, f) :: keyed) =
      if k = key then groupsFrom key first (f :: members) [] keyed
      else (key, first, members.reverse) :: groupsFrom k f [] [] keyed := by
  by_cases same : k = key
  · simp [groupsFrom, same]
  · simp only [groupsFrom, same, if_false]
    rw [groupsFrom_eq_append]
    rfl

private theorem membersOf_groupsFrom (key : FindingKey) (first : Finding) (members : List Finding)
    (keyed : List (FindingKey × Finding)) :
    membersOf (groupsFrom key first members [] keyed) = (first :: members.reverse).map (key, ·) ++
      keyed := by
  induction keyed generalizing key first members with
  | nil => simp [groupsFrom]
  | cons entry keyed ih =>
    obtain ⟨k, f⟩ := entry
    rw [groupsFrom_cons]
    split
    · next same => simp [ih, same]
    · simp [ih]

private theorem groupsFrom_keys_pairwise (key : FindingKey) (first : Finding)
    (members : List Finding)
    (keyed : List (FindingKey × Finding))
    (sorted : (key :: keyed.map (·.1)).Pairwise (FindingKey.le · ·)) :
    ((groupsFrom key first members [] keyed).map (·.1)).Pairwise (FindingKey.order · · = .lt) := by
  induction keyed generalizing key first members with
  | nil => simp [groupsFrom]
  | cons entry keyed ih =>
    obtain ⟨k, f⟩ := entry
    simp only [List.map_cons] at sorted
    obtain ⟨least, tail⟩ := List.pairwise_cons.mp sorted
    rw [groupsFrom_cons]
    split
    · next same => exact ih key first (f :: members) (same ▸ tail)
    · next differ =>
      refine List.pairwise_cons.mpr ⟨?_, ih k f [] tail⟩
      intro later member
      obtain ⟨g, hg, rfl⟩ := List.mem_map.mp member
      have listed : (g.1, g.2.1) ∈ (k, f) :: keyed := by
        simpa [membersOf_groupsFrom] using first_mem_membersOf hg
      have below : FindingKey.order key k = .lt :=
        FindingKey.lt_of_le_of_ne (least k (by simp)) (Ne.symm differ)
      rcases List.mem_cons.mp listed with head | rest
      · exact (congrArg Prod.fst head) ▸ below
      · have between : FindingKey.le k g.1 :=
          (List.pairwise_cons.mp tail).1 g.1 (List.mem_map.mpr ⟨_, rest, rfl⟩)
        exact Std.TransCmp.lt_of_lt_of_isLE below between

/-- The findings of a list with their keys, in the order of the keys. -/
def byKey (fs : List Finding) : List (FindingKey × Finding) :=
  (fs.map fun f => (f.key, f)).mergeSort fun a b => FindingKey.le a.1 b.1

private theorem byKey_keys_pairwise (fs : List Finding) :
    ((byKey fs).map (·.1)).Pairwise (FindingKey.le · ·) := by
  have transitive (a b c : FindingKey × Finding) :
      FindingKey.le a.1 b.1 → FindingKey.le b.1 c.1 → FindingKey.le a.1 c.1 :=
    FindingKey.le_trans a.1 b.1 c.1
  have total (a b : FindingKey × Finding) : (FindingKey.le a.1 b.1 || FindingKey.le b.1 a.1) =
      true :=
    FindingKey.le_total a.1 b.1
  refine List.pairwise_map.mpr ?_
  unfold byKey
  exact List.pairwise_mergeSort transitive total _

private theorem membersOf_groups (fs : List Finding) : membersOf (groups fs) = byKey fs := by
  unfold groups
  rw [← byKey]
  split
  · next empty => simp [empty]
  · next k f rest head => simp [membersOf_groupsFrom, head]

theorem groups_keys_pairwise (fs : List Finding) :
    ((groups fs).map (·.1)).Pairwise (FindingKey.order · · = .lt) := by
  have sorted := byKey_keys_pairwise fs
  unfold groups
  rw [← byKey]
  split
  · simp
  · next k f rest head =>
    rw [head] at sorted
    exact groupsFrom_keys_pairwise k f [] rest sorted

private theorem filter_membersOf {gs : List (FindingKey × Finding × List Finding)}
    (distinct : (gs.map (·.1)).Nodup) {g : FindingKey × Finding × List Finding} (h : g ∈ gs) :
    (membersOf gs).filter (·.1 = g.1) = (g.2.1 :: g.2.2).map (g.1, ·) := by
  induction gs with
  | nil => simp at h
  | cons other gs ih =>
    simp only [List.map_cons, List.nodup_cons] at distinct
    have elsewhere {k : FindingKey} (absent : k ∉ gs.map (·.1)) : (membersOf gs).filter (·.1 = k) =
        [] := by
      refine List.filter_eq_nil_iff.mpr ?_
      intro entry member
      obtain ⟨g', hg', listed⟩ := List.mem_flatMap.mp member
      obtain ⟨f, -, rfl⟩ := List.mem_map.mp listed
      simp only [decide_eq_true_eq]
      rintro rfl
      exact absent (List.mem_map.mpr ⟨g', hg', rfl⟩)
    rw [membersOf_cons, List.filter_append]
    rcases List.mem_cons.mp h with rfl | tail
    · rw [elsewhere distinct.1, List.append_nil]
      simp [List.filter_map, Function.comp_def]
    · have differ : other.1 ≠ g.1 := by
        intro same
        exact distinct.1 (same ▸ List.mem_map.mpr ⟨g, tail, rfl⟩)
      rw [ih distinct.2 tail]
      simp [List.filter_map, Function.comp_def, differ]

theorem group_perm_filter {fs : List Finding} {g : FindingKey × Finding × List Finding}
    (h : g ∈ groups fs) :
    (g.2.1 :: g.2.2).Perm (fs.filter (·.key = g.1)) := by
  have keyed : ((g.2.1 :: g.2.2).map (g.1, ·)).Perm
      ((fs.filter (·.key = g.1)).map fun f => (f.key, f)) := by
    rw [← filter_membersOf (groups_keys_pairwise fs).nodup h, membersOf_groups, byKey]
    refine ((List.mergeSort_perm _ _).filter _).trans ?_
    rw [List.filter_map]
    rfl
  simpa [Function.comp_def] using keyed.map (·.2)

theorem mem_groups_keys {fs : List Finding} {k : FindingKey} :
    k ∈ (groups fs).map (·.1) ↔ k ∈ fs.map Finding.key := by
  constructor
  · intro h
    obtain ⟨g, hg, rfl⟩ := List.mem_map.mp h
    have listed : g.2.1 ∈ fs.filter (·.key = g.1) := (group_perm_filter hg).subset (by simp)
    simp only [List.mem_filter, decide_eq_true_eq] at listed
    exact List.mem_map.mpr ⟨g.2.1, listed.1, listed.2⟩
  · intro h
    obtain ⟨f, hf, rfl⟩ := List.mem_map.mp h
    have listed : (f.key, f) ∈ membersOf (groups fs) := by
      rw [membersOf_groups, byKey, List.mem_mergeSort]
      exact List.mem_map.mpr ⟨f, hf, rfl⟩
    obtain ⟨g, hg, member⟩ := List.mem_flatMap.mp listed
    obtain ⟨_, -, same⟩ := List.mem_map.mp member
    exact List.mem_map.mpr ⟨g, hg, congrArg Prod.fst same⟩

end AuditPanel.Consensus
