import AuditPanel.Json.Decode
import Mathlib.Data.List.Sort
import Mathlib.Data.String.Basic

/-!
Objects made of members. Their keys increase strictly, and when no key was given twice they hold
what they were made of.
-/

set_option autoImplicit false

namespace AuditPanel.Json

/-- Members in strictly increasing order of their keys. -/
def IsSorted (members : List (String × Json)) : Prop :=
  members.Pairwise fun a b => a.1 < b.1

private theorem lastOfRuns_eq_append (out members : List (String × Json)) :
    lastOfRuns out members = out.reverse ++ lastOfRuns [] members := by
  induction members generalizing out with
  | nil => simp [lastOfRuns]
  | cons m rest ih =>
    cases rest with
    | nil => simp [lastOfRuns]
    | cons next rest =>
      simp only [lastOfRuns]
      split
      · exact ih out
      · rw [ih, ih [m]]
        simp

theorem lastOfRuns_cons_cons (m next : String × Json) (rest : List (String × Json)) :
    lastOfRuns [] (m :: next :: rest) =
      if m.1 = next.1 then lastOfRuns [] (next :: rest) else m :: lastOfRuns [] (next :: rest) := by
  simp only [lastOfRuns]
  split
  · rfl
  · rw [lastOfRuns_eq_append]
    rfl

private theorem lastOfRuns_sublist (members : List (String × Json)) :
    (lastOfRuns [] members).Sublist members := by
  induction members with
  | nil => exact List.Sublist.refl _
  | cons m rest ih =>
    cases rest with
    | nil => exact List.Sublist.refl _
    | cons next rest =>
      rw [lastOfRuns_cons_cons]
      split
      · exact ih.cons m
      · exact ih.cons_cons m

private theorem isSorted_lastOfRuns {members : List (String × Json)}
    (ordered : members.Pairwise fun a b => a.1 ≤ b.1) :
    IsSorted (lastOfRuns [] members) := by
  induction members with
  | nil => exact List.Pairwise.nil
  | cons m rest ih =>
    cases rest with
    | nil => exact List.pairwise_singleton _ _
    | cons next rest =>
      obtain ⟨least, tail⟩ := List.pairwise_cons.mp ordered
      rw [lastOfRuns_cons_cons]
      split
      · exact ih tail
      · next differ =>
        refine List.pairwise_cons.mpr ⟨fun x member => ?_, ih tail⟩
        have below : m.1 < next.1 := lt_of_le_of_ne (least next List.mem_cons_self) differ
        rcases List.mem_cons.mp ((lastOfRuns_sublist _).subset member) with rfl | later
        · exact below
        · exact lt_of_lt_of_le below ((List.pairwise_cons.mp tail).1 x later)

private theorem lastOfRuns_of_isSorted {members : List (String × Json)}
    (sorted : IsSorted members) :
    lastOfRuns [] members = members := by
  induction members with
  | nil => rfl
  | cons m rest ih =>
    cases rest with
    | nil => rfl
    | cons next rest =>
      obtain ⟨least, tail⟩ := List.pairwise_cons.mp sorted
      have differ : m.1 ≠ next.1 := ne_of_lt (least next List.mem_cons_self)
      rw [lastOfRuns_cons_cons, if_neg differ, ih tail]

private theorem mergeSort_keys_pairwise (members : List (String × Json)) :
    (members.mergeSort fun a b => a.1 ≤ b.1).Pairwise fun a b => a.1 ≤ b.1 := by
  exact List.pairwise_mergeSort' (fun a b : String × Json => a.1 ≤ b.1) members

theorem exists_ofMembers (members : List (String × Json)) :
    ∃ sorted, ofMembers members = .object sorted ∧ IsSorted sorted ∧ ∀ m ∈ sorted, m ∈ members := by
  refine ⟨_, rfl, isSorted_lastOfRuns (mergeSort_keys_pairwise members), fun m member => ?_⟩
  exact List.mem_mergeSort.mp ((lastOfRuns_sublist _).subset member)

theorem ofMembers_of_isSorted {members : List (String × Json)} (sorted : IsSorted members) :
    ofMembers members = .object members := by
  have ordered : members.Pairwise fun a b => decide (a.1 ≤ b.1) = true :=
    sorted.imp fun lt => decide_eq_true (le_of_lt lt)
  rw [ofMembers, List.mergeSort_of_pairwise ordered, lastOfRuns_of_isSorted sorted]

theorem member?_eq_some_iff {members : List (String × Json)} (distinct : (members.map (·.1)).Nodup)
    {key : String} {v : Json} : member? key members = some v ↔ (key, v) ∈ members := by
  induction members with
  | nil => simp [member?]
  | cons m rest ih =>
    obtain ⟨name, w⟩ := m
    obtain ⟨fresh, distinct⟩ := List.nodup_cons.mp distinct
    by_cases same : name = key
    · subst same
      have absent : (name, v) ∉ rest := fun member => fresh (List.mem_map.mpr ⟨_, member, rfl⟩)
      simp [member?, absent, eq_comm]
    · have skip : member? key ((name, w) :: rest) = member? key rest := by simp [member?, same]
      have differ : key ≠ name := fun h => same h.symm
      simp [skip, ih distinct, differ]

private theorem ofMembers_eq_mergeSort {members : List (String × Json)}
    (distinct : (members.map (·.1)).Nodup) :
    ofMembers members = .object (members.mergeSort fun a b => a.1 ≤ b.1) := by
  have perm := List.mergeSort_perm members fun a b => decide (a.1 ≤ b.1)
  have distinct' := (perm.map (·.1)).nodup_iff.mpr distinct
  have sorted : IsSorted (members.mergeSort fun a b => a.1 ≤ b.1) := by
    have differ := List.pairwise_map.mp distinct'
    exact (mergeSort_keys_pairwise members).imp₂ (fun _ _ le ne => lt_of_le_of_ne le ne) differ
  rw [ofMembers, lastOfRuns_of_isSorted sorted]

theorem get?_ofMembers {members : List (String × Json)} (distinct : (members.map (·.1)).Nodup)
    (key : String) :
    (ofMembers members).get? key = member? key members := by
  have perm := List.mergeSort_perm members fun a b => decide (a.1 ≤ b.1)
  have distinct' := (perm.map (·.1)).nodup_iff.mpr distinct
  rw [ofMembers_eq_mergeSort distinct]
  refine Option.ext fun v => ?_
  rw [get?, member?_eq_some_iff distinct', member?_eq_some_iff distinct, List.mem_mergeSort]

theorem slots?_ofMembers {members : List (String × Json)} (distinct : (members.map (·.1)).Nodup)
    (names : List String) :
    (ofMembers members).slots? names =
      some (names.map fun name => (member? name members).elim .missing .value) := by
  have found (name : String) := get?_ofMembers distinct name
  rw [ofMembers] at found ⊢
  simp only [get?] at found
  simp only [slots?, found]
  congr 2
  funext name
  cases member? name members <;> rfl

end AuditPanel.Json
