import AuditPanel.Proofs.Consensus.Permutation
import AuditPanel.Proofs.Ordered
import AuditPanel.Proofs.Text.LowerCase
import AuditPanel.Review.Selection
import Mathlib.Data.Finset.Card
import Mathlib.Data.Prod.Lex

/-!
The choice of a panel. Those asked for are put in the order of their places, and the panel is the
beginning of that order, so it depends only on who is asked for and not on how.
-/

set_option autoImplicit false

namespace AuditPanel

namespace Reviewer

/-- Two spellings of a name: letters in another case, and characters between them that are no ASCII
letters or digits. -/
inductive Respelled : List Char → List Char → Prop
  | nil : Respelled [] []
  | recased {c d : Char} {s t : List Char} : c.toLower = d.toLower → Respelled s t →
      Respelled (c :: s) (d :: t)
  | dropped {c : Char} {s t : List Char} : c.isAlphanum = false → Respelled s t →
      Respelled (c :: s) t
  | added {d : Char} {s t : List Char} : d.isAlphanum = false → Respelled s t → Respelled s (d :: t)

private theorem isAlphanum_toLower (c : Char) : c.toLower.isAlphanum = c.isAlphanum := by
  by_cases ascii : c.toNat < 0x80
  · have table : ∀ n < 0x80, (Char.ofNat n).toLower.isAlphanum = (Char.ofNat n).isAlphanum := by
      decide
    simpa only [Char.ofNat_toNat] using table c.toNat ascii
  · rw [Text.toLower_of_not_ascii ascii]

private theorem fold_eq_of_respelled {s t : String} (respelled : Respelled s.toList t.toList) :
    fold s = fold t := by
  have folded {s t : List Char} (respelled : Respelled s t) :
      Text.toAsciiLower (s.filter Char.isAlphanum) =
        Text.toAsciiLower (t.filter Char.isAlphanum) := by
    induction respelled with
    | nil => rfl
    | @recased c d s t same _ ih =>
      have both : c.isAlphanum = d.isAlphanum := by
        rw [← isAlphanum_toLower c, same, isAlphanum_toLower]
      unfold Text.toAsciiLower at ih ⊢
      cases letter : d.isAlphanum <;> simp [both, letter, same, ih]
    | dropped mark _ ih => simp [mark, ih]
    | added mark _ ih => simp [mark, ih]
  rw [fold, fold, folded respelled]

private theorem parse?_eq_of_respelled {s t : String} (respelled : Respelled s.toList t.toList) :
    parse? s = parse? t := by
  rw [parse?, parse?, fold_eq_of_respelled respelled]

/-- Lists of names that ask for the same: each known name of the one has a spelling in the other.
The order, repetitions and unknown names make no difference. -/
structure NamesAlike (names names' : List String) : Prop where
  forth : ∀ s ∈ names, (parse? s).isSome → ∃ t ∈ names', Respelled s.toList t.toList
  back : ∀ t ∈ names', (parse? t).isSome → ∃ s ∈ names, Respelled s.toList t.toList

end Reviewer

namespace Review

variable {c : Source.Characteristics} {names : Option (List String)} {cap : Nat} {r r' : Reviewer}

def named (names : List String) : Finset Reviewer :=
  (names.filterMap Reviewer.parse?).toFinset

/-- The reviewers asked for: those that the caller names, if any is known, or those that the
contract calls for. -/
def wanted (c : Source.Characteristics) (names : Option (List String)) : Finset Reviewer :=
  if named (names.getD []) = ∅ then (heuristicPanel c).toFinset else named (names.getD [])

private theorem mem_requestedPanel : r ∈ requestedPanel c names ↔ r ∈ wanted c names := by
  unfold requestedPanel wanted named
  split
  · next unknown => simp [unknown]
  · next known =>
    have some_ : (names.getD []).filterMap Reviewer.parse? ≠ [] := known
    rw [if_neg (mt (List.toFinset_eq_empty_iff _).mp some_), List.mem_toFinset]

private theorem wanted_nonempty (c : Source.Characteristics) (names : Option (List String)) :
    (wanted c names).Nonempty := by
  unfold wanted
  split
  · exact ⟨.security, by simp [heuristicPanel]⟩
  · next known => exact Finset.nonempty_iff_ne_empty.mpr known

private theorem named_congr {names names' : List String}
    (alike : Reviewer.NamesAlike names names') :
    named names = named names' := by
  ext r
  simp only [named, List.mem_toFinset, List.mem_filterMap]
  constructor
  · rintro ⟨s, member, means⟩
    obtain ⟨t, other, respelled⟩ := alike.forth s member (by rw [means]; rfl)
    exact ⟨t, other, by rw [← Reviewer.parse?_eq_of_respelled respelled, means]⟩
  · rintro ⟨t, member, means⟩
    obtain ⟨s, other, respelled⟩ := alike.back t member (by rw [means]; rfl)
    exact ⟨s, other, by rw [Reviewer.parse?_eq_of_respelled respelled, means]⟩

/-- The place of a reviewer: its rank, and among those of one rank its priority. -/
def place (c : Source.Characteristics) (r : Reviewer) : Nat ×ₗ Nat :=
  toLex (rank c r, r.priority)

private theorem place_injective (c : Source.Characteristics) : Function.Injective (place c) := by
  intro r r' same
  exact Reviewer.eq_of_priority_eq (congrArg Prod.snd (toLex.injective same))

theorem standsBefore_iff : standsBefore c r r' = true ↔ place c r ≤ place c r' := by
  rw [place, place, Prod.Lex.toLex_le_toLex, standsBefore, Ordering.isLE_then_iff_and,
    Nat.isLE_compare, Nat.compare_eq_lt, Nat.isLE_compare]
  omega

/-- The reviewers asked for in the order of their places, before the cut. -/
def rankedPanel (c : Source.Characteristics) (names : Option (List String)) : List Reviewer :=
  Ordered.ofList (standsBefore c) (requestedPanel c names)

private theorem mem_rankedPanel : r ∈ rankedPanel c names ↔ r ∈ wanted c names := by
  rw [rankedPanel, Ordered.ofList, Ordered.mem_dedup, List.mem_mergeSort, mem_requestedPanel]

private theorem rankedPanel_pairwise (c : Source.Characteristics) (names : Option (List String)) :
    (rankedPanel c names).Pairwise fun r r' => place c r < place c r' := by
  have sorted : ((requestedPanel c names).mergeSort (standsBefore c)).Pairwise fun r r' =>
      place c r ≤ place c r' := by
    refine (List.pairwise_mergeSort ?_ ?_ (requestedPanel c names)).imp standsBefore_iff.mp
    · intro r r' r'' before behind
      rw [standsBefore_iff] at before behind ⊢
      exact before.trans behind
    · intro r r'
      rw [Bool.or_eq_true, standsBefore_iff, standsBefore_iff]
      exact le_total _ _
  have antisymm (r r' : Reviewer) (before : place c r ≤ place c r')
      (behind : place c r' ≤ place c r) : r = r' :=
    place_injective c (le_antisymm before behind)
  refine (Ordered.pairwise_dedup antisymm sorted).imp ?_
  rintro r r' ⟨before, differ⟩
  exact lt_of_le_of_ne before fun same => differ (place_injective c same)

private theorem rankedPanel_nodup (c : Source.Characteristics) (names : Option (List String)) :
    (rankedPanel c names).Nodup :=
  (rankedPanel_pairwise c names).imp fun before same => before.ne (congrArg (place c) same)

private theorem length_rankedPanel (c : Source.Characteristics) (names : Option (List String)) :
    (rankedPanel c names).length = (wanted c names).card := by
  rw [← List.toFinset_card_of_nodup (rankedPanel_nodup c names)]
  congr 1
  ext r
  rw [List.mem_toFinset, mem_rankedPanel]

private theorem rankedPanel_congr {names' : Option (List String)}
    (same : wanted c names = wanted c names') :
    rankedPanel c names = rankedPanel c names' := by
  refine List.Perm.eq_of_pairwise ?_ (rankedPanel_pairwise c names)
    (rankedPanel_pairwise c names') ?_
  · intro r r' _ _ before behind
    exact absurd before behind.asymm
  · refine (List.perm_ext_iff_of_nodup (rankedPanel_nodup c names) (rankedPanel_nodup c names')).mpr
      fun r => ?_
    rw [mem_rankedPanel, mem_rankedPanel, same]

private theorem selectPanel_eq (c : Source.Characteristics) (names : Option (List String))
    (cap : Nat) :
    selectPanel c names cap = (rankedPanel c names).take (max cap 1) := rfl

theorem selectPanel_nodup (c : Source.Characteristics) (names : Option (List String)) (cap : Nat) :
    (selectPanel c names cap).Nodup :=
  (rankedPanel_nodup c names).sublist (List.take_sublist _ _)

private theorem length_selectPanel (c : Source.Characteristics) (names : Option (List String))
    (cap : Nat) :
    (selectPanel c names cap).length = min (max cap 1) (wanted c names).card := by
  rw [selectPanel_eq, List.length_take, length_rankedPanel]

private theorem selectPanel_ne_nil (c : Source.Characteristics) (names : Option (List String))
    (cap : Nat) :
    selectPanel c names cap ≠ [] := by
  have some_ := (wanted_nonempty c names).card_pos
  rw [← List.length_pos_iff, length_selectPanel]
  omega

private theorem place_lt_of_left_out (asked : r ∈ wanted c names)
    (out : r ∉ selectPanel c names cap) :
    ∀ kept ∈ selectPanel c names cap, place c kept < place c r := by
  intro kept chosen
  have split := rankedPanel_pairwise c names
  rw [← List.take_append_drop (max cap 1) (rankedPanel c names), List.pairwise_append] at split
  refine split.2.2 kept chosen r ?_
  have either := mem_rankedPanel.mpr asked
  rw [← List.take_append_drop (max cap 1) (rankedPanel c names)] at either
  exact (List.mem_append.mp either).resolve_left out

private theorem security_mem_selectPanel (asked : .security ∈ wanted c names) :
    .security ∈ selectPanel c names cap := by
  by_contra out
  obtain ⟨kept, chosen⟩ := List.exists_mem_of_ne_nil _ (selectPanel_ne_nil c names cap)
  have before := place_lt_of_left_out asked out kept chosen
  simp [place, Prod.Lex.toLex_lt_toLex, rank, Reviewer.priority] at before

/-- What a panel of at most `cap` reviewers, and one at least, is chosen by. -/
structure IsSelection (c : Source.Characteristics) (names : Option (List String)) (cap : Nat)
    (panel : List Reviewer) : Prop where
  nodup : panel.Nodup
  length : panel.length = min (max cap 1) (wanted c names).card
  asked : ∀ r ∈ panel, r ∈ wanted c names
  ordered : panel.Pairwise fun r r' => place c r < place c r'
  leftOut : ∀ r ∈ wanted c names, r ∉ panel → ∀ kept ∈ panel, place c kept < place c r
  nonempty : panel ≠ []
  security : .security ∈ wanted c names → .security ∈ panel
  stable : ∀ names', Reviewer.NamesAlike (names.getD []) names' →
    selectPanel c (some names') cap = panel

theorem selectPanel_isSelection (c : Source.Characteristics) (names : Option (List String))
    (cap : Nat) :
    IsSelection c names cap (selectPanel c names cap) where
  nodup := selectPanel_nodup c names cap
  length := length_selectPanel c names cap
  asked := fun r chosen => mem_rankedPanel.mp (List.mem_of_mem_take chosen)
  ordered := (rankedPanel_pairwise c names).sublist (List.take_sublist _ _)
  leftOut := fun _ asked out => place_lt_of_left_out asked out
  nonempty := selectPanel_ne_nil c names cap
  security := security_mem_selectPanel
  stable := by
    intro names' alike
    have same : wanted c (some names') = wanted c names := by
      rw [wanted, wanted, Option.getD_some, named_congr alike]
    rw [selectPanel_eq, selectPanel_eq, rankedPanel_congr same]

/-- A name twice, a name in other spellings and an unknown name. -/
example : selectPanel .empty (some ["MEV", "astrology", "cross chain", "Cross-Chain"]) 6 =
    [.mev, .crossChain] := by
  cbv

end Review

end AuditPanel
