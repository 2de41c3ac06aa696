import AuditPanel.Text.Letters
import AuditPanel.Text.LowerCase

/-!
Lower case as a projection. A lower-case character is its own lower case, and letters and digits
stay what they are. The capital I with a dot above is the exception to the second law: its lower
case is a letter and a dot that is none.
-/

set_option autoImplicit false

namespace AuditPanel.Text

private theorem exists_of_inRanges {ranges : List (Nat × Nat)} {n : Nat}
    (inside : inRanges ranges n) :
    ∃ r ∈ ranges, r.1 ≤ n ∧ n ≤ r.2 := by
  induction ranges with
  | nil => simp [inRanges] at inside
  | cons r ranges ih =>
    obtain ⟨lo, hi⟩ := r
    simp only [inRanges] at inside
    split at inside
    · simp at inside
    · next above =>
      split at inside
      · next below => exact ⟨(lo, hi), List.mem_cons_self, by omega, below⟩
      · obtain ⟨r, member, bounds⟩ := ih inside
        exact ⟨r, List.mem_cons_of_mem _ member, bounds⟩

theorem of_inRanges {ranges : List (Nat × Nat)} {P : Char → Prop}
    (points : ∀ r ∈ ranges, ∀ n ∈ List.range' r.1 (r.2 + 1 - r.1), P (Char.ofNat n)) {c : Char}
    (inside : inRanges ranges c.toNat) : P c := by
  obtain ⟨r, member, bounds⟩ := exists_of_inRanges inside
  have listed : c.toNat ∈ List.range' r.1 (r.2 + 1 - r.1) := List.mem_range'_1.mpr (by omega)
  rw [← Char.ofNat_toNat c]
  exact points r member c.toNat listed

/-- Whether one of the ranges, which stand in increasing order, holds all numbers from `a` to
`b`. -/
def covers : List (Nat × Nat) → Nat → Nat → Bool
  | [], _, _ => false
  | (lo, hi) :: rest, a, b => lo.ble a && (b.ble hi || (hi.blt a && covers rest a b))

private theorem inRanges_of_covers {ranges : List (Nat × Nat)} {a b n : Nat}
    (cover : covers ranges a b) (low : a ≤ n) (high : n ≤ b) : inRanges ranges n := by
  induction ranges with
  | nil => simp [covers] at cover
  | cons r ranges ih =>
    obtain ⟨lo, hi⟩ := r
    simp only [covers, Bool.and_eq_true, Bool.or_eq_true, Nat.ble_eq, Nat.blt_eq] at cover
    obtain ⟨above, below | ⟨beyond, later⟩⟩ := cover
    · rw [inRanges, if_neg (by omega), if_pos (by omega)]
    · rw [inRanges, if_neg (by omega), if_neg (by omega), ih later]

private theorem bounds_of_inRanges_letterRanges {n : Nat} (letter : inRanges letterRanges n) :
    0x80 ≤ n ∧ (Char.ofNat n).toNat = n := by
  have bounds : ∀ r ∈ letterRanges, 0x80 ≤ r.1 ∧
      (r.2 < 0xD800 ∨ 0xDFFF < r.1 ∧ r.2 < 0x110000) := by
    decide +kernel
  obtain ⟨r, member, low, high⟩ := exists_of_inRanges letter
  obtain ⟨aboveAscii, valid⟩ := bounds r member
  have character : n.isValidChar := by
    unfold Nat.isValidChar
    omega
  refine ⟨Nat.le_trans aboveAscii low, ?_⟩
  rw [Char.ofNat, dif_pos character]
  rfl

namespace CaseRun

/-- Whether a run gives the lower case of a number. -/
def Holds (r : CaseRun) (n : Nat) : Prop :=
  r.first ≤ n ∧ n ≤ r.last ∧ (n - r.first) % r.step = 0

/-- The lower case of a number by a run. -/
def image (r : CaseRun) (n : Nat) : Nat :=
  ((n : Int) + r.shift).toNat

/-- Whether the lower case by the first run lies outside of the second run: apart from it, or in the
gaps of its steps. -/
def misses (r r' : CaseRun) : Bool :=
  (r.image r.last).blt r'.first || r'.last.blt (r.image r.first) ||
    (r.step == 2 || r.first == r.last) && r'.step == 2 && (r.image r.first + r'.first) % 2 == 1

variable {r r' : CaseRun} {n : Nat}

private theorem Holds.image_bounds (holds : r.Holds n) :
    r.image r.first ≤ r.image n ∧ r.image n ≤ r.image r.last := by
  obtain ⟨low, high, -⟩ := holds
  simp only [image]
  omega

private theorem Holds.not_holds_image (holds : r.Holds n) (nonnegative : 0 ≤ r.first + r.shift)
    (miss : r.misses r') :
    ¬r'.Holds (r.image n) := by
  obtain ⟨low, high⟩ := holds.image_bounds
  obtain ⟨above, below, step⟩ := holds
  have first : (r.image r.first : Int) = r.first + r.shift := Int.toNat_of_nonneg nonnegative
  have code : (r.image n : Int) = n + r.shift := Int.toNat_of_nonneg (by omega)
  rintro ⟨above', below', step'⟩
  simp only [misses, Bool.or_eq_true, Bool.and_eq_true, Nat.blt_eq, beq_iff_eq] at miss
  obtain (before | behind) | ⟨⟨single, double⟩, odd⟩ := miss
  · omega
  · omega
  · -- The lower case is at an even distance from that of the first number, and so at an
    -- odd one from the second run.
    rw [double] at step'
    rcases single with two | one
    · rw [two] at step
      omega
    · omega

end CaseRun

private theorem lowerIn_eq (runs : List CaseRun) (n : Nat) :
    lowerIn runs n = n ∨ ∃ r ∈ runs, r.Holds n ∧ lowerIn runs n = r.image n := by
  induction runs with
  | nil => exact .inl rfl
  | cons r runs ih =>
    by_cases holds : r.Holds n
    · exact .inr ⟨r, List.mem_cons_self, holds, if_pos holds⟩
    · rw [show lowerIn (r :: runs) n = lowerIn runs n from if_neg holds]
      rcases ih with same | ⟨r', member, holds', same⟩
      · exact .inl same
      · exact .inr ⟨r', List.mem_cons_of_mem _ member, holds', same⟩

private theorem lowerIn_of_not_holds {runs : List CaseRun} {n : Nat}
    (outside : ∀ r ∈ runs, ¬r.Holds n) :
    lowerIn runs n = n := by
  rcases lowerIn_eq runs n with same | ⟨r, member, holds, -⟩
  · exact same
  · exact absurd holds (outside r member)

/-- What the table says of one of its runs. The run of the Kelvin sign is the only one that leads to
ASCII, and none leads to a capital I with a dot. -/
structure CaseRun.IsPlain (r : CaseRun) : Prop where
  nonnegative : 0 ≤ r.first + r.shift
  noDot : r.image r.last < 0x130 ∨ 0x130 < r.image r.first
  kelvin : r.first = 0x212A → r.last = 0x212A ∧ r.image 0x212A = 'k'.toNat
  letters : r.first ≠ 0x212A → covers letterRanges (r.image r.first) (r.image r.last)
  missed : caseRuns.all r.misses

private theorem isPlain_of_mem {r : CaseRun} (member : r ∈ caseRuns) : r.IsPlain := by
  have table : ∀ r ∈ caseRuns, 0 ≤ r.first + r.shift ∧
    (r.image r.last < 0x130 ∨ 0x130 < r.image r.first) ∧
      (r.first = 0x212A → r.last = 0x212A ∧ r.image 0x212A = 'k'.toNat) ∧
      (r.first ≠ 0x212A → covers letterRanges (r.image r.first) (r.image r.last)) := by
        decide +kernel
  -- Two tables, for a pass over all pairs of runs takes far more memory than one over the runs.
  have pairs : ∀ r ∈ caseRuns, caseRuns.all r.misses := by decide +kernel
  obtain ⟨nonnegative, noDot, kelvin, letters⟩ := table r member
  exact ⟨nonnegative, noDot, kelvin, letters, pairs r member⟩

section Image

variable {r : CaseRun} {n : Nat}

private theorem lowerIn_image (member : r ∈ caseRuns) (holds : r.Holds n) :
    lowerIn caseRuns (r.image n) = r.image n := by
  have plain := isPlain_of_mem member
  refine lowerIn_of_not_holds ?_
  intro r' member'
  exact holds.not_holds_image plain.nonnegative (List.all_eq_true.mp plain.missed r' member')

private theorem letter_image (member : r ∈ caseRuns) (holds : r.Holds n)
    (above : r.first ≠ 0x212A) :
    inRanges letterRanges (r.image n) := by
  obtain ⟨low, high⟩ := holds.image_bounds
  exact inRanges_of_covers ((isPlain_of_mem member).letters above) low high

end Image

private theorem isAlphanumeric_of_letter {c : Char} (letter : inRanges letterRanges c.toNat) :
    isAlphanumeric c := by
  have above := (bounds_of_inRanges_letterRanges letter).1
  rwa [isAlphanumeric, if_neg (by omega)]

private theorem lowerChar_of_above {c : Char} (above : 0x80 ≤ c.toNat) (other : c.toNat ≠ 0x130) :
    lowerChar c = [Char.ofNat (lowerIn caseRuns c.toNat)] := by
  rw [lowerChar, if_neg (by omega), if_neg other]

private theorem ascii_toLower {c : Char} (ascii : c.toNat < 0x80) :
    lowerChar c.toLower = [c.toLower] ∧ isAlphanumeric c.toLower = isAlphanumeric c := by
  have table : ∀ n < 0x80, lowerChar (Char.ofNat n).toLower = [(Char.ofNat n).toLower] ∧
      isAlphanumeric (Char.ofNat n).toLower = isAlphanumeric (Char.ofNat n) := by decide +kernel
  simpa only [Char.ofNat_toNat] using table c.toNat ascii

theorem lowerChar_dotted : lowerChar 'İ' = ['i', '\u0307'] := by
  rw [lowerChar, if_neg (by decide), if_pos (by decide)]

/-- The characters that take part in the special rules and are not above their lower case in the
table. -/
private theorem lowerChar_special : (∀ d ∈ ['i', '\u0307', 'ς', 'σ'], lowerChar d = [d]) ∧
    lowerChar 'Σ' ≠ ['Σ'] := by
  -- The list itself is asked, so that no instance goes through all characters for it.
  have table : (['i', '\u0307', 'ς', 'σ'].all fun d => lowerChar d == [d]) ∧
    lowerChar 'Σ' ≠ ['Σ'] := by decide +kernel
  refine ⟨?_, table.2⟩
  intro d member
  exact eq_of_beq (List.all_eq_true.mp table.1 d member)

private theorem exists_lowerChar_eq {c : Char} (other : c ≠ 'İ') :
    ∃ d, lowerChar c = [d] ∧ lowerChar d = [d] ∧ (isAlphanumeric c → isAlphanumeric d) := by
  by_cases ascii : c.toNat < 0x80
  · obtain ⟨own, stays⟩ := ascii_toLower ascii
    exact ⟨c.toLower, by rw [lowerChar, if_pos ascii], own, fun letter => stays.trans letter⟩
  · have above : 0x80 ≤ c.toNat := Nat.le_of_not_lt ascii
    have point : c.toNat ≠ 0x130 := fun same => other (Char.toNat_inj.mp same)
    have lower := lowerChar_of_above above point
    rcases lowerIn_eq caseRuns c.toNat with same | ⟨r, member, holds, same⟩
    · rw [same, Char.ofNat_toNat] at lower
      exact ⟨c, lower, lower, id⟩
    · rw [same] at lower
      have plain := isPlain_of_mem member
      by_cases sign : r.first = 0x212A
      · obtain ⟨last, image⟩ := plain.kelvin sign
        have code : c.toNat = 0x212A := by
          have := holds.1
          have := holds.2.1
          omega
        rw [code, image] at lower
        exact ⟨'k', lower, by decide, fun _ => by decide⟩
      · have letter := letter_image member holds sign
        obtain ⟨aboveAscii, code⟩ := bounds_of_inRanges_letterRanges letter
        have bounds := holds.image_bounds
        have noDot := plain.noDot
        refine ⟨_, lower, ?_, fun _ => isAlphanumeric_of_letter (by rwa [code])⟩
        rw [lowerChar_of_above (by omega) (by omega), code, lowerIn_image member holds]

theorem lowerChar_of_mem {c d : Char} (member : d ∈ lowerChar c) : lowerChar d = [d] := by
  by_cases dotted : c = 'İ'
  · rw [dotted, lowerChar_dotted] at member
    exact lowerChar_special.1 d (List.mem_append_left ['ς', 'σ'] member)
  · obtain ⟨e, lower, own, -⟩ := exists_lowerChar_eq dotted
    rw [lower, List.mem_singleton] at member
    rwa [member]

theorem isAlphanumeric_of_mem_lowerChar {c d : Char} (letter : isAlphanumeric c) (other : c ≠ 'İ')
    (member : d ∈ lowerChar c) : isAlphanumeric d := by
  obtain ⟨e, lower, -, stays⟩ := exists_lowerChar_eq other
  rw [lower, List.mem_singleton] at member
  rw [member]
  exact stays letter

theorem lowerChar_ne_nil (c : Char) : lowerChar c ≠ [] := by
  by_cases dotted : c = 'İ'
  · rw [dotted, lowerChar_dotted]
    simp
  · obtain ⟨d, lower, -⟩ := exists_lowerChar_eq dotted
    simp [lower]

theorem toLower_of_not_ascii {c : Char} (other : ¬ c.toNat < 0x80) : c.toLower = c := by
  refine dif_neg ?_
  rintro ⟨-, below⟩
  have bound : c.toNat ≤ 90 := UInt32.le_iff_toNat_le.mp below
  omega

theorem lowerChar_toLower (c : Char) :
    lowerChar c.toLower = lowerChar c ∧ isAlphanumeric c.toLower = isAlphanumeric c := by
  by_cases ascii : c.toNat < 0x80
  · obtain ⟨own, stays⟩ := ascii_toLower ascii
    refine ⟨?_, stays⟩
    rw [own, lowerChar, if_pos ascii]
  · rw [toLower_of_not_ascii ascii]
    exact ⟨rfl, rfl⟩

private theorem lowerFrom_eq_append (before out s : List Char) :
    lowerFrom before out s = out.reverse ++ lowerFrom before [] s := by
  induction s generalizing before out with
  | nil => simp [lowerFrom]
  | cons c s ih =>
    simp only [lowerFrom]
    split
    · rw [ih, ih (c :: before) [_]]
      simp
    · rw [ih, ih (c :: before) (_ ++ _)]
      simp

private theorem lowerFrom_cons (before : List Char) (c : Char) (s : List Char) :
    ∃ ds, lowerFrom before [] (c :: s) = ds ++ lowerFrom (c :: before) [] s ∧
      (ds = lowerChar c ∨ c = 'Σ' ∧ (ds = ['ς'] ∨ ds = ['σ'])) := by
  simp only [lowerFrom]
  split
  · next sigma =>
    refine ⟨_, lowerFrom_eq_append _ _ _, .inr ⟨sigma, ?_⟩⟩
    split <;> simp
  · refine ⟨_, lowerFrom_eq_append _ _ _, .inl ?_⟩
    simp

private theorem lowerChar_of_mem_lowerFrom {before s : List Char} {d : Char}
    (member : d ∈ lowerFrom before [] s) :
    lowerChar d = [d] := by
  induction s generalizing before with
  | nil => simp [lowerFrom] at member
  | cons c s ih =>
    obtain ⟨ds, split, kind⟩ := lowerFrom_cons before c s
    rw [split, List.mem_append] at member
    rcases member with here | later
    · rcases kind with rfl | ⟨-, rfl | rfl⟩
      · exact lowerChar_of_mem here
      · exact lowerChar_special.1 d (by simp_all)
      · exact lowerChar_special.1 d (by simp_all)
    · exact ih later

theorem lowerChar_of_mem_toLower {s : List Char} {d : Char} (member : d ∈ toLower s) :
    lowerChar d = [d] :=
  lowerChar_of_mem_lowerFrom member

private theorem lowerFrom_eq_flatMap {before s : List Char} (plain : 'Σ' ∉ s) :
    lowerFrom before [] s = s.flatMap lowerChar := by
  induction s generalizing before with
  | nil => rfl
  | cons c s ih =>
    obtain ⟨head, tail⟩ : c ≠ 'Σ' ∧ 'Σ' ∉ s := by simpa [eq_comm] using plain
    obtain ⟨ds, split, kind⟩ := lowerFrom_cons before c s
    rcases kind with rfl | ⟨sigma, -⟩
    · rw [split, ih tail, List.flatMap_cons]
    · exact absurd sigma head

theorem toLower_eq_flatMap {s : List Char} (plain : 'Σ' ∉ s) : toLower s = s.flatMap lowerChar :=
  lowerFrom_eq_flatMap plain

theorem flatMap_lowerChar_of_lower {s : List Char} (lower : ∀ c ∈ s, lowerChar c = [c]) :
    s.flatMap lowerChar = s := by
  rw [List.flatMap_def, List.map_congr_left lower, ← List.flatMap_def, List.flatMap_singleton']

theorem toLower_of_lower {s : List Char} (lower : ∀ c ∈ s, lowerChar c = [c]) : toLower s = s := by
  have plain : 'Σ' ∉ s := fun member => lowerChar_special.2 (lower 'Σ' member)
  rw [toLower_eq_flatMap plain, flatMap_lowerChar_of_lower lower]

end AuditPanel.Text
