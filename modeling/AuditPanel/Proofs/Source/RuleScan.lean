import AuditPanel.Source.Analysis
import Mathlib.Data.List.Nodup

/-!
What the static scan reports. Every finding is a rule's own on one line, no rule reports a line
twice, and the findings stand in the order of their lines and on one line in that of the rules, so
their keys differ.
-/

set_option autoImplicit false

namespace AuditPanel.Source

/-- A finding as the scanner makes it, on one of the lines from `start` on. -/
structure IsScanned (start : Nat) (f : Finding) : Prop where
  line : ∃ n, start ≤ n ∧ f.affectedLines = [n]
  sources : f.detectedBy = [staticSource]
  consensus : f.consensus = 0.0
  finalConfidence : f.finalConfidence = 0.0

theorem IsScanned.of_le {start start' : Nat} {f : Finding} (le : start ≤ start')
    (h : IsScanned start' f) :
    IsScanned start f where
  line := by
    obtain ⟨n, bound, lines⟩ := h.line
    exact ⟨n, Nat.le_trans le bound, lines⟩
  sources := h.sources
  consensus := h.consensus
  finalConfidence := h.finalConfidence

def ruleIndex (category : String) : Nat :=
  ruleTable.findIdx (·.category == category)

/-- One finding stands on an earlier line than another, or on the same line with an earlier rule. -/
def Precedes (f g : Finding) : Prop :=
  ∃ i j, f.affectedLines = [i] ∧ g.affectedLines = [j] ∧
    (i < j ∨ i = j ∧ ruleIndex f.category < ruleIndex g.category)

private theorem Precedes.key_ne {f g : Finding} (h : Precedes f g) : f.key ≠ g.key := by
  obtain ⟨i, j, line, line', order⟩ := h
  intro same
  have lines : f.affectedLines = g.affectedLines := congrArg FindingKey.lines same
  have category : f.category = g.category := congrArg FindingKey.category same
  rw [line, line', List.cons.injEq] at lines
  rw [category] at order
  omega

private theorem ruleTable_pairwise : ruleTable.Pairwise fun r r' =>
    ruleIndex r.category < ruleIndex r'.category := by
  have places : (ruleTable.map fun r => ruleIndex r.category).Pairwise (· < ·) := by decide
  exact List.pairwise_map.mp places

/-- Whether a rule is tried on a line inside or outside of unchecked blocks. -/
def appliesIn (checked inside : Bool) (r : Rule) : Bool :=
  !(r.category == overflowCategory && checked && !inside)

section Line

variable (applies : Rule → Bool) (number : Nat) (line snippet : List Char)

theorem mem_lineFindings {f : Finding} (h : f ∈ lineFindings applies number line snippet) :
    ∃ r ∈ ruleTable, ∃ c, applies r = true ∧ r.hit? line = some c ∧
      f = r.finding c number snippet := by
  unfold lineFindings at h
  split at h
  · simp at h
  · obtain ⟨r, member, found⟩ := List.mem_filterMap.mp h
    split at found
    · next applicable =>
      obtain ⟨c, hit, rfl⟩ := Option.map_eq_some_iff.mp found
      exact ⟨r, member, c, applicable, hit, rfl⟩
    · simp at found

private theorem isScanned_of_mem_lineFindings {f : Finding}
    (h : f ∈ lineFindings applies number line snippet) :
    f.affectedLines = [number] ∧ IsScanned number f := by
  obtain ⟨r, -, c, -, -, rfl⟩ := mem_lineFindings applies number line snippet h
  exact ⟨rfl, ⟨number, Nat.le_refl number, rfl⟩, rfl, rfl, rfl⟩

private theorem filter_lineFindings (n : Nat) :
    (lineFindings applies number line snippet).filter (·.affectedLines = [n]) =
      if number = n then lineFindings applies number line snippet else [] := by
  have here {f : Finding} (h : f ∈ lineFindings applies number line snippet) :
      f.affectedLines = [n] ↔ number = n := by
    rw [(isScanned_of_mem_lineFindings applies number line snippet h).1, List.cons.injEq]
    exact and_iff_left rfl
  split
  · next same => exact List.filter_eq_self.mpr fun f h => decide_eq_true ((here h).mpr same)
  · next other => exact List.filter_eq_nil_iff.mpr fun f h => by simp [here h, other]

private theorem lineFindings_pairwise :
    (lineFindings applies number line snippet).Pairwise Precedes := by
  have origin {r : Rule} {f : Finding}
      (h : f ∈ if applies r then (r.hit? line).map fun c => r.finding c number snippet else none) :
      f.affectedLines = [number] ∧ f.category = r.category := by
    split at h
    · obtain ⟨c, -, rfl⟩ := Option.map_eq_some_iff.mp h
      exact ⟨rfl, rfl⟩
    · simp at h
  unfold lineFindings
  split
  · simp
  · refine ruleTable_pairwise.filterMap _ ?_
    intro r r' before f hf f' hf'
    refine ⟨number, number, (origin hf).1, (origin hf').1, .inr ⟨rfl, ?_⟩⟩
    rw [(origin hf).2, (origin hf').2]
    exact before

end Line

section Lines

variable (checked : Bool)

private theorem scanFrom_eq_append (number : Nat) (raw : List (List Char)) (inside : List Bool)
    (lines : List (List Char)) (out : List Finding) :
    scanFrom checked number raw inside lines out = out.reverse ++ scanFrom checked number raw inside
      lines [] := by
  induction lines generalizing number raw inside out with
  | nil => simp [scanFrom]
  | cons line rest ih =>
    simp only [scanFrom]
    rw [ih, ih (number + 1) raw.tail inside.tail (List.reverse _ ++ [])]
    simp

theorem scanFrom_cons (number : Nat) (raw : List (List Char)) (inside : List Bool)
    (line : List Char) (rest : List (List Char)) :
    scanFrom checked number raw inside (line :: rest) [] =
      lineFindings (appliesIn checked (inside.headD false)) number line
        (Text.trim (raw.headD line)) ++
        scanFrom checked (number + 1) raw.tail inside.tail rest [] := by
  simp only [scanFrom]
  rw [scanFrom_eq_append, List.append_nil, List.reverse_reverse]
  rfl

private theorem isScanned_of_mem_scanFrom {number : Nat} {raw : List (List Char)}
    {inside : List Bool}
    {lines : List (List Char)} {f : Finding} (h : f ∈ scanFrom checked number raw inside lines []) :
    IsScanned number f := by
  induction lines generalizing number raw inside with
  | nil => simp [scanFrom] at h
  | cons line rest ih =>
    rw [scanFrom_cons, List.mem_append] at h
    rcases h with here | later
    · exact (isScanned_of_mem_lineFindings _ _ _ _ here).2
    · exact (ih later).of_le (Nat.le_succ number)

theorem scanFrom_pairwise (number : Nat) (raw : List (List Char)) (inside : List Bool)
    (lines : List (List Char)) :
    (scanFrom checked number raw inside lines []).Pairwise Precedes := by
  induction lines generalizing number raw inside with
  | nil => simp [scanFrom]
  | cons line rest ih =>
    rw [scanFrom_cons]
    refine List.pairwise_append.mpr ⟨lineFindings_pairwise _ _ _ _, ih _ _ _, ?_⟩
    intro f here f' later
    have line := (isScanned_of_mem_lineFindings _ _ _ _ here).1
    obtain ⟨n, below, line'⟩ := (isScanned_of_mem_scanFrom checked later).line
    exact ⟨number, n, line, line', .inl below⟩

private theorem filter_scanFrom_of_lt {number n : Nat} (earlier : n < number)
    (raw : List (List Char)) (inside : List Bool)
    (lines : List (List Char)) :
    (scanFrom checked number raw inside lines []).filter (·.affectedLines = [n]) = [] := by
  refine List.filter_eq_nil_iff.mpr ?_
  intro f member
  obtain ⟨n', below, line⟩ := (isScanned_of_mem_scanFrom checked member).line
  rw [line, decide_eq_true_eq, List.cons.injEq]
  omega

theorem filter_scanFrom (number : Nat) (raw : List (List Char)) (inside : List Bool)
    {lines : List (List Char)} {n : Nat} {line : List Char} (place : lines[n]? = some line) :
    (scanFrom checked number raw inside lines []).filter (·.affectedLines = [number + n]) =
      lineFindings (appliesIn checked (inside[n]?.getD false)) (number + n) line
        (Text.trim (raw[n]?.getD line)) := by
  induction lines generalizing number n raw inside with
  | nil => simp at place
  | cons first rest ih =>
    rw [scanFrom_cons, List.filter_append]
    cases n with
    | zero =>
      obtain rfl : first = line := by simpa using place
      rw [Nat.add_zero, filter_lineFindings, if_pos rfl,
        filter_scanFrom_of_lt checked (Nat.lt_succ_self number), List.append_nil]
      cases raw <;> cases inside <;> rfl
    | succ n =>
      have later := ih (number + 1) raw.tail inside.tail (by simpa using place)
      rw [Nat.add_assoc, Nat.add_comm 1 n] at later
      rw [filter_lineFindings, if_neg (by omega), later, List.nil_append]
      cases raw <;> cases inside <;> rfl

theorem exists_line_of_mem_scanFrom {number : Nat} {raw : List (List Char)} {inside : List Bool}
    {lines : List (List Char)} {f : Finding} (h : f ∈ scanFrom checked number raw inside lines []) :
    ∃ n line, lines[n]? = some line ∧ f.affectedLines = [number + n] := by
  induction lines generalizing number raw inside with
  | nil => simp [scanFrom] at h
  | cons line rest ih =>
    rw [scanFrom_cons, List.mem_append] at h
    rcases h with here | later
    · exact ⟨0, line, rfl, (isScanned_of_mem_lineFindings _ _ _ _ here).1⟩
    · obtain ⟨n, line, place, lines⟩ := ih later
      exact ⟨n + 1, line, by simpa using place, by rw [lines, Nat.add_assoc, Nat.add_comm 1 n]⟩

private theorem isScanned_of_mem_scan {raw cleaned : List Char} {f : Finding}
    (h : f ∈ scan raw cleaned checked) :
    IsScanned 1 f :=
  isScanned_of_mem_scanFrom checked h

private theorem scan_keys_nodup (raw cleaned : List Char) :
    ((scan raw cleaned checked).map Finding.key).Nodup :=
  List.pairwise_map.mpr ((scanFrom_pairwise checked _ _ _ _).imp Precedes.key_ne)

end Lines

section Analysis

variable {source : List Char} {a : Analysis}

private theorem analyze_findings (h : analyze source = .ok a) :
    ∃ cleaned checked, a.findings = scan source cleaned checked := by
  unfold analyze at h
  split at h
  · simp at h
  · simp only [Except.ok.injEq] at h
    subst h
    exact ⟨_, _, rfl⟩

theorem isScanned_of_mem_analyze (h : analyze source = .ok a) {f : Finding} (hf : f ∈ a.findings) :
    IsScanned 1 f := by
  obtain ⟨cleaned, checked, found⟩ := analyze_findings h
  rw [found] at hf
  exact isScanned_of_mem_scan checked hf

theorem analyze_keys_nodup (h : analyze source = .ok a) : (a.findings.map Finding.key).Nodup := by
  obtain ⟨cleaned, checked, found⟩ := analyze_findings h
  rw [found]
  exact scan_keys_nodup checked source cleaned

end Analysis

end AuditPanel.Source
