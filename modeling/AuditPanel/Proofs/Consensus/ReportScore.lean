import AuditPanel.Proofs.Addition
import AuditPanel.Report.Counts

/-!
The range of a report's score and what it is with the usual points. Points that are not below zero
never lead out of the range; points that are no number make the score none either. Sums of the usual
points are exact below the best score and never come back under it, so that rounding is not seen in
a score.
-/

set_option autoImplicit false

namespace AuditPanel.Consensus

open Double Float.Model

private theorem zero_le_sum {xs : List Float} (h : ∀ x ∈ xs, 0.0 ≤ x) : 0.0 ≤ sum xs := by
  have run (start : Float) (from_ : 0.0 ≤ start) : 0.0 ≤ xs.foldl (· + ·) start := by
    induction xs generalizing start with
    | nil => exact from_
    | cons x xs ih =>
      exact ih (fun y member => h y (List.mem_cons_of_mem _ member)) _
        (zero_le_add from_ (h x List.mem_cons_self))
  exact run _ (by decide)

private theorem isNaN_sum {xs : List Float} (h : ∃ x ∈ xs, x.isNaN) : (sum xs).isNaN := by
  have run (start : Float) (some_ : start.isNaN ∨ ∃ x ∈ xs, x.isNaN) :
      (xs.foldl (· + ·) start).isNaN := by
    clear h
    induction xs generalizing start with
    | nil => simpa using some_
    | cons x xs ih =>
      refine ih _ ?_
      rcases some_ with here | ⟨y, member, here⟩
      · exact .inl (isNaN_add_of_isNaN (.inl here))
      · rcases List.mem_cons.mp member with rfl | later
        · exact .inl (isNaN_add_of_isNaN (.inr here))
        · exact .inr ⟨y, later, here⟩
  exact run _ (.inr h)

private theorem isNaN_maxScore_sub (x : Float) : (maxScore - x).isNaN = x.isNaN := by
  by_cases none_ : x.isNaN
  · rw [none_]
    exact isNaN_unpack_pack_of_isNaN (isNaN_sub _ none_)
  · rw [Bool.of_not_eq_true none_]
    have best : ∃ m e pos, maxScore.toModel.unpack = .finite .positive m e pos := ⟨_, _, _, rfl⟩
    obtain ⟨m, e, pos, best⟩ := best
    refine isNaN_unpack_pack ?_
    rw [best]
    exact isNaN_finite_sub _ (Bool.of_not_eq_true none_)

private theorem isNaN_zero : (0.0 : Float).isNaN = false := rfl

private theorem isNaN_maxScore : maxScore.isNaN = false := rfl

private theorem isNaN_clamp (x : Float) : (clamp x 0.0 maxScore).isNaN = x.isNaN := by
  by_cases none_ : x.isNaN
  · have incomparable (y : Float) : ¬x < y ∧ ¬y < x :=
      ⟨not_lt_iff.mpr (.inr (.inl none_)), not_lt_iff.mpr (.inr (.inr none_))⟩
    rw [clamp, if_neg (incomparable _).1, if_neg (incomparable _).2]
  · have number := Bool.of_not_eq_true none_
    simp only [clamp]
    repeat' split
    all_goals simp only [isNaN_zero, isNaN_maxScore, number]

private theorem clamp_mem_range {x : Float} (number : x.isNaN = false) :
    0.0 ≤ clamp x 0.0 maxScore ∧ clamp x 0.0 maxScore ≤ maxScore := by
  have range : (0.0 : Float) ≤ maxScore ∧ maxScore ≤ maxScore := by decide
  by_cases under : x < 0.0
  · rw [clamp, if_pos under]
    exact ⟨by decide, by decide⟩
  · have above : 0.0 ≤ x := le_of_not_lt number isNaN_zero under
    rw [clamp, if_neg under]
    split
    · exact range
    · next within =>
      have below : x ≤ maxScore := le_of_not_lt isNaN_maxScore number within
      exact ⟨above, below⟩

variable {findings : List Finding} {penalties : Penalties}

theorem reportScore_mem_range (number : (reportScore findings penalties).isNaN = false) :
    0.0 ≤ reportScore findings penalties ∧ reportScore findings penalties ≤ maxScore := by
  rw [reportScore, isNaN_clamp] at number
  exact clamp_mem_range number

/-- If no points are below zero, a score is no number exactly when the points of some finding are
none. -/
theorem isNaN_reportScore
    (points : ∀ severity, 0.0 ≤ penalties.of severity ∨ (penalties.of severity).isNaN) :
    (reportScore findings penalties).isNaN ↔ ∃ f ∈ findings, (penalties.of f.severity).isNaN := by
  rw [reportScore, isNaN_clamp, isNaN_maxScore_sub]
  constructor
  · intro none_
    by_contra numbers
    have above : 0.0 ≤ sum (findings.map fun f => penalties.of f.severity) := by
      refine zero_le_sum fun x member => ?_
      obtain ⟨f, listed, rfl⟩ := List.mem_map.mp member
      exact (points f.severity).resolve_right fun none_ => numbers ⟨f, listed, none_⟩
    rw [isNaN_of_zero_le above] at none_
    cases none_
  · rintro ⟨f, listed, none_⟩
    exact isNaN_sum ⟨_, List.mem_map_of_mem listed, none_⟩

/-- The usual points as whole numbers. -/
def standardPoints : Severity → Nat
  | .critical => 40
  | .high => 25
  | .medium => 15
  | .low => 5

/-- A whole number as a sum of points. The empty sum has a minus sign. -/
def exactSum (n : Nat) : Float :=
  if n = 0 then -0.0 else Float.ofNat n

/-- A sum of the usual points is exact below the best score, and never comes back under it. -/
structure IsPointSum (n : Nat) (s : Float) : Prop where
  fives : 5 ∣ n
  exact : n < 100 → s = exactSum n
  full : 100 ≤ n → maxScore ≤ s

private theorem isNormal_maxScore : IsNormal (100 * 2 ^ 46) (-46) := by
  constructor <;> decide

private theorem unpack_maxScore :
    maxScore.toModel.unpack = .finite .positive (100 * 2 ^ 46) (-46) (by decide) := rfl

private theorem five_dvd_standardPoints (severity : Severity) : 5 ∣ standardPoints severity := by
  cases severity <;> decide

private theorem exactSum_add_standard (severity : Severity) : ∀ k < 20,
    (5 * k + standardPoints severity < 100 →
      exactSum (5 * k) + Penalties.standard.of severity =
        exactSum (5 * k + standardPoints severity)) ∧
    (100 ≤ 5 * k + standardPoints severity → maxScore ≤ exactSum (5 * k) +
      Penalties.standard.of severity) := by
  cases severity <;> decide +kernel

private theorem zero_le_standard (severity : Severity) : 0.0 ≤ Penalties.standard.of severity := by
  cases severity <;> decide

theorem IsPointSum.add {n : Nat} {s : Float} (h : IsPointSum n s) (severity : Severity) :
    IsPointSum (n + standardPoints severity) (s + Penalties.standard.of severity) := by
  have fives := Nat.dvd_add h.fives (five_dvd_standardPoints severity)
  rcases Nat.lt_or_ge n 100 with below | above
  · rw [h.exact below]
    obtain ⟨k, rfl⟩ := h.fives
    obtain ⟨exact, full⟩ := exactSum_add_standard severity k (by omega)
    exact ⟨fives, exact, full⟩
  · refine ⟨fives, fun below => ?_, fun _ => ?_⟩
    · omega
    · exact isNormal_maxScore.le_add unpack_maxScore (h.full above) (zero_le_standard severity)

def pointsOf (findings : List Finding) : Nat :=
  (findings.map fun f => standardPoints f.severity).sum

private theorem isPointSum_sum (findings : List Finding) :
    IsPointSum (pointsOf findings)
      (sum (findings.map fun f => Penalties.standard.of f.severity)) := by
  have run (n : Nat) (s : Float) (h : IsPointSum n s) : IsPointSum (n + pointsOf findings)
      ((findings.map fun f => Penalties.standard.of f.severity).foldl (· + ·) s) := by
    induction findings generalizing n s with
    | nil => exact h
    | cons f findings ih =>
      have rest := ih _ _ (h.add f.severity)
      rwa [Nat.add_assoc] at rest
  have start : IsPointSum 0 (-0.0) := ⟨Nat.dvd_zero 5, fun _ => rfl, fun full => by omega⟩
  rw [sum, ← Nat.zero_add (pointsOf findings)]
  exact run 0 (-0.0) start

private theorem pointsOf_eq (findings : List Finding) :
    let n := SeverityCounts.ofFindings findings
    pointsOf findings = 40 * n.critical + 25 * n.high + 15 * n.medium + 5 * n.low := by
  induction findings with
  | nil => rfl
  | cons f findings ih =>
    have first : pointsOf (f :: findings) = standardPoints f.severity + pointsOf findings := rfl
    rw [first]
    simp only [SeverityCounts.ofFindings, SeverityCounts.countOf, List.countP_cons] at ih ⊢
    rw [ih]
    cases f.severity <;> simp [standardPoints] <;> omega

private theorem clamp_exactSum : ∀ k < 20,
    clamp (maxScore - exactSum (5 * k)) 0.0 maxScore =
      Float.ofInt (max 0 (100 - ((5 * k : Nat) : Int))) := by
  decide +kernel

private theorem IsPointSum.clamp_eq {n : Nat} {s : Float} (h : IsPointSum n s) :
    clamp (maxScore - s) 0.0 maxScore = Float.ofInt (max 0 (100 - (n : Int))) := by
  rcases Nat.lt_or_ge n 100 with below | above
  · rw [h.exact below]
    obtain ⟨k, rfl⟩ := h.fives
    exact clamp_exactSum k (by omega)
  · have none : max 0 (100 - (n : Int)) = 0 := by omega
    rw [none]
    rcases isNormal_maxScore.sub_le_zero (by decide) unpack_maxScore (h.full above) with zero |
      negative
    · rw [zero]
      decide
    · rw [clamp, if_pos negative]
      decide

/-- With the usual points a score is the best one less the points of the findings by their counts,
whatever their order and the rest of them, and zero at the least. With any points that are not below
zero it is a number within its range. -/
theorem reportScore_standard (findings : List Finding) :
    let n := SeverityCounts.ofFindings findings
    reportScore findings .standard =
        Float.ofInt (max 0 (100 - (40 * n.critical + 25 * n.high + 15 * n.medium + 5 * n.low))) ∧
      (∀ others : List Finding, (others.map (·.severity)).Perm (findings.map (·.severity)) →
        reportScore others .standard = reportScore findings .standard) ∧
      ∀ penalties : Penalties, (∀ severity, 0.0 ≤ penalties.of severity) →
        (reportScore findings penalties).isNaN = false ∧
          0.0 ≤ reportScore findings penalties ∧ reportScore findings penalties ≤ maxScore := by
  intro n
  have score (findings : List Finding) :
      reportScore findings .standard = Float.ofInt (max 0 (100 - (pointsOf findings : Int))) :=
    (isPointSum_sum findings).clamp_eq
  refine ⟨?_, ?_, ?_⟩
  · rw [score, pointsOf_eq]
    push_cast
    rfl
  · intro others shuffled
    have points : pointsOf others = pointsOf findings := by
      have sums := (shuffled.map standardPoints).sum_nat
      rwa [List.map_map, List.map_map] at sums
    rw [score, score, points]
  · intro penalties nonnegative
    have number : (reportScore findings penalties).isNaN = false := by
      rw [← Bool.not_eq_true, isNaN_reportScore fun severity => .inl (nonnegative severity)]
      rintro ⟨f, -, none⟩
      rw [isNaN_of_zero_le (nonnegative f.severity)] at none
      cases none
    exact ⟨number, reportScore_mem_range number⟩

/-- Two findings in either order, three of them together, and points without end. -/
theorem reportScore_standard_either :
    let finding (severity : Severity) : Finding := { (default : Finding) with severity }
    let endless : Penalties := ⟨1.0 / 0.0, 0.0, 0.0, 0.0⟩
    reportScore [finding .low, finding .high] .standard = 70.0 ∧
      reportScore [finding .high, finding .low] .standard =
        reportScore [finding .low, finding .high] .standard ∧
      reportScore ([.critical, .medium, .low].map finding) .standard = 40.0 ∧
      (reportScore [finding .critical] endless).isNaN = false ∧
        0.0 ≤ reportScore [finding .critical] endless := by
  intro finding endless
  obtain ⟨score, others, -⟩ := reportScore_standard [finding .low, finding .high]
  have swapped := others [finding .high, finding .low] (.swap _ _ _)
  have whole := (reportScore_standard ([.critical, .medium, .low].map finding)).1
  have nonnegative : ∀ severity, 0.0 ≤ endless.of severity := by
    intro severity
    cases severity <;> decide
  obtain ⟨number, least, -⟩ := (reportScore_standard [finding .critical]).2.2 endless nonnegative
  exact ⟨score.trans (by decide), swapped, whole.trans (by decide), number, least⟩

end AuditPanel.Consensus
