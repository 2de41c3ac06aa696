import AuditPanel.Time.Instant
import Mathlib.Tactic.IntervalCases

/-!
The calendar. Every day has a date, that date is in the calendar and counts back to the day, and
later days have later dates. Years are taken from March to February here, so that the day that leap
years add is their last one.
-/

set_option autoImplicit false

namespace AuditPanel.Instant

structure Date.IsValid (d : Date) : Prop where
  month_pos : 0 < d.month
  month_le : d.month ≤ 12
  day_pos : 0 < d.day
  day_le : d.day ≤ monthLength d.year d.month

def Date.Before (a b : Date) : Prop :=
  a.year < b.year ∨ a.year = b.year ∧ (a.month < b.month ∨ a.month = b.month ∧ a.day < b.day)

/-- The days from the start of an era to that of one of its years, the start of the next era
included. -/
def yearStart (y : Int) : Int :=
  y * 365 + y / 4 - y / 100 + y / 400

/-- The year of an era in which one of its days falls. -/
def yearOf (day : Nat) : Nat :=
  (day - day / 1460 + day / 36524 - day / 146096) / 365

private theorem yearStart_mono {y y' : Int} (le : y ≤ y') : yearStart y ≤ yearStart y' := by
  unfold yearStart
  omega

private theorem yearOf_mono {d e : Nat} (le : d ≤ e) (last : e ≤ 146096) : yearOf d ≤ yearOf e := by
  have whole : d - d / 1460 ≤ e - e / 1460 := by omega
  have centuries : d / 36524 - d / 146096 ≤ e / 36524 - e / 146096 := by omega
  unfold yearOf
  omega

private theorem yearOf_ends :
    ∀ y < 400, yearOf (y * 365 + y / 4 - y / 100) = y ∧
      yearOf ((y + 1) * 365 + (y + 1) / 4 - (y + 1) / 100 + (y + 1) / 400 - 1) = y := by
  decide +kernel

private theorem yearOf_bounds {d : Nat} (inside : d < 146097) :
    yearOf d < 400 ∧ yearStart (yearOf d) ≤ d ∧ (d : Int) < yearStart (yearOf d + 1) := by
  have year : yearOf d < 400 := by
    unfold yearOf
    omega
  have starts : yearStart (yearOf d) ≤ d := by
    by_contra early
    unfold yearStart at early
    -- Then the day is not after the last day of the year before.
    obtain ⟨y, same⟩ : ∃ y, yearOf d = y + 1 := Nat.exists_eq_succ_of_ne_zero (by omega)
    rw [same] at early year
    have before := yearOf_mono (d := d)
      (e := (y + 1) * 365 + (y + 1) / 4 - (y + 1) / 100 + (y + 1) / 400 - 1) (by omega) (by omega)
    rw [(yearOf_ends y (by omega)).2] at before
    omega
  have ends : (d : Int) < yearStart (yearOf d + 1) := by
    by_contra late
    unfold yearStart at late
    obtain ⟨y, same⟩ : ∃ y, yearOf d + 1 = y := ⟨_, rfl⟩
    rw [show (yearOf d : Int) + 1 = y by omega] at late
    rcases Nat.lt_or_ge y 400 with inner | last
    · have after := yearOf_mono (d := y * 365 + y / 4 - y / 100) (e := d) (by omega) (by omega)
      rw [(yearOf_ends y inner).1] at after
      omega
    · omega
  exact ⟨year, starts, ends⟩

/-- The date of a day of a year, both from March. -/
def Date.ofMarch (year dayOfYear : Int) : Date :=
  let shifted := (5 * dayOfYear + 2) / 153
  let month := if shifted < 10 then shifted + 3 else shifted - 9
  ⟨year + if month ≤ 2 then 1 else 0, month.toNat, (dayOfYear - (153 * shifted + 2) / 5 + 1).toNat⟩

/-- A day in a year of an era, both from March. -/
structure MarchDay where
  era : Int
  year : Int
  day : Int
  year_nonneg : 0 ≤ year
  year_lt : year < 400
  day_nonneg : 0 ≤ day
  day_lt : yearStart year + day < yearStart (year + 1)

namespace MarchDay

def number (m : MarchDay) : Int :=
  m.era * 146097 + yearStart m.year + m.day - 719468

def date (m : MarchDay) : Date :=
  .ofMarch (m.year + m.era * 400) m.day

theorem day_le (m : MarchDay) : m.day ≤ 365 := by
  have year := m.year_nonneg
  have next := m.day_lt
  unfold yearStart at next
  omega

private theorem isLeap_of_day (m : MarchDay) (last : m.day = 365) :
    isLeap (m.year + m.era * 400 + 1) = true := by
  have lower := m.year_nonneg
  have upper := m.year_lt
  have next := m.day_lt
  unfold yearStart at next
  have fourth : (m.year + m.era * 400 + 1) % 4 = 0 := by omega
  have century : (m.year + m.era * 400 + 1) % 100 ≠ 0 ∨ (m.year + m.era * 400 + 1) % 400 = 0 := by
    omega
  unfold isLeap
  change ((m.year + m.era * 400 + 1) % 4 == 0 &&
    ((m.year + m.era * 400 + 1) % 100 != 0 || (m.year + m.era * 400 + 1) % 400 == 0)) = true
  simpa [fourth] using century

private theorem dayNumber_date (m : MarchDay) : m.date.dayNumber = m.number := by
  have lower := m.year_nonneg
  have upper := m.year_lt
  have first := m.day_nonneg
  have last := m.day_le
  unfold date Date.ofMarch Date.dayNumber number yearStart
  simp only [Int.fdiv_eq_ediv_of_nonneg _ (show (0 : Int) ≤ 400 by omega)]
  split_ifs <;> omega

private theorem isValid_date (m : MarchDay) : m.date.IsValid := by
  have first := m.day_nonneg
  have last := m.day_le
  unfold date Date.ofMarch
  have shifted_le : (5 * m.day + 2) / 153 ≤ 11 := by omega
  have shifted_nonneg : 0 ≤ (5 * m.day + 2) / 153 := by omega
  generalize named : (5 * m.day + 2) / 153 = shifted at shifted_le shifted_nonneg ⊢
  -- Only February, the last of the twelve months, asks for the year.
  rcases (show shifted = 11 ∨ shifted ≤ 10 by omega) with february | other
  · subst february
    refine ⟨by simp, by simp, by simp; omega, ?_⟩
    have days : monthLength (m.year + m.era * 400 + 1) 2 =
      if isLeap (m.year + m.era * 400 + 1) then 29 else 28 := rfl
    change (m.day - (153 * 11 + 2) / 5 + 1).toNat ≤ monthLength (m.year + m.era * 400 + 1) 2
    rw [days]
    split
    · omega
    · next common =>
      have shorter : m.day ≠ 365 := fun leap => common (m.isLeap_of_day leap)
      omega
  · interval_cases shifted
    all_goals
      refine ⟨by simp, by simp, by simp; omega, ?_⟩
      simp [monthLength]
      omega

private theorem before_date {m m' : MarchDay} (less : m.number < m'.number) :
    m.date.Before m'.date := by
  have nonneg := m.year_nonneg
  have nonneg' := m'.year_nonneg
  have lt := m.year_lt
  have lt' := m'.year_lt
  have first := m.day_nonneg
  have first' := m'.day_nonneg
  have last := m.day_le
  have last' := m'.day_le
  have next := m.day_lt
  have next' := m'.day_lt
  have origin : yearStart 0 = 0 := rfl
  have era : yearStart 400 = 146097 := rfl
  have low := yearStart_mono nonneg
  have low' := yearStart_mono nonneg'
  have high := yearStart_mono (show m.year + 1 ≤ 400 by omega)
  have high' := yearStart_mono (show m'.year + 1 ≤ 400 by omega)
  unfold number at less
  -- Either the years from March differ, or the days of one such year do.
  have earlier : m.year + m.era * 400 < m'.year + m'.era * 400 ∨
      m.year + m.era * 400 = m'.year + m'.era * 400 ∧ m.day < m'.day := by
    rcases lt_trichotomy m.era m'.era with before | same | after
    · exact .inl (by omega)
    · rcases lt_trichotomy m.year m'.year with before | same' | after
      · exact .inl (by omega)
      · rw [same, same'] at less
        exact .inr ⟨by omega, by omega⟩
      · have wrong := yearStart_mono (show m'.year + 1 ≤ m.year by omega)
        rw [same] at less
        omega
    · omega
  unfold date Date.ofMarch Date.Before
  simp only
  rcases earlier with years | ⟨same, days⟩
  · split_ifs <;> omega
  · rw [same]
    split_ifs <;> omega

end MarchDay

private theorem exists_ofDayNumber_eq (n : Int) :
    ∃ m : MarchDay, m.number = n ∧ Date.ofDayNumber n = m.date := by
  have days : Int.fdiv (n + 719468) 146097 = (n + 719468) / 146097 :=
    Int.fdiv_eq_ediv_of_nonneg _ (by omega)
  obtain ⟨d, within⟩ : ∃ d : Nat, (n + 719468) - (n + 719468) / 146097 * 146097 = d :=
    Int.eq_ofNat_of_zero_le (by omega)
  obtain ⟨year, starts, ends⟩ := yearOf_bounds (d := d) (by omega)
  have flat : yearStart (yearOf d) = 365 * (yearOf d : Int) + (yearOf d : Int) / 4 -
      (yearOf d : Int) / 100 := by
    unfold yearStart
    omega
  have found : ((d : Int) - d / 1460 + d / 36524 - d / 146096) / 365 = yearOf d := by
    unfold yearOf
    omega
  refine ⟨⟨(n + 719468) / 146097, yearOf d,
    d - yearStart (yearOf d), by omega, by omega, by omega, by omega⟩, ?_, ?_⟩
  · change (n + 719468) / 146097 * 146097 + yearStart (yearOf d) + (d - yearStart (yearOf d)) -
      719468 = n
    omega
  · unfold Date.ofDayNumber MarchDay.date Date.ofMarch
    simp only [days, within, found, ← flat]

theorem dayNumber_ofDayNumber (n : Int) : (Date.ofDayNumber n).dayNumber = n := by
  obtain ⟨m, same, date⟩ := exists_ofDayNumber_eq n
  rw [date, m.dayNumber_date, same]

theorem isValid_ofDayNumber (n : Int) : (Date.ofDayNumber n).IsValid := by
  obtain ⟨m, -, date⟩ := exists_ofDayNumber_eq n
  rw [date]
  exact m.isValid_date

theorem before_ofDayNumber {n n' : Int} (less : n < n') :
    (Date.ofDayNumber n).Before (Date.ofDayNumber n') := by
  obtain ⟨m, same, date⟩ := exists_ofDayNumber_eq n
  obtain ⟨m', same', date'⟩ := exists_ofDayNumber_eq n'
  rw [date, date']
  apply MarchDay.before_date
  omega

end AuditPanel.Instant
