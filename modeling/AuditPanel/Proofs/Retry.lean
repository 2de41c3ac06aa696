import AuditPanel.Proofs.Addition
import AuditPanel.Proofs.Decimal.Kind
import AuditPanel.Retry
import Mathlib.Algebra.Group.Action.Defs
import Mathlib.Algebra.Order.BigOperators.Group.List
import Mathlib.Order.Bounds.Defs
import Mathlib.Tactic.IntervalCases

/-!
Series of attempts. A series ends with the first attempt that succeeds, fails for good or has no
retry left, and the waits in between grow with the number of the attempt up to a cap. A wait is the
nanosecond next to its seconds, so that a drawn fraction next to one makes up a whole second more.
-/

set_option autoImplicit false

namespace AuditPanel.Retry

open Double

/-- The part of a second that is drawn. -/
def Draw.fraction (draw : Draw) : ℚ :=
  (Decimal.kind draw.value).size

variable {kind : FailureKind} {attempt : Nat} (draw : Draw)

private theorem isNormal_one : IsNormal (2 ^ 52) (-52) :=
  ⟨Nat.le_refl _, by decide, by decide, by decide⟩

private theorem isNormal_cap : IsNormal (15 * 2 ^ 49) (-48) :=
  ⟨by decide, by decide, by decide, by decide⟩

private theorem unpack_one :
    (1.0 : Float).toModel.unpack = .finite .positive (2 ^ 52) (-52) (by decide) := rfl

private theorem unpack_cap :
    capSeconds.toModel.unpack = .finite .positive (15 * 2 ^ 49) (-48) (by decide) := rfl

private theorem unpack_power (few : attempt ≤ 16) : (Float.ofNat (1 <<< attempt)).toModel.unpack =
    .finite .positive (2 ^ 52) (attempt - 52) (by decide) := by
  interval_cases attempt <;> rfl

private theorem one_le_power (few : attempt ≤ 16) : 1.0 ≤ Float.ofNat (1 <<< attempt) := by
  interval_cases attempt <;> decide

private theorem cap_le_power (many : 5 ≤ attempt) (few : attempt ≤ 16) :
    capSeconds ≤ Float.ofNat (1 <<< attempt) := by
  interval_cases attempt <;> decide

private theorem Draw.fraction_bounds :
    draw.value.isInf = false ∧ 0 ≤ draw.fraction ∧ draw.fraction < 1 := by
  obtain ⟨finite, below⟩ := isNormal_one.size_lt unpack_one draw.zero_le draw.lt_one
  rw [Draw.fraction, Decimal.size_kind]
  refine ⟨finite, ?_, below.trans_eq (by norm_num)⟩
  cases draw.value.toModel.unpack with
  | finite s m e positive => exact mul_nonneg m.cast_nonneg (zpow_pos (by norm_num) e).le
  | _ => exact le_rfl

private theorem nanosOf_near (seconds : Float) :
    |(nanosOf seconds : ℚ) - 10 ^ 9 * size seconds.toModel.unpack| ≤ 1 / 2 := by
  rw [← Decimal.size_kind, nanosOf]
  cases Decimal.kind seconds with
  | finite p =>
    rw [mul_comm]
    exact p.inPlaces_near 9
  | _ => norm_num [Decimal.Kind.size]

private theorem size_growingSeconds (few : attempt < 5) :
    size (growingSeconds attempt draw).toModel.unpack ≤ (2 ^ attempt + draw.fraction) * slack ∧
      2 ^ attempt + draw.fraction ≤ size (growingSeconds attempt draw).toModel.unpack * slack := by
  obtain ⟨finite, nonneg, below⟩ := draw.fraction_bounds
  have power : size (Float.ofNat (1 <<< attempt)).toModel.unpack = 2 ^ attempt := by
    rw [unpack_power (by omega), size, zpow_sub₀ (by norm_num), zpow_natCast]
    push_cast
    exact mul_div_cancel₀ _ (by norm_num)
  have least : (1 : ℚ) ≤ 2 ^ attempt := one_le_pow₀ (by norm_num)
  have most : (2 : ℚ) ^ attempt ≤ 2 ^ 4 := pow_le_pow_right₀ (by norm_num) (by omega)
  have zero_le : 0.0 ≤ Float.ofNat (1 <<< attempt) := by interval_cases attempt <;> decide
  have inside : size (Float.ofNat (1 <<< attempt)).toModel.unpack +
      size draw.value.toModel.unpack < overflow := by
    have unit : (1 : ℚ) ≤ 2 ^ (971 : ℤ) := one_le_zpow₀ (by norm_num) (by decide)
    rw [power, ← Decimal.size_kind, ← Draw.fraction, overflow]
    generalize (2 : ℚ) ^ (971 : ℤ) = scale at unit ⊢
    linarith
  have sum := size_add zero_le draw.zero_le finite (power ▸ least) inside
  rw [power, ← Decimal.size_kind draw.value, ← Draw.fraction] at sum
  have uncut : Float.ofNat (1 <<< attempt) + draw.value < capSeconds := by
    by_contra cut
    have number := isNaN_of_zero_le (zero_le_add zero_le draw.zero_le)
    have above := le_of_not_lt number (by decide) cut
    rw [isNormal_cap.le_iff_atLeast unpack_cap] at above
    obtain ⟨upper, lower⟩ := sum
    rw [slack] at upper lower
    generalize (Float.ofNat (1 <<< attempt) + draw.value).toModel.unpack = u at above upper lower
    cases u with
    | finite s m e positive =>
      cases s with
      | negative => exact above
      | positive =>
        obtain ⟨-, -, reached⟩ := above
        norm_num [size] at reached upper
        linarith
    | infinity s =>
      norm_num [size] at lower
      linarith
    | _ => exact above
  rwa [growingSeconds, Nat.min_eq_left (by omega), if_pos uncut]

private theorem growingSeconds_of_le (many : 5 ≤ attempt) :
    growingSeconds attempt draw = capSeconds := by
  refine if_neg fun below => not_le_of_lt below ?_
  exact isNormal_cap.le_add unpack_cap (cap_le_power (by omega) (by omega)) draw.zero_le

private theorem growingSeconds_bounds (attempt : Nat) :
    1.0 ≤ growingSeconds attempt draw ∧ growingSeconds attempt draw ≤ capSeconds := by
  unfold growingSeconds
  simp only
  split
  · next below =>
    refine ⟨isNormal_one.le_add unpack_one (one_le_power (by omega)) draw.zero_le, ?_⟩
    rw [le_iff, lt_iff.mp below]
    rfl
  · decide

/-- The whole seconds of a wait without the drawn fraction. -/
def wholeSeconds (kind : FailureKind) (attempt : Nat) : Nat :=
  if kind = .rateLimit then min (30 + 10 * attempt) 120 else min (2 ^ attempt) 30

/-- What a wait is. Only a fraction less than a nanosecond below one makes up a whole second
more. -/
structure IsWait (kind : FailureKind) (attempt : Nat) (draw : Draw) (wait : Nat) : Prop where
  limited : kind = .rateLimit → wait = 10 ^ 9 * min (30 + 10 * attempt) 120
  capped : kind ≠ .rateLimit → 5 ≤ attempt → wait = 10 ^ 9 * 30
  near : kind ≠ .rateLimit → attempt < 5 →
    |(wait : ℚ) - 10 ^ 9 * (2 ^ attempt + draw.fraction)| ≤ 1 / 2 + 1 / 2 ^ 17
  seconds : wait / 10 ^ 9 = wholeSeconds kind attempt ∨
    kind ≠ .rateLimit ∧ attempt < 5 ∧ 1 - 1 / 10 ^ 9 < draw.fraction ∧
      wait = 10 ^ 9 * (2 ^ attempt + 1)
  carried : kind ≠ .rateLimit → attempt < 5 → 1 - 1 / 2 ^ 31 ≤ draw.fraction →
    wait = 10 ^ 9 * (2 ^ attempt + 1)

private theorem backoff_near (growing : kind ≠ .rateLimit) (few : attempt < 5) :
    |(backoff kind attempt draw : ℚ) - 10 ^ 9 * (2 ^ attempt + draw.fraction)| ≤
      1 / 2 + 1 / 2 ^ 17 := by
  obtain ⟨upper, lower⟩ := size_growingSeconds draw few
  obtain ⟨-, nonneg, below⟩ := draw.fraction_bounds
  have rounded := nanosOf_near (growingSeconds attempt draw)
  have most : (2 : ℚ) ^ attempt ≤ 2 ^ 4 := pow_le_pow_right₀ (by norm_num) (by omega)
  rw [backoff, if_neg growing]
  rw [abs_le] at rounded ⊢
  rw [slack] at upper lower
  constructor <;> linarith

private theorem backoff_capped (growing : kind ≠ .rateLimit) (many : 5 ≤ attempt) :
    backoff kind attempt draw = 10 ^ 9 * 30 := by
  have cap : nanosOf capSeconds = 10 ^ 9 * 30 := by decide
  rw [backoff, if_neg growing, growingSeconds_of_le draw many, cap]

theorem backoff_isWait (kind : FailureKind) (attempt : Nat) :
    IsWait kind attempt draw (backoff kind attempt draw) := by
  by_cases limit : kind = .rateLimit
  · have wait : backoff kind attempt draw = 10 ^ 9 * min (30 + 10 * attempt) 120 := if_pos limit
    rw [wait]
    exact
      { limited := fun _ => rfl
        capped := fun growing => absurd limit growing
        near := fun growing => absurd limit growing
        seconds :=
          .inl (by rw [wholeSeconds, if_pos limit]; exact Nat.mul_div_cancel_left _ (by decide))
        carried := fun growing => absurd limit growing }
  rcases Nat.lt_or_ge attempt 5 with few | many
  · have near := backoff_near draw limit few
    obtain ⟨-, nonneg, below⟩ := draw.fraction_bounds
    generalize backoff kind attempt draw = wait at near
    obtain ⟨upper, lower⟩ := abs_le.mp near
    have least : 10 ^ 9 * 2 ^ attempt ≤ wait := by
      by_contra less
      have less' : (wait : ℚ) + 1 ≤ 10 ^ 9 * 2 ^ attempt := by exact_mod_cast Nat.not_le.mp less
      linarith
    have most : wait ≤ 10 ^ 9 * (2 ^ attempt + 1) := by
      by_contra more
      have more' : (10 : ℚ) ^ 9 * (2 ^ attempt + 1) + 1 ≤ wait := by
        exact_mod_cast Nat.not_le.mp more
      linarith
    have top : 2 ^ attempt ≤ 30 := by
      have power : 2 ^ attempt ≤ 2 ^ 4 := Nat.pow_le_pow_right (by decide) (by omega)
      omega
    exact
      { limited := fun limited => absurd limited limit
        capped := fun _ many => absurd many (by omega)
        near := fun _ _ => near
        seconds := by
          rw [wholeSeconds, if_neg limit, Nat.min_eq_left top]
          rcases Nat.lt_or_ge wait (10 ^ 9 * (2 ^ attempt + 1)) with inside | carried
          · exact .inl (by omega)
          · have reached : (10 : ℚ) ^ 9 * (2 ^ attempt + 1) ≤ wait := by exact_mod_cast carried
            refine .inr ⟨limit, few, ?_, Nat.le_antisymm most carried⟩
            linarith
        carried := by
          intro _ _ high
          refine Nat.le_antisymm most ?_
          by_contra less
          have less' : (wait : ℚ) + 1 ≤ 10 ^ 9 * (2 ^ attempt + 1) := by
            exact_mod_cast Nat.not_le.mp less
          linarith }
  · have wait := backoff_capped draw limit many
    rw [wait]
    have power : 2 ^ 5 ≤ 2 ^ attempt := Nat.pow_le_pow_right (by decide) many
    exact
      { limited := fun limited => absurd limited limit
        capped := fun _ _ => rfl
        near := fun _ few => absurd few (by omega)
        seconds := by
          rw [wholeSeconds, if_neg limit, Nat.min_eq_right (by omega)]
          exact .inl rfl
        carried := fun _ few => absurd few (by omega) }

namespace IsWait

variable {draw} {wait : Nat}

theorem least (isWait : IsWait kind attempt draw wait) : 10 ^ 9 ≤ wait := by
  have whole : 1 ≤ wholeSeconds kind attempt := by
    have power : 1 ≤ 2 ^ attempt := Nat.one_le_two_pow
    unfold wholeSeconds
    split <;> omega
  rcases isWait.seconds with exactly | ⟨-, -, -, more⟩
  · omega
  · rw [more]
    exact Nat.le_mul_of_pos_right _ (Nat.succ_pos _)

theorem most (isWait : IsWait kind attempt draw wait) : wait ≤ 120 * 10 ^ 9 := by
  by_cases limit : kind = .rateLimit
  · have value := isWait.limited limit
    omega
  rcases Nat.lt_or_ge attempt 5 with few | many
  · have power : 2 ^ attempt ≤ 2 ^ 4 := Nat.pow_le_pow_right (by decide) (by omega)
    rcases isWait.seconds with whole | ⟨-, -, -, more⟩
    · rw [wholeSeconds, if_neg limit] at whole
      omega
    · omega
  · have value := isWait.capped limit many
    omega

private theorem seconds_le {draw' : Draw} {later wait' : Nat}
    (isWait : IsWait kind attempt draw wait)
    (isWait' : IsWait kind later draw' wait') (before : attempt < later) :
    wait / 10 ^ 9 ≤ wait' / 10 ^ 9 := by
  have least' : wholeSeconds kind later ≤ wait' / 10 ^ 9 := by
    rcases isWait'.seconds with whole | ⟨growing, few, -, more⟩
    · exact whole.ge
    · rw [wholeSeconds, if_neg growing]
      omega
  refine Nat.le_trans ?_ least'
  have next : 2 ^ (attempt + 1) ≤ 2 ^ later := Nat.pow_le_pow_right (by decide) before
  have some_ : 1 ≤ 2 ^ attempt := Nat.one_le_two_pow
  rw [Nat.pow_succ] at next
  unfold wholeSeconds
  rcases isWait.seconds with whole | ⟨growing, few, -, more⟩
  · rw [whole, wholeSeconds]
    split <;> omega
  · have power : 2 ^ attempt ≤ 2 ^ 4 := Nat.pow_le_pow_right (by decide) (by omega)
    rw [if_neg growing]
    omega

end IsWait

/-- The greatest number that is drawn, one part in `2 ^ 53` below one. -/
def Draw.last : Draw :=
  ⟨0.99999999999999988897769753748434595763683319091796875, by decide, by decide⟩

/-- The first wait with the greatest fraction has two whole seconds. -/
theorem seconds_backoff_last_ne : backoff .network 0 Draw.last / 10 ^ 9 ≠ min (2 ^ 0) 30 := by
  decide

variable {α : Type}

/-- The kind of the failure after which an attempt is repeated as long as there are retries left. -/
def passing? : Except Failure α → Option FailureKind
  | .error e => if e.kind.isRetryable then some e.kind else none
  | .ok _ => none

/-- Whether the attempt with a number is the last one of a series. -/
def IsFinal (retries : Nat) (attemptAt : Nat → Except Failure α) (i : Nat) : Prop :=
  (∃ a, attemptAt i = .ok a) ∨ (∃ e, attemptAt i = .error e ∧ e.kind.isRetryable = false) ∨
    i = retries

private theorem isFinal_iff {retries i : Nat} {attemptAt : Nat → Except Failure α} :
    IsFinal retries attemptAt i ↔ passing? (attemptAt i) = none ∨ i = retries := by
  unfold IsFinal
  cases attemptAt i with
  | ok a => simp [passing?]
  | error e => simp [passing?]

/-- The wait after the attempt with a number, if it is repeated. -/
def waitAfter (attemptAt : Nat → Except Failure α) (draws : Nat → Draw) (i : Nat) : Nat :=
  ((passing? (attemptAt i)).map fun kind => backoff kind i (draws i)).getD 0

theorem exists_of_passing {attemptAt : Nat → Except Failure α} (draws : Nat → Draw) {i : Nat}
    (again : (passing? (attemptAt i)).isSome) :
    ∃ e, attemptAt i = .error e ∧ e.kind.isRetryable = true ∧
      waitAfter attemptAt draws i = backoff e.kind i (draws i) := by
  cases outcome : attemptAt i with
  | ok a => simp [outcome, passing?] at again
  | error e =>
    have passes : e.kind.isRetryable = true := by simpa [outcome, passing?] using again
    exact ⟨e, rfl, passes, by simp [waitAfter, outcome, passing?, passes]⟩

private theorem waitAfter_le (attemptAt : Nat → Except Failure α) (draws : Nat → Draw) (i : Nat) :
    waitAfter attemptAt draws i ≤ 120 * 10 ^ 9 := by
  unfold waitAfter
  cases passing? (attemptAt i) with
  | none => exact Nat.zero_le _
  | some kind => exact (backoff_isWait (draws i) kind i).most

theorem runFrom_succ (attemptAt : Nat → Except Failure α) (draws : Nat → Draw)
    (budget attempt : Nat) :
    runFrom attemptAt draws (budget + 1) attempt =
      if (passing? (attemptAt attempt)).isSome then
        let rest := runFrom attemptAt draws budget (attempt + 1)
        ⟨rest.attempts + 1, waitAfter attemptAt draws attempt :: rest.waits, rest.outcome⟩
      else ⟨1, [], attemptAt attempt⟩ := by
  cases made : attemptAt attempt with
  | ok a => simp [runFrom, made, passing?]
  | error e =>
    cases again : e.kind.isRetryable <;> simp [runFrom, made, passing?, wait?, waitAfter, again]

/-- A series from an attempt on makes some number of retries, as many as it may or until an attempt
is not repeated. -/
theorem exists_runFrom_eq (attemptAt : Nat → Except Failure α) (draws : Nat → Draw)
    (budget attempt : Nat) :
    ∃ k ≤ budget, (∀ i < k, (passing? (attemptAt (attempt + i))).isSome) ∧
      (passing? (attemptAt (attempt + k)) = none ∨ k = budget) ∧
      runFrom attemptAt draws budget attempt =
        ⟨k + 1, (List.range k).map fun i => waitAfter attemptAt draws (attempt + i),
          attemptAt (attempt + k)⟩ := by
  induction budget generalizing attempt with
  | zero => exact ⟨0, Nat.le_refl 0, nofun, .inr rfl, rfl⟩
  | succ budget ih =>
    rw [runFrom_succ]
    split
    · next repeated =>
      obtain ⟨k, bound, before, last, rest⟩ := ih (attempt + 1)
      have shift (i : Nat) : attempt + 1 + i = attempt + (i + 1) := by omega
      refine ⟨k + 1, Nat.succ_le_succ bound, ?_, ?_, ?_⟩
      · intro i below
        cases i with
        | zero => exact repeated
        | succ i => exact shift i ▸ before i (by omega)
      · rcases last with final | rfl
        · exact .inl (shift k ▸ final)
        · exact .inr rfl
      · simp only [rest, shift, List.range_succ_eq_map, List.map_cons, List.map_map, Nat.add_zero]
        rfl
    · next final =>
      have none_ : passing? (attemptAt attempt) = none := by simpa using final
      exact ⟨0, Nat.zero_le _, nofun, .inl none_, rfl⟩

private theorem getElem?_waits_iff {attemptAt : Nat → Except Failure α} {draws : Nat → Draw}
    {n i w : Nat} :
    ((List.range n).map (waitAfter attemptAt draws))[i]? = some w ↔ i < n ∧
      waitAfter attemptAt draws i = w := by
  rw [List.getElem?_map, Option.map_eq_some_iff]
  constructor
  · rintro ⟨k, here, rfl⟩
    obtain ⟨below, rfl⟩ := List.getElem?_eq_some_iff.mp here
    rw [List.getElem_range] at here ⊢
    exact ⟨by simpa using below, rfl⟩
  · rintro ⟨below, rfl⟩
    exact ⟨i, List.getElem?_range below, rfl⟩

private theorem sum_waits_le (attemptAt : Nat → Except Failure α) (draws : Nat → Draw) (n : Nat) :
    ((List.range n).map (waitAfter attemptAt draws)).sum ≤ 120 * 10 ^ 9 * n := by
  have each : ∀ w ∈ (List.range n).map (waitAfter attemptAt draws), w ≤ 120 * 10 ^ 9 := by
    intro w member
    obtain ⟨i, -, rfl⟩ := List.mem_map.mp member
    exact waitAfter_le attemptAt draws i
  have sum := List.sum_le_card_nsmul _ _ each
  rwa [List.length_map, List.length_range, smul_eq_mul, Nat.mul_comm] at sum

/-- What a series of attempts is, where attempt number `n` is the first one after which nothing is
repeated. Waits are in nanoseconds. No wait is lost for want of room: the seconds of limited rates
fit a word before they are cut, and the others are from one to thirty. -/
structure IsSeries (retries : Nat) (attemptAt : Nat → Except Failure α) (draws : Nat → Draw)
    (n : Nat) (run : Run α) : Prop where
  least : IsLeast {i | IsFinal retries attemptAt i} n
  attempts : run.attempts = n + 1
  outcome : run.outcome = attemptAt n
  waits : run.waits.length = n
  wait : ∀ i < n, ∃ e, attemptAt i = .error e ∧ e.kind.isRetryable = true ∧
    run.waits[i]? = some (backoff e.kind i (draws i)) ∧
      IsWait e.kind i (draws i) (backoff e.kind i (draws i))
  steady : ∀ i j e e' w w', i ≤ j → attemptAt i = .error e → attemptAt j = .error e' →
    e.kind = e'.kind → run.waits[i]? = some w → run.waits[j]? = some w' →
      w / 10 ^ 9 ≤ w' / 10 ^ 9
  total : run.waits.sum ≤ 120 * 10 ^ 9 * retries
  representable : ∀ i < 2 ^ 32, 30 + 10 * i < 2 ^ 64 ∧
    ∀ draw, 1.0 ≤ growingSeconds i draw ∧ growingSeconds i draw ≤ 30.0

theorem run_isSeries (retries : Nat) (attemptAt : Nat → Except Failure α) (draws : Nat → Draw) :
    ∃ n, IsSeries retries attemptAt draws n (run retries attemptAt draws) := by
  obtain ⟨n, bound, before, last, made⟩ := exists_runFrom_eq attemptAt draws retries 0
  simp only [Nat.zero_add] at before last made
  have waits {i w : Nat} {e : Failure} (failed : attemptAt i = .error e)
      (given : ((List.range n).map (waitAfter attemptAt draws))[i]? = some w) :
      w = backoff e.kind i (draws i) := by
    obtain ⟨below, rfl⟩ := getElem?_waits_iff.mp given
    obtain ⟨own, failure, -, value⟩ := exists_of_passing draws (before i below)
    obtain rfl : e = own := by simpa [failed] using failure
    exact value
  refine ⟨n, ?_⟩
  rw [run, made]
  exact
    { least := by
        refine ⟨isFinal_iff.mpr last, ?_⟩
        intro i final
        by_contra early
        have again := before i (Nat.not_le.mp early)
        rcases isFinal_iff.mp final with none_ | spent
        · simp [none_] at again
        · omega
      attempts := rfl
      outcome := rfl
      waits := by rw [List.length_map, List.length_range]
      wait := by
        intro i below
        obtain ⟨e, failed, passes, own⟩ := exists_of_passing draws (before i below)
        exact ⟨e, failed, passes, getElem?_waits_iff.mpr ⟨below, own⟩, backoff_isWait _ _ _⟩
      steady := by
        intro i j e e' w w' later failed failed' same given given'
        rcases Nat.eq_or_lt_of_le later with rfl | less
        · exact (Option.some.inj (given.symm.trans given') ▸ Nat.le_refl _)
        · rw [waits failed given, waits failed' given', same]
          exact (backoff_isWait _ _ _).seconds_le (backoff_isWait _ _ _) less
      total := (sum_waits_le attemptAt draws n).trans (Nat.mul_le_mul_left _ bound)
      representable := fun i word => ⟨by omega, fun draw => growingSeconds_bounds draw i⟩ }

end AuditPanel.Retry
