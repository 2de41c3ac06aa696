import AuditPanel.Proofs.Panel.Course
import AuditPanel.Proofs.Retry

/-!
A task of which each request is answered or refused is a series of attempts: it ends as the series
does, after the delays of its replies and the waits in between.
-/

set_option autoImplicit false

namespace AuditPanel

/-- The attempt that a reply settles. A crash and a silence settle none. -/
def Reply.attempt? : Reply → Option (Except Failure String)
  | .answer _ text => some (.ok text)
  | .refusal _ failure => some (.error failure)
  | .crash _ => none
  | .silence => none

/-- How a task ends whose last attempt came to this. -/
def TaskOutcome.ofAttempt : Except Failure String → TaskOutcome
  | .ok text => .answered text
  | .error failure => .failed failure

namespace TaskTerms

variable {terms : TaskTerms} {attemptAt : Nat → Except Failure String} {made : Nat}

private theorem endingAfter_settled {reply : Reply} {outcome : Except Failure String}
    (settles : reply.attempt? = some outcome)
    {left attempt : Nat} (final : left = 0 ∨ Retry.passing? outcome = none) (next time : Nat) :
    terms.endingAfter left attempt next time reply = some (time, .ofAttempt outcome) := by
  cases reply with
  | answer delay text =>
    cases settles
    cases left <;> rfl
  | refusal delay failure =>
    cases settles
    refine endingAfter_refused left attempt next time delay ?_
    rcases final with rfl | fails
    · simp [Retry.wait?]
    · have lasting : failure.kind.isRetryable = false := by simpa [Retry.passing?] using fails
      simp [Retry.wait?, lasting]
  | crash delay => cases settles
  | silence => cases settles

/-- The time that the replies to `n` requests take from a number on. -/
def delays (terms : TaskTerms) (next n : Nat) : Nat :=
  ((List.range n).map fun i => (terms.reply (next + i)).delay).sum

private theorem delays_succ (terms : TaskTerms) (next n : Nat) :
    terms.delays next (n + 1) = (terms.reply next).delay + terms.delays (next + 1) n := by
  simp only [delays, List.range_succ_eq_map, List.map_cons, List.map_map, List.sum_cons,
    Nat.add_zero]
  congr 3
  funext i
  simp only [Function.comp_apply]
  rw [Nat.add_right_comm, Nat.add_assoc]

private theorem endingAfter_repeated (terms : TaskTerms) {reply : Reply}
    {outcome : Except Failure String}
    (settles : reply.attempt? = some outcome) (again : (Retry.passing? outcome).isSome)
    (left attempt next time : Nat) :
    ∃ e, outcome = .error e ∧ terms.endingAfter (left + 1) attempt next time reply =
      terms.endingAfter left (attempt + 1) (next + 1)
        (time + wakeAfter (Retry.backoff e.kind attempt (terms.jitter attempt)) +
          (terms.reply next).delay) (terms.reply next) := by
  cases reply with
  | answer delay text =>
    cases settles
    cases again
  | refusal delay failure =>
    cases settles
    have passes : failure.kind.isRetryable = true := by simpa [Retry.passing?] using again
    have waits : Retry.wait? (left + 1) attempt failure (terms.jitter attempt) =
        some (Retry.backoff failure.kind attempt (terms.jitter attempt)) := by
      simp [Retry.wait?, passes]
    exact ⟨failure, rfl, endingAfter_retried next time delay waits⟩
  | crash delay => cases settles
  | silence => cases settles

private theorem endingAfter_eq
    (settled : ∀ i, (terms.reply (made + i)).attempt? = some (attemptAt i))
    (left attempt time : Nat) :
    let series := Retry.runFrom attemptAt terms.jitter left attempt
    terms.endingAfter left attempt (made + attempt + 1) time (terms.reply (made + attempt)) =
      some
        (time + (series.waits.map wakeAfter).sum + terms.delays (made + attempt + 1)
          series.waits.length, .ofAttempt series.outcome) := by
  induction left generalizing attempt time with
  | zero => exact endingAfter_settled (settled attempt) (.inl rfl) _ time
  | succ left ih =>
    simp only [Retry.runFrom_succ]
    split
    · next again =>
      obtain ⟨e, failed, goesOn⟩ :=
        endingAfter_repeated terms (settled attempt) again left attempt (made + attempt + 1) time
      have wait : Retry.waitAfter attemptAt terms.jitter attempt = Retry.backoff e.kind attempt
          (terms.jitter attempt) := by
        obtain ⟨e', failed', -, wait⟩ := Retry.exists_of_passing terms.jitter again
        rw [wait]
        cases failed.symm.trans failed'
        rfl
      rw [goesOn, Nat.add_assoc made attempt 1, ih, wait]
      simp only [List.map_cons, List.sum_cons, List.length_cons, delays_succ, Option.some.injEq,
        Prod.mk.injEq, and_true]
      omega
    · next final =>
      have none_ : Retry.passing? (attemptAt attempt) = none := by simpa using final
      exact endingAfter_settled (settled attempt) (.inr none_) _ time

private theorem course_eq_series
    (settled : ∀ i, (terms.reply (made + i)).attempt? = some (attemptAt i)) :
    let series := Retry.run terms.retries attemptAt terms.jitter
    terms.course made =
      some (terms.delays made series.attempts + (series.waits.map wakeAfter).sum,
        .ofAttempt series.outcome) := by
  intro series
  have attempts : series.attempts = series.waits.length + 1 := by
    obtain ⟨k, -, -, -, whole⟩ := Retry.exists_runFrom_eq attemptAt terms.jitter terms.retries 0
    simp only [series, Retry.run, whole, List.length_map, List.length_range]
  refine (endingAfter_eq settled terms.retries 0 (terms.reply made).delay).trans ?_
  rw [attempts, delays_succ, Nat.add_right_comm]
  rfl

/-- The task of a reviewer who is chosen once ends as its series of attempts does, unless a limit
comes first. -/
theorem tasks_one_eq_series
    (settled : ∀ i, (terms.reply (made + i)).attempt? = some (attemptAt i)) :
    let series := Retry.run terms.retries attemptAt terms.jitter
    ∃ calls, terms.tasks 1 made =
      [⟨calls,
        terms.cut
          (some (terms.delays made series.attempts + (series.waits.map wakeAfter).sum,
            .ofAttempt series.outcome))⟩] := by
  intro series
  rw [← course_eq_series settled]
  exact terms.tasks_one made

end TaskTerms

end AuditPanel
