import AuditPanel.Panel.Task
import AuditPanel.Proofs.Retry

/-!
The course of one task. A task by itself is asked, answered and asked again one request after the
other, which is a recursion on the retries left. The queue, which takes events of several tasks in
the order of their times, gives the same for one task: no event changes how the task will end, and
the limits cut what comes too late.
-/

set_option autoImplicit false

namespace AuditPanel

private theorem Retry.wait?_pos {left attempt wait : Nat} {draw : Draw} {e : Failure}
    (waits : Retry.wait? left attempt e draw = some wait) : 0 < left ∧ 0 < wakeAfter wait := by
  unfold Retry.wait? at waits
  split at waits
  · next retried =>
    have spare : 0 < left := by simpa using (Bool.and_eq_true_iff.mp retried).2
    have least := (Retry.backoff_isWait draw e.kind attempt).least
    rw [Option.some.inj waits] at least
    refine ⟨spare, ?_⟩
    unfold wakeAfter
    omega
  · cases waits

namespace TaskTerms

/-- When and how a task ends, if nothing limits it, after a reply comes at a time: the reply to
attempt number `attempt`, with `left` retries left and the next request numbered `made`. A task that
waits in vain has no ending. -/
def endingAfter (terms : TaskTerms) : Nat → Nat → Nat → Nat → Reply → Option (Nat × TaskOutcome)
  | _, _, _, time, .answer _ text => some (time, .answered text)
  | _, _, _, time, .crash _ => some (time, .crashed)
  | _, _, _, _, .silence => none
  | 0, _, _, time, .refusal _ failure => some (time, .failed failure)
  | left + 1, attempt, made, time, .refusal _ failure =>
    match Retry.wait? (left + 1) attempt failure (terms.jitter attempt) with
    | none => some (time, .failed failure)
    | some wait =>
      let reply := terms.reply made
      endingAfter terms left (attempt + 1) (made + 1) (time + wakeAfter wait + reply.delay) reply

/-- When and how a task ends whose first request has number `made`, if nothing limits it. -/
def course (terms : TaskTerms) (made : Nat) : Option (Nat × TaskOutcome) :=
  terms.endingAfter terms.retries 0 (made + 1) (terms.reply made).delay (terms.reply made)

/-- The ending that the limits allow. What comes after the task's own limit is cut, and so is all
that does not come before the deadline. -/
def cut (terms : TaskTerms) : Option (Nat × TaskOutcome) → Option (Nat × TaskOutcome)
  | none => terms.endingAtLimit
  | some (time, outcome) =>
    if time ≤ terms.limits.own ∧ time < terms.limits.deadline then some (time, outcome)
      else terms.endingAtLimit

variable {terms : TaskTerms}

private theorem le_of_endingAfter {left attempt made time : Nat} {reply : Reply}
    {ending : Nat × TaskOutcome}
    (ends : terms.endingAfter left attempt made time reply = some ending) : time ≤ ending.1 := by
  induction left generalizing attempt made time reply with
  | zero => cases reply <;> cases ends <;> exact Nat.le_refl _
  | succ left ih =>
    cases reply with
    | answer => cases ends; exact Nat.le_refl _
    | crash => cases ends; exact Nat.le_refl _
    | silence => cases ends
    | refusal _ failure =>
      unfold endingAfter at ends
      split at ends
      · cases ends; exact Nat.le_refl _
      · have later := ih ends
        omega

theorem endingAfter_refused (left attempt made time delay : Nat) {failure : Failure}
    (fails : Retry.wait? left attempt failure (terms.jitter attempt) = none) :
    terms.endingAfter left attempt made time (.refusal delay failure) =
      some (time, .failed failure) := by
  cases left with
  | zero => rfl
  | succ left => simp only [endingAfter, fails]

theorem endingAfter_retried {left attempt wait : Nat} (made time delay : Nat) {failure : Failure}
    (waits : Retry.wait? left attempt failure (terms.jitter attempt) = some wait) :
    terms.endingAfter left attempt made time (.refusal delay failure) =
      terms.endingAfter (left - 1) (attempt + 1) (made + 1)
        (time + wakeAfter wait + (terms.reply made).delay) (terms.reply made) := by
  cases left with
  | zero => exact absurd (Retry.wait?_pos waits).1 (Nat.lt_irrefl 0)
  | succ left => simp only [endingAfter, waits, Nat.add_sub_cancel]

private theorem cut_of_lt_own {time : Nat} (outcome : TaskOutcome)
    (early : time < terms.limits.own) :
    terms.cut (some (time, outcome)) = some (time, outcome) :=
  if_pos ⟨Nat.le_of_lt early, Nat.lt_of_lt_of_le early terms.limits.own_le_deadline⟩

theorem lt_deadline_of_cut {foreseen : Option (Nat × TaskOutcome)} {ending : Nat × TaskOutcome}
    (ends : terms.cut foreseen = some ending) : ending.1 < terms.limits.deadline := by
  have atLimit (given : terms.endingAtLimit = some ending) : ending.1 < terms.limits.deadline := by
    unfold endingAtLimit at given
    split at given
    · next before => cases given; exact before
    · cases given
  rcases foreseen with _ | ⟨time, outcome⟩
  · exact atLimit ends
  · simp only [cut] at ends
    split at ends
    · next allowed => cases ends; exact allowed.2
    · exact atLimit ends

private theorem cut_of_late {foreseen : Option (Nat × TaskOutcome)}
    (late : ∀ e ∈ foreseen, terms.limits.own < e.1 ∨ terms.limits.deadline ≤ e.1) :
    terms.cut foreseen = terms.endingAtLimit := by
  cases foreseen with
  | none => rfl
  | some ending =>
    refine if_neg fun allowed => ?_
    have := late ending rfl
    omega

end TaskTerms

namespace OpenTask

/-- When and how a task under way ends, if nothing limits it. -/
def outlook (terms : TaskTerms) (made : Nat) (t : OpenTask) : Option (Nat × TaskOutcome) :=
  match t.next with
  | none => none
  | some (time, .send) =>
    let reply := terms.reply made
    terms.endingAfter (terms.retries - t.calls) t.calls (made + 1) (time + reply.delay) reply
  | some (time, .receive reply) =>
    terms.endingAfter (terms.retries - (t.calls - 1)) (t.calls - 1) made time reply

/-- A reply can only come to a task that asked. -/
def IsAsked (t : OpenTask) : Prop :=
  ∀ time reply, t.next = some (time, .receive reply) → 0 < t.calls

/-- A bound on the events that a task has before it. -/
def eventsLeft (terms : TaskTerms) (t : OpenTask) : Nat :=
  match t.next with
  | none => 0
  | some (_, .send) => 2 * (terms.retries - t.calls) + 2
  | some (_, .receive _) => 2 * (terms.retries + 1 - t.calls) + 1

end OpenTask

/-- What an event at a time may do to a task with an outlook: the task ends as foreseen, or it goes
on with the same outlook, fewer than `bound` events before it and none of them now. -/
def TaskProgress.Keeps (terms : TaskTerms) (made time bound : Nat)
    (outlook : Option (Nat × TaskOutcome)) :
    TaskProgress → Prop
  | .ends task => task.ending = outlook ∧ ∃ outcome, outlook = some (time, outcome)
  | .goesOn t =>
    t.IsAsked ∧ t.outlook terms made = outlook ∧ t.eventsLeft terms < bound ∧ ∀ e ∈ t.next,
      time < e.1

theorem TaskProgress.Keeps.mono {terms : TaskTerms} {made time bound bound' : Nat}
    {outlook : Option (Nat × TaskOutcome)} {progress : TaskProgress}
    (kept : progress.Keeps terms made time bound outlook) (wider : bound ≤ bound') :
    progress.Keeps terms made time bound' outlook := by
  cases progress with
  | ends task => exact kept
  | goesOn t =>
    obtain ⟨asked, foreseen, fewer, later⟩ := kept
    exact ⟨asked, foreseen, Nat.lt_of_lt_of_le fewer wider, later⟩

namespace OpenTask

variable {terms : TaskTerms}

private theorem le_of_outlook {made time : Nat} {event : TaskEvent} {t : OpenTask}
    (next : t.next = some (time, event)) :
    ∀ e ∈ t.outlook terms made, time ≤ e.1 := by
  intro e foreseen
  simp only [outlook, next] at foreseen
  cases event with
  | send => exact Nat.le_trans (Nat.le_add_right _ _) (TaskTerms.le_of_endingAfter foreseen)
  | receive reply => exact TaskTerms.le_of_endingAfter foreseen

private theorem lt_of_outlook {made limit : Nat} {t : OpenTask}
    (later : ∀ e ∈ t.next, limit < e.1) :
    ∀ e ∈ t.outlook terms made, limit < e.1 := by
  intro e foreseen
  rcases next : t.next with _ | ⟨time, event⟩
  · simp [outlook, next] at foreseen
  · exact Nat.lt_of_lt_of_le (later _ next) (le_of_outlook next e foreseen)

private theorem receive_keeps (terms : TaskTerms) {t : OpenTask} (asked : 0 < t.calls)
    (made time : Nat) (reply : Reply) :
    (t.receive terms time reply).Keeps terms made time (2 * (terms.retries + 1 - t.calls) + 1)
      (terms.endingAfter (terms.retries - (t.calls - 1)) (t.calls - 1) made time reply) := by
  cases reply with
  | answer delay text =>
    exact ⟨by simp only [TaskTerms.endingAfter], _, by simp only [TaskTerms.endingAfter]; rfl⟩
  | crash delay =>
    exact ⟨by simp only [TaskTerms.endingAfter], _, by simp only [TaskTerms.endingAfter]; rfl⟩
  | silence => exact ⟨nofun, by simp only [TaskTerms.endingAfter, outlook], Nat.succ_pos _, nofun⟩
  | refusal delay failure =>
    cases waits : Retry.wait? (terms.retries - (t.calls - 1)) (t.calls - 1) failure
        (terms.jitter (t.calls - 1)) with
    | none =>
      have ends := TaskTerms.endingAfter_refused _ _ made time delay waits
      simp only [receive, waits, finish, TaskProgress.Keeps, ends]
      exact ⟨trivial, _, rfl⟩
    | some wait =>
      obtain ⟨spare, positive⟩ := Retry.wait?_pos waits
      have retried := TaskTerms.endingAfter_retried made time delay waits
      have left : terms.retries - (t.calls - 1) - 1 = terms.retries - t.calls := by omega
      have attempt : t.calls - 1 + 1 = t.calls := by omega
      rw [left, attempt] at retried
      rw [retried]
      simp only [receive, waits]
      refine ⟨nofun, rfl, ?_, ?_⟩
      · simp only [eventsLeft]
        omega
      · rintro _ ⟨⟩
        exact Nat.lt_add_of_pos_right positive

private theorem handle_keeps (terms : TaskTerms) {t : OpenTask} (asked : t.IsAsked) (made : Nat)
    {time : Nat} {event : TaskEvent} (next : t.next = some (time, event)) :
    (t.handle terms made time event).1.Keeps terms (t.handle terms made time event).2 time
      (t.eventsLeft terms) (t.outlook terms made) := by
  cases event with
  | receive reply =>
    simp only [handle, eventsLeft, outlook, next]
    exact receive_keeps terms (asked time reply next) made time reply
  | send =>
    simp only [handle, send, eventsLeft, outlook, next]
    split
    · next prompt =>
      have kept :=
        receive_keeps terms (t := { t with calls := t.calls + 1 }) (Nat.succ_pos _) (made + 1) time
        (terms.reply made)
      simp only [Nat.add_sub_cancel] at kept
      rw [prompt, Nat.add_zero]
      exact kept.mono (by omega)
    · next delayed =>
      refine ⟨fun _ _ _ => Nat.succ_pos _, ?_, ?_, ?_⟩
      · simp only [outlook, Nat.add_sub_cancel]
      · simp only [eventsLeft]
        omega
      · rintro _ ⟨⟩
        exact Nat.lt_add_of_pos_right (Nat.pos_of_ne_zero delayed)

end OpenTask

namespace TaskQueue

private theorem atLimit_ending (terms : TaskTerms) (made : Nat) {t : OpenTask} (asked : t.IsAsked)
    (due : ∀ e ∈ t.next, terms.limits.own ≤ e.1) :
    (atLimit terms made t).1.ending = terms.cut (t.outlook terms made) := by
  rcases next : t.next with _ | ⟨time, event⟩
  · simp only [atLimit, next, OpenTask.outlook, TaskTerms.cut]
  by_cases counts : time = terms.limits.own ∧ terms.limits.own < terms.limits.deadline
  · obtain ⟨rfl, before⟩ := counts
    have kept := t.handle_keeps terms asked made next
    simp only [atLimit, next, before, and_self, if_true]
    rcases handled : t.handle terms made terms.limits.own event with ⟨progress, made'⟩
    rw [handled] at kept
    cases progress with
    | ends task =>
      obtain ⟨ending, outcome, foreseen⟩ := kept
      simp only [ending, foreseen, TaskTerms.cut, Nat.le_refl, before, and_self, if_true]
    | goesOn t' =>
      obtain ⟨-, foreseen, -, later⟩ := kept
      rw [← foreseen]
      exact (TaskTerms.cut_of_late fun e ends => .inl (OpenTask.lt_of_outlook later e ends)).symm
  · have beyond : terms.limits.own < time ∨ terms.limits.deadline ≤ time := by
      have reached : terms.limits.own ≤ time := due _ next
      omega
    simp only [atLimit, next, if_neg counts]
    refine (TaskTerms.cut_of_late fun e ends => ?_).symm
    have reached := OpenTask.le_of_outlook next e ends
    omega

private theorem tasks_single (terms : TaskTerms) {t : OpenTask} (asked : t.IsAsked) (made : Nat)
    (due : ∀ e ∈ t.next, terms.limits.own ≤ e.1) :
    ∃ calls, (TaskQueue.mk [t] [] made).tasks terms =
      [⟨calls, terms.cut (t.outlook terms made)⟩] := by
  refine ⟨(atLimit terms made t).1.calls, ?_⟩
  rw [← atLimit_ending terms made asked due]
  simp only [tasks, List.reverse_nil, List.mergeSort_singleton, allAtLimit, List.nil_append]

private theorem earliest?_single {limit time : Nat} {event : TaskEvent} {t : OpenTask}
    (next : t.next = some (time, event)) :
    earliest? limit [t] = if time < limit then some (time, event, t) else none := by
  simp only [earliest?, List.foldl_cons, List.foldl_nil, earlier, next, Option.map_none,
    Option.getD_none]

private theorem runToLimit_nil (terms : TaskTerms) (fuel : Nat) (ended : List Task) (made : Nat) :
    runToLimit terms fuel ⟨[], ended, made⟩ = ⟨[], ended, made⟩ := by
  cases fuel <;> rfl

private theorem tasks_runToLimit (terms : TaskTerms) (fuel : Nat) {t : OpenTask} (asked : t.IsAsked)
    (made : Nat) (enough : t.eventsLeft terms ≤ fuel) :
    ∃ calls, ((TaskQueue.mk [t] [] made).runToLimit terms fuel).tasks terms =
      [⟨calls, terms.cut (t.outlook terms made)⟩] := by
  induction fuel generalizing t made with
  | zero =>
    refine tasks_single terms asked made fun e next => ?_
    rcases e with ⟨time, _ | reply⟩ <;> simp [OpenTask.eventsLeft, Option.mem_def.mp next] at enough
  | succ fuel ih =>
    rcases next : t.next with _ | ⟨time, event⟩
    · simp only [runToLimit, earliest?, List.foldl_cons, List.foldl_nil, earlier, next]
      exact tasks_single terms asked made (by simp [next])
    by_cases early : time < terms.limits.own
    · have kept := t.handle_keeps terms asked made next
      have alone : [t].filter (·.place ≠ t.place) = [] := by simp
      simp only [runToLimit, earliest?_single next, if_pos early, afterEvent, alone]
      rcases handled : t.handle terms made time event with ⟨progress, made'⟩
      rw [handled] at kept
      cases progress with
      | ends task =>
        obtain ⟨ending, outcome, foreseen⟩ := kept
        refine ⟨task.calls, ?_⟩
        rw [foreseen, TaskTerms.cut_of_lt_own outcome early, ← foreseen, ← ending]
        simp only [runToLimit_nil, tasks, List.reverse_singleton, List.mergeSort_nil, allAtLimit,
          List.append_nil]
      | goesOn t' =>
        obtain ⟨asked', foreseen, fewer, -⟩ := kept
        obtain ⟨calls, ended⟩ := ih asked' made' (by omega)
        rw [foreseen] at ended
        exact ⟨calls, ended⟩
    · simp only [runToLimit, earliest?_single next, if_neg early]
      refine tasks_single terms asked made ?_
      rintro e present
      cases next.symm.trans present
      exact Nat.not_lt.mp early

end TaskQueue

theorem TaskTerms.tasks_one (terms : TaskTerms) (made : Nat) :
    ∃ calls, terms.tasks 1 made = [⟨calls, terms.cut (terms.course made)⟩] := by
  obtain ⟨calls, ended⟩ :=
    TaskQueue.tasks_runToLimit terms (2 * 1 * (terms.retries + 1)) (t := .start 0) nofun made
      (by simp only [OpenTask.eventsLeft, OpenTask.start]; omega)
  refine ⟨calls, ended.trans ?_⟩
  simp only [OpenTask.outlook, OpenTask.start, TaskTerms.course, Nat.sub_zero, Nat.zero_add]

end AuditPanel
