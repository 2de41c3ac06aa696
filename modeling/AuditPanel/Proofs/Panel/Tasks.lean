import AuditPanel.Panel.Task
import Mathlib.Data.List.Count
import Mathlib.Data.List.Nodup

/-!
The tasks of a reviewer, however often it is chosen. None of them is lost while the queue goes from
event to event, and none ends at the deadline or later.
-/

set_option autoImplicit false

namespace AuditPanel

/-- What an event at a time does to the task with a place: it goes on in its place or ends at that
time. -/
def TaskProgress.IsOf (place time : Nat) : TaskProgress → Prop
  | .goesOn t => t.place = place
  | .ends task => ∃ outcome, task.ending = some (time, outcome)

/-- Whether a task that ended did so before a time. -/
def Task.EndsBefore (limit : Nat) (task : Task) : Prop :=
  ∀ ending ∈ task.ending, ending.1 < limit

/-- A task ends at its own limit if that comes before the deadline, and not at all otherwise. -/
def Task.EndsAtLimit (limits : TaskLimits) (task : Task) : Prop :=
  if limits.own < limits.deadline then ∃ e ∈ task.ending, e.1 = limits.own
  else task.ending = none

private theorem Task.EndsAtLimit.endsBefore {limits : TaskLimits} {task : Task}
    (ends : task.EndsAtLimit limits) : task.EndsBefore limits.deadline := by
  intro ending present
  unfold EndsAtLimit at ends
  split at ends
  · next before =>
    obtain ⟨e, own, at_⟩ := ends
    cases own.symm.trans present
    exact at_ ▸ before
  · exact absurd (ends.symm.trans present) nofun

variable {terms : TaskTerms}

namespace OpenTask

private theorem receive_isOf (terms : TaskTerms) (t : OpenTask) (time : Nat) (reply : Reply) :
    (t.receive terms time reply).IsOf t.place time := by
  cases reply with
  | answer delay text => exact ⟨_, rfl⟩
  | crash delay => exact ⟨_, rfl⟩
  | silence => exact rfl
  | refusal delay failure =>
    simp only [receive]
    split
    · exact rfl
    · exact ⟨_, rfl⟩

private theorem handle_isOf (terms : TaskTerms) (made : Nat) (t : OpenTask) (time : Nat)
    (event : TaskEvent) :
    (t.handle terms made time event).1.IsOf t.place time := by
  cases event with
  | receive reply => exact t.receive_isOf terms time reply
  | send =>
    simp only [handle, send]
    split
    · exact receive_isOf terms { t with calls := t.calls + 1 } time _
    · exact rfl

end OpenTask

namespace TaskQueue

/-- A queue in which a number of tasks are kept apart by their places, and the ended ones ended
before the deadline. -/
structure Holds (terms : TaskTerms) (count : Nat) (q : TaskQueue) : Prop where
  places : (q.waiting.map (·.place)).Nodup
  total : q.waiting.length + q.ended.length = count
  ended : ∀ task ∈ q.ended, task.EndsBefore terms.limits.deadline

variable {count : Nat} {q : TaskQueue}

private theorem start_holds (terms : TaskTerms) (count made : Nat) :
    (start count made).Holds terms count where
  places := by
    have own : ((start count made).waiting.map (·.place)) = List.range count := by
      simp [start, OpenTask.start, Function.comp_def]
    rw [own]
    exact List.nodup_range
  total := by simp [start]
  ended := nofun

private theorem earlier_cases {limit : Nat} {best : Option (Nat × TaskEvent × OpenTask)}
    (bound : ∀ e ∈ best, e.1 < limit) (t : OpenTask) :
    earlier limit best t = best ∨ ∃ time event, earlier limit best t = some (time, event, t) ∧
      t.next = some (time, event) ∧ time < limit := by
  unfold earlier
  split
  · exact .inl rfl
  · next time event next =>
    split
    · next before =>
      refine .inr ⟨time, event, rfl, next, ?_⟩
      cases best with
      | none => exact before
      | some e => exact Nat.lt_trans before (bound e rfl)
    · exact .inl rfl

/-- The earliest of all events is one of a waiting task, or the one that was best before; it comes
before the limit. -/
private theorem mem_of_foldl_earlier {limit time : Nat} {event : TaskEvent} {t : OpenTask}
    {waiting : List OpenTask} {best : Option (Nat × TaskEvent × OpenTask)}
    (bound : ∀ e ∈ best, e.1 < limit)
    (found : waiting.foldl (earlier limit) best = some (time, event, t)) :
    (t ∈ waiting ∧ t.next = some (time, event) ∨ best = some (time, event, t)) ∧ time < limit := by
  induction waiting generalizing best with
  | nil => exact ⟨.inr found, bound _ found⟩
  | cons u waiting ih =>
    rw [List.foldl_cons] at found
    rcases earlier_cases bound u with same | ⟨time', event', next, own, before⟩
    · rw [same] at found
      exact (ih bound found).imp_left (.imp_left (.imp_left (List.mem_cons_of_mem u)))
    · rw [next] at found
      refine (ih (by rintro _ ⟨⟩; exact before) found).imp_left fun either => .inl ?_
      rcases either with ⟨later, next'⟩ | same
      · exact ⟨List.mem_cons_of_mem u later, next'⟩
      · cases same
        exact ⟨List.mem_cons_self, own⟩

private theorem mem_of_earliest? {limit time : Nat} {event : TaskEvent} {t : OpenTask}
    {waiting : List OpenTask} (found : earliest? limit waiting = some (time, event, t)) :
    t ∈ waiting ∧ t.next = some (time, event) ∧ time < limit := by
  obtain ⟨own, before⟩ := mem_of_foldl_earlier (by simp) found
  obtain ⟨member, next⟩ := own.resolve_right (by simp)
  exact ⟨member, next, before⟩

private theorem length_others {waiting : List OpenTask} (places : (waiting.map (·.place)).Nodup)
    {t : OpenTask}
    (member : t ∈ waiting) : (waiting.filter (·.place ≠ t.place)).length + 1 = waiting.length := by
  have once : waiting.countP (·.place = t.place) = 1 := by
    rw [← List.count_eq_one_of_mem places (List.mem_map_of_mem member), List.count_eq_countP,
      List.countP_map]
    exact List.countP_congr fun u _ => by simp
  have parts :=
    List.length_eq_countP_add_countP (fun u : OpenTask => decide (u.place = t.place)) (l := waiting)
  rw [once, List.countP_eq_length_filter, Nat.add_comm] at parts
  simpa using parts.symm

private theorem afterEvent_holds (holds : q.Holds terms count) {time : Nat} {event : TaskEvent}
    {t : OpenTask} (member : t ∈ q.waiting) (early : time < terms.limits.deadline) :
    (q.afterEvent terms time event t).Holds terms count := by
  have own := t.handle_isOf terms q.made time event
  have others := length_others holds.places member
  have apart : ((q.waiting.filter (·.place ≠ t.place)).map (·.place)).Nodup :=
    holds.places.sublist (List.filter_sublist.map _)
  have total := holds.total
  rcases handled : t.handle terms q.made time event with ⟨progress, made⟩
  rw [handled] at own
  cases progress with
  | goesOn t' =>
    have same : t'.place = t.place := own
    have after : q.afterEvent terms time event t =
        ⟨q.waiting.filter (·.place ≠ t.place) ++ [t'], q.ended, made⟩ := by
      simp only [afterEvent, handled]
    rw [after]
    refine ⟨?_, ?_, holds.ended⟩
    · rw [List.map_append, List.map_singleton, same, List.nodup_append_comm]
      refine List.nodup_cons.mpr ⟨?_, apart⟩
      intro again
      obtain ⟨u, other, placed⟩ := List.mem_map.mp again
      simp [placed] at other
    · simp only [List.length_append, List.length_singleton]
      omega
  | ends task =>
    obtain ⟨outcome, ending⟩ := own
    have after : q.afterEvent terms time event t =
        ⟨q.waiting.filter (·.place ≠ t.place), task :: q.ended, made⟩ := by
      simp only [afterEvent, handled]
    rw [after]
    refine ⟨apart, ?_, ?_⟩
    · simp only [List.length_cons]
      omega
    · intro task' member'
      rcases List.mem_cons.mp member' with rfl | before
      · intro e present
        rw [ending] at present
        cases present
        exact early
      · exact holds.ended task' before

private theorem runToLimit_holds (fuel : Nat) (holds : q.Holds terms count) :
    (q.runToLimit terms fuel).Holds terms count := by
  induction fuel generalizing q with
  | zero => exact holds
  | succ fuel ih =>
    unfold runToLimit
    split
    · exact holds
    · next time event t found =>
      obtain ⟨member, -, early⟩ := mem_of_earliest? found
      exact ih
        (afterEvent_holds holds member (Nat.lt_of_lt_of_le early terms.limits.own_le_deadline))

private theorem atLimit_ends (terms : TaskTerms) (made : Nat) (t : OpenTask) :
    (atLimit terms made t).1.EndsAtLimit terms.limits := by
  have cut (calls : Nat) : (Task.mk calls terms.endingAtLimit).EndsAtLimit terms.limits := by
    unfold Task.EndsAtLimit TaskTerms.endingAtLimit
    split
    · exact ⟨_, rfl, rfl⟩
    · rfl
  rcases next : t.next with _ | ⟨time, event⟩
  · simpa only [atLimit, next] using cut t.calls
  by_cases counts : time = terms.limits.own ∧ terms.limits.own < terms.limits.deadline
  · have own := t.handle_isOf terms made time event
    simp only [atLimit, next, if_pos counts]
    rcases handled : t.handle terms made time event with ⟨progress, made'⟩
    rw [handled] at own
    cases progress with
    | goesOn t' => exact cut t'.calls
    | ends task =>
      obtain ⟨outcome, ending⟩ := own
      rw [Task.EndsAtLimit, if_pos counts.2]
      exact ⟨_, ending, counts.1⟩
  · simpa only [atLimit, next, if_neg counts] using cut t.calls

private theorem allAtLimit_ends (terms : TaskTerms) (made : Nat) (waiting : List OpenTask) :
    ∀ task ∈ allAtLimit terms made waiting, task.EndsAtLimit terms.limits := by
  induction waiting generalizing made with
  | nil => nofun
  | cons t waiting ih =>
    intro task member
    simp only [allAtLimit, List.mem_cons] at member
    rcases member with rfl | later
    · exact atLimit_ends terms made t
    · exact ih _ task later

private theorem allAtLimit_length (terms : TaskTerms) (made : Nat) (waiting : List OpenTask) :
    (allAtLimit terms made waiting).length = waiting.length := by
  induction waiting generalizing made with
  | nil => rfl
  | cons t waiting ih => simp only [allAtLimit, List.length_cons, ih]

end TaskQueue

namespace Task

variable {t u v : Task}

theorem endsNoLater_iff : t.endsNoLater u = true ↔ ∀ e' ∈ u.ending, ∃ e ∈ t.ending, e.1 ≤ e'.1 := by
  unfold endsNoLater
  cases t.ending <;> cases u.ending <;> simp

theorem endsNoLater_trans (first : t.endsNoLater u) (second : u.endsNoLater v) :
    t.endsNoLater v := by
  rw [endsNoLater_iff] at first second ⊢
  intro e'' last
  obtain ⟨e', middle, le'⟩ := second e'' last
  obtain ⟨e, own, le⟩ := first e' middle
  exact ⟨e, own, Nat.le_trans le le'⟩

theorem endsNoLater_total (t u : Task) : (t.endsNoLater u || u.endsNoLater t) = true := by
  unfold endsNoLater
  cases t.ending <;> cases u.ending <;> simp [Nat.le_total]

end Task

/-- What an event at a time leaves for later: nothing of the task comes before that time. -/
def TaskProgress.IsFrom (time : Nat) : TaskProgress → Prop
  | .goesOn t => ∀ e ∈ t.next, time ≤ e.1
  | .ends _ => True

private theorem OpenTask.receive_isFrom (terms : TaskTerms) (t : OpenTask) (time : Nat)
    (reply : Reply) :
    (t.receive terms time reply).IsFrom time := by
  cases reply with
  | refusal delay failure =>
    simp only [receive]
    split
    · rintro _ ⟨⟩
      exact Nat.le_add_right _ _
    · exact trivial
  | silence => rintro _ ⟨⟩
  | _ => exact trivial

private theorem OpenTask.handle_isFrom (terms : TaskTerms) (made : Nat) (t : OpenTask) (time : Nat)
    (event : TaskEvent) : (t.handle terms made time event).1.IsFrom time := by
  cases event with
  | receive reply => exact t.receive_isFrom terms time reply
  | send =>
    simp only [handle, send]
    split
    · exact receive_isFrom terms { t with calls := t.calls + 1 } time _
    · rintro _ ⟨⟩
      exact Nat.le_add_right _ _

namespace TaskQueue

/-- A queue at a time: nothing that waits comes before it, and what ended did so by then, the last
one first. -/
structure IsAt (now : Nat) (q : TaskQueue) : Prop where
  waiting : ∀ t ∈ q.waiting, ∀ e ∈ t.next, now ≤ e.1
  ended : ∀ task ∈ q.ended, ∃ e ∈ task.ending, e.1 ≤ now
  order : q.ended.Pairwise fun t u => u.endsNoLater t

variable {now : Nat} {q : TaskQueue}

private theorem start_isAt (count made : Nat) : (start count made).IsAt 0 where
  waiting _ _ _ _ := Nat.zero_le _
  ended := by simp [start]
  order := .nil

/-- The time of the best event so far, or else the limit. -/
private def bestTime (limit : Nat) (best : Option (Nat × TaskEvent × OpenTask)) : Nat :=
  (best.map (·.1)).getD limit

private theorem bestTime_earlier_le (limit : Nat) (best : Option (Nat × TaskEvent × OpenTask))
    (t : OpenTask) :
    bestTime limit (earlier limit best t) ≤ bestTime limit best ∧
      ∀ e ∈ t.next, bestTime limit (earlier limit best t) ≤ e.1 := by
  unfold earlier
  split
  · next none_ =>
    rw [none_]
    exact ⟨Nat.le_refl _, nofun⟩
  · next time event next =>
    rw [next]
    split
    · next before =>
      refine ⟨Nat.le_of_lt before, ?_⟩
      rintro _ ⟨⟩
      exact Nat.le_refl time
    · next late =>
      refine ⟨Nat.le_refl _, ?_⟩
      rintro _ ⟨⟩
      exact Nat.not_lt.mp late

private theorem bestTime_foldl_le (limit : Nat) (waiting : List OpenTask)
    (best : Option (Nat × TaskEvent × OpenTask)) :
    bestTime limit (waiting.foldl (earlier limit) best) ≤ bestTime limit best ∧
      ∀ t ∈ waiting, ∀ e ∈ t.next, bestTime limit (waiting.foldl (earlier limit) best) ≤ e.1 := by
  induction waiting generalizing best with
  | nil => exact ⟨Nat.le_refl _, nofun⟩
  | cons t waiting ih =>
    obtain ⟨least, own⟩ := bestTime_earlier_le limit best t
    obtain ⟨before, rest⟩ := ih (earlier limit best t)
    refine ⟨Nat.le_trans before least, fun u member e next => ?_⟩
    rcases List.mem_cons.mp member with rfl | later
    · exact Nat.le_trans before (own e next)
    · exact rest u later e next

private theorem earliest?_le {limit time : Nat} {event : TaskEvent} {t : OpenTask}
    {waiting : List OpenTask} (found : earliest? limit waiting = some (time, event, t)) :
    ∀ u ∈ waiting, ∀ e ∈ u.next, time ≤ e.1 := by
  have least := (bestTime_foldl_le limit waiting none).2
  rw [earliest?] at found
  rw [found] at least
  exact least

private theorem afterEvent_isAt (isAt : q.IsAt now) {limit time : Nat} {event : TaskEvent}
    {t : OpenTask} (found : earliest? limit q.waiting = some (time, event, t)) :
    (q.afterEvent terms time event t).IsAt time := by
  have least := earliest?_le found
  obtain ⟨member, next, -⟩ := mem_of_earliest? found
  have reached : now ≤ time := isAt.waiting t member _ next
  have own := t.handle_isOf terms q.made time event
  have after := t.handle_isFrom terms q.made time event
  have others : ∀ u ∈ q.waiting.filter (·.place ≠ t.place), ∀ e ∈ u.next, time ≤ e.1 :=
    fun u other => least u (List.mem_filter.mp other).1
  have past : ∀ task ∈ q.ended, ∃ e ∈ task.ending, e.1 ≤ time := by
    intro task before
    obtain ⟨e, ends, le⟩ := isAt.ended task before
    exact ⟨e, ends, Nat.le_trans le reached⟩
  unfold afterEvent
  generalize t.handle terms q.made time event = handled at own after
  obtain ⟨_ | task, made⟩ := handled
  · refine ⟨fun u waits => ?_, past, isAt.order⟩
    rcases List.mem_append.mp waits with other | same
    · exact others u other
    · rw [List.mem_singleton.mp same]
      exact after
  · obtain ⟨outcome, ends⟩ := own
    refine ⟨others, ?_, List.pairwise_cons.mpr ⟨fun u before => ?_, isAt.order⟩⟩
    · exact List.forall_mem_cons.mpr ⟨⟨_, ends, Nat.le_refl time⟩, past⟩
    · rw [Task.endsNoLater_iff]
      rintro e' last
      obtain ⟨e, ended, le⟩ := past u before
      rw [ends] at last
      cases last
      exact ⟨e, ended, le⟩

private theorem exists_runToLimit_isAt (fuel : Nat) (isAt : q.IsAt now)
    (inTime : now ≤ terms.limits.own) :
    ∃ now' ≤ terms.limits.own, (q.runToLimit terms fuel).IsAt now' := by
  induction fuel generalizing q now with
  | zero => exact ⟨now, inTime, isAt⟩
  | succ fuel ih =>
    unfold runToLimit
    split
    · exact ⟨now, inTime, isAt⟩
    · next found =>
      obtain ⟨-, -, early⟩ := mem_of_earliest? found
      exact ih (afterEvent_isAt isAt found) (Nat.le_of_lt early)

end TaskQueue

theorem TaskTerms.length_tasks (terms : TaskTerms) (count made : Nat) :
    (terms.tasks count made).length = count := by
  have holds :=
    TaskQueue.runToLimit_holds (2 * count * (terms.retries + 1))
      (TaskQueue.start_holds terms count made)
  rw [TaskTerms.tasks, TaskQueue.tasks, List.length_append, List.length_reverse,
    TaskQueue.allAtLimit_length, List.length_mergeSort, Nat.add_comm, holds.total]

theorem TaskTerms.endsBefore_of_mem_tasks {count made : Nat} {task : Task}
    (member : task ∈ terms.tasks count made) :
    task.EndsBefore terms.limits.deadline := by
  have holds :=
    TaskQueue.runToLimit_holds (2 * count * (terms.retries + 1))
      (TaskQueue.start_holds terms count made)
  rcases List.mem_append.mp member with ended | atLimit
  · exact holds.ended task (List.mem_reverse.mp ended)
  · exact (TaskQueue.allAtLimit_ends terms _ _ task atLimit).endsBefore

private theorem Task.EndsAtLimit.endsNoLater {limits : TaskLimits} {t u : Task}
    (inTime : limits.own < limits.deadline → ∃ e ∈ t.ending, e.1 ≤ limits.own)
    (last : u.EndsAtLimit limits) : t.endsNoLater u := by
  rw [Task.endsNoLater_iff]
  unfold EndsAtLimit at last
  split at last
  · next before =>
    obtain ⟨e', own', at'⟩ := last
    obtain ⟨e, own, le⟩ := inTime before
    rintro _ latest
    cases own'.symm.trans latest
    exact ⟨e, own, at' ▸ le⟩
  · rw [last]
    nofun

theorem TaskTerms.tasks_order (terms : TaskTerms) (count made : Nat) :
    (terms.tasks count made).Pairwise fun t u => t.endsNoLater u := by
  obtain ⟨now, inTime, isAt⟩ :=
    TaskQueue.exists_runToLimit_isAt (2 * count * (terms.retries + 1))
      (TaskQueue.start_isAt count made) (Nat.zero_le terms.limits.own)
  have left := TaskQueue.allAtLimit_ends terms
  refine List.pairwise_append.mpr ⟨List.pairwise_reverse.mpr isAt.order, ?_, ?_⟩
  · refine List.pairwise_of_forall_mem_list fun t member u member' =>
      (left _ _ u member').endsNoLater fun before => ?_
    have ends := left _ _ t member
    rw [Task.EndsAtLimit, if_pos before] at ends
    exact ends.imp fun e => .imp_right Nat.le_of_eq
  · intro t ended u atLimit
    obtain ⟨e, own, le⟩ := isAt.ended t (List.mem_reverse.mp ended)
    exact (left _ _ u atLimit).endsNoLater fun _ => ⟨e, own, Nat.le_trans le inTime⟩

end AuditPanel
