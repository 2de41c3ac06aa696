import AuditPanel.Proofs.Panel.Session

/-!
What the words of failures can change in a session. Retries, times and endings depend on the kinds
of failures alone, so taking the words away commutes with every event of a queue of tasks. Sessions
whose reviewers differ in such words make the same requests in the same time, and their results
differ only in the texts of failures.
-/

set_option autoImplicit false

namespace AuditPanel

def Failure.wordless (e : Failure) : Failure :=
  { e with detail := "" }

def Reply.wordless : Reply → Reply
  | .refusal delay e => .refusal delay e.wordless
  | reply => reply

def Panel.wordless (panel : Panel) : Panel :=
  { panel with reply := fun r n prompt => (panel.reply r n prompt).wordless }

def TaskOutcome.wordless : TaskOutcome → TaskOutcome
  | .failed e => .failed e.wordless
  | outcome => outcome

def Task.wordless (t : Task) : Task :=
  { t with ending := t.ending.map fun e => (e.1, e.2.wordless) }

def TaskEvent.wordless : TaskEvent → TaskEvent
  | .send => .send
  | .receive reply => .receive reply.wordless

def OpenTask.wordless (t : OpenTask) : OpenTask :=
  { t with next := t.next.map fun e => (e.1, e.2.wordless) }

def TaskProgress.wordless : TaskProgress → TaskProgress
  | .goesOn t => .goesOn t.wordless
  | .ends task => .ends task.wordless

def TaskQueue.wordless (q : TaskQueue) : TaskQueue :=
  ⟨q.waiting.map .wordless, q.ended.map .wordless, q.made⟩

def TaskTerms.wordless (terms : TaskTerms) : TaskTerms :=
  { terms with reply := fun n => (terms.reply n).wordless }

@[simp] theorem Reply.delay_wordless (reply : Reply) : reply.wordless.delay = reply.delay := by
  cases reply <;> rfl

private theorem Task.wordless_wordless (task : Task) : task.wordless.wordless = task.wordless := by
  rcases task with ⟨calls, _ | ⟨time, _ | _ | _⟩⟩ <;> rfl

namespace OpenTask

variable (terms : TaskTerms)

private theorem receive_wordless (t : OpenTask) (time : Nat) (reply : Reply) :
    t.wordless.receive terms.wordless time reply.wordless =
      (t.receive terms time reply).wordless := by
  cases reply with
  | answer delay text => rfl
  | crash delay => rfl
  | silence => rfl
  | refusal delay e =>
    -- The wait before a retry looks at the kind of the failure.
    have waits : Retry.wait? (terms.retries - (t.calls - 1)) (t.calls - 1) e.wordless
      (terms.jitter (t.calls - 1)) =
        Retry.wait? (terms.retries - (t.calls - 1)) (t.calls - 1) e (terms.jitter (t.calls - 1)) :=
          rfl
    simp only [receive, Reply.wordless, wordless, TaskTerms.wordless, waits]
    split <;> rfl

private theorem send_wordless (t : OpenTask) (time number : Nat) :
    t.wordless.send terms.wordless time number = (t.send terms time number).wordless := by
  have answered : terms.wordless.reply number = (terms.reply number).wordless := rfl
  simp only [send, answered, Reply.delay_wordless]
  split
  · exact receive_wordless terms { t with calls := t.calls + 1 } time (terms.reply number)
  · rfl

private theorem handle_wordless (made : Nat) (t : OpenTask) (time : Nat) (event : TaskEvent) :
    t.wordless.handle terms.wordless made time event.wordless =
      ((t.handle terms made time event).1.wordless, (t.handle terms made time event).2) := by
  cases event with
  | send => simp only [handle, TaskEvent.wordless, send_wordless]
  | receive reply => simp only [handle, TaskEvent.wordless, receive_wordless]

end OpenTask

namespace TaskQueue

variable (terms : TaskTerms)

def wordlessEvent (e : Nat × TaskEvent × OpenTask) : Nat × TaskEvent × OpenTask :=
  (e.1, e.2.1.wordless, e.2.2.wordless)

private theorem earlier_wordless (limit : Nat) (best : Option (Nat × TaskEvent × OpenTask))
    (t : OpenTask) :
    earlier limit (best.map wordlessEvent) t.wordless = (earlier limit best t).map
      wordlessEvent := by
  rcases t with ⟨place, calls, _ | ⟨time, event⟩⟩
  · rfl
  · have times : (best.map wordlessEvent).map (·.1) = best.map (·.1) := by rw [Option.map_map]; rfl
    simp only [earlier, OpenTask.wordless, Option.map_some, times]
    split <;> rfl

private theorem earliest?_wordless (limit : Nat) (waiting : List OpenTask) :
    earliest? limit (waiting.map .wordless) = (earliest? limit waiting).map wordlessEvent := by
  rw [earliest?, earliest?, List.foldl_map, ← Option.map_none (f := wordlessEvent)]
  exact List.foldl_hom (Option.map wordlessEvent) fun best t => earlier_wordless limit best t

private theorem afterEvent_wordless (q : TaskQueue) (time : Nat) (event : TaskEvent)
    (t : OpenTask) :
    q.wordless.afterEvent terms.wordless time event.wordless t.wordless =
      (q.afterEvent terms time event t).wordless := by
  have others : q.wordless.waiting.filter (·.place ≠ t.wordless.place) =
      (q.waiting.filter (·.place ≠ t.place)).map .wordless := by
    rw [wordless, List.filter_map]
    rfl
  have handled := OpenTask.handle_wordless terms q.made t time event
  rcases outcome : t.handle terms q.made time event with ⟨progress, made⟩
  rw [outcome] at handled
  have made_eq : q.wordless.made = q.made := rfl
  simp only [afterEvent, others, made_eq, handled, outcome]
  cases progress with
  | goesOn t' =>
    simp only [TaskProgress.wordless, wordless, List.map_append, List.map_cons, List.map_nil]
  | ends task => simp only [TaskProgress.wordless, wordless, List.map_cons]

private theorem runToLimit_wordless (fuel : Nat) (q : TaskQueue) :
    q.wordless.runToLimit terms.wordless fuel = (q.runToLimit terms fuel).wordless := by
  induction fuel generalizing q with
  | zero => rfl
  | succ fuel ih =>
    have first : earliest? terms.wordless.limits.own q.wordless.waiting =
        (earliest? terms.limits.own q.waiting).map wordlessEvent :=
      earliest?_wordless terms.limits.own q.waiting
    simp only [runToLimit, first]
    cases earliest? terms.limits.own q.waiting with
    | none => rfl
    | some next =>
      obtain ⟨time, event, t⟩ := next
      simp only [Option.map_some, wordlessEvent, afterEvent_wordless, ih]

/-- A task at its own limit after what still counts there, and the number of requests so far. -/
def lastProgress (made : Nat) (t : OpenTask) : TaskProgress × Nat :=
  match t.next with
  | some (time, event) =>
    if time = terms.limits.own ∧ terms.limits.own < terms.limits.deadline then t.handle terms made
      time event
    else (.goesOn t, made)
  | none => (.goesOn t, made)

/-- A task of which nothing counts any more. -/
def closed : TaskProgress → Task
  | .goesOn t => ⟨t.calls, terms.endingAtLimit⟩
  | .ends task => task

private theorem atLimit_eq (made : Nat) (t : OpenTask) :
    atLimit terms made t =
      (closed terms (lastProgress terms made t).1, (lastProgress terms made t).2) := by
  unfold atLimit
  change (match (lastProgress terms made t).1 with
    | .goesOn t' => (Task.mk t'.calls terms.endingAtLimit, (lastProgress terms made t).2)
    | .ends task => (task, (lastProgress terms made t).2)) = _
  cases (lastProgress terms made t).1 <;> rfl

private theorem lastProgress_wordless (made : Nat) (t : OpenTask) :
    lastProgress terms.wordless made t.wordless =
      ((lastProgress terms made t).1.wordless, (lastProgress terms made t).2) := by
  rcases t with ⟨place, calls, _ | ⟨time, event⟩⟩
  · rfl
  · have handled :=
      OpenTask.handle_wordless terms made ⟨place, calls, some (time, event)⟩ time event
    have limits : terms.wordless.limits = terms.limits := rfl
    by_cases counts : time = terms.limits.own ∧ terms.limits.own < terms.limits.deadline
    · simp only [lastProgress, OpenTask.wordless, Option.map_some, limits, if_pos counts]
      exact handled
    · simp only [lastProgress, OpenTask.wordless, Option.map_some, limits, if_neg counts,
        TaskProgress.wordless]

private theorem closed_wordless (progress : TaskProgress) :
    (closed terms.wordless progress.wordless).wordless = (closed terms progress).wordless := by
  cases progress with
  | goesOn t => rfl
  | ends task => exact task.wordless_wordless

private theorem allAtLimit_wordless (made : Nat) (waiting : List OpenTask) :
    (allAtLimit terms.wordless made (waiting.map .wordless)).map Task.wordless =
      (allAtLimit terms made waiting).map Task.wordless := by
  induction waiting generalizing made with
  | nil => rfl
  | cons t rest ih =>
    simp only [List.map_cons, allAtLimit, atLimit_eq, lastProgress_wordless, closed_wordless, ih]

private theorem tasks_wordless (q : TaskQueue) :
    (q.wordless.tasks terms.wordless).map Task.wordless = (q.tasks terms).map Task.wordless := by
  have sorted : (q.waiting.map OpenTask.wordless).mergeSort (fun a b => a.place ≤ b.place) =
      (q.waiting.mergeSort fun a b => a.place ≤ b.place).map .wordless :=
    (List.map_mergeSort (r := fun a b : OpenTask => decide (a.place ≤ b.place))
      (f := OpenTask.wordless) fun _ _ _ _ => rfl).symm
  have ended : (q.ended.reverse.map Task.wordless).map Task.wordless =
      q.ended.reverse.map Task.wordless := by
    rw [List.map_map]
    exact List.map_congr_left fun task _ => task.wordless_wordless
  simp only [tasks, wordless, sorted, List.map_append, allAtLimit_wordless,
    ← List.map_reverse, ended]

end TaskQueue

private theorem TaskTerms.tasks_wordless (terms : TaskTerms) (count made : Nat) :
    (terms.wordless.tasks count made).map Task.wordless = (terms.tasks count made).map
      Task.wordless := by
  have start : TaskQueue.start count made = (TaskQueue.start count made).wordless := by
    simp only [TaskQueue.wordless, TaskQueue.start, List.map_map, List.map_nil]
    rfl
  have retries : terms.wordless.retries = terms.retries := rfl
  rw [TaskTerms.tasks, retries, start, TaskQueue.runToLimit_wordless, TaskQueue.tasks_wordless]
  rfl

def ReviewResult.wordless (r : ReviewResult) : ReviewResult :=
  { r with error := none }

namespace Session

/-- A session's outcome without the texts of failures. -/
def Outcome.wordless (o : Outcome) : Outcome :=
  { o with results := o.results.map .wordless }

variable (b : Brief) (panel : Panel) (made : Requests) (chosen : List Reviewer) (r : Reviewer)
  (ts : List Task)

private theorem tasks_wordless (count made : Nat) :
    (tasks b panel.wordless r count made).map Task.wordless = (tasks b panel r count made).map
      Task.wordless := by
  unfold tasks
  cases b.book.render r b.context with
  | error e => rfl
  | ok prompt =>
    exact TaskTerms.tasks_wordless
      ⟨r, limits b, b.settings.maxRetries, fun n => panel.reply r n prompt, panel.jitter r⟩
        count made

private theorem timedOut_wordless : timedOut (ts.map .wordless) = timedOut ts := by
  simp only [timedOut, List.any_map]
  refine congrArg (ts.any ·) (funext fun t => ?_)
  exact Option.isNone_map

private theorem elapsed_wordless : elapsed b (ts.map .wordless) = elapsed b ts := by
  have times : (ts.map Task.wordless).filterMap (fun t => t.ending.map (·.1)) =
      ts.filterMap fun t => t.ending.map (·.1) := by
    rw [List.filterMap_map]
    refine List.filterMap_congr fun t _ => ?_
    simp only [Function.comp, Task.wordless, Option.map_map]
    rfl
  rw [elapsed, elapsed, timedOut_wordless, times]

private theorem lastEnding?_wordless :
    lastEnding? (ts.map .wordless) = (lastEnding? ts).map fun e => (e.1, e.2.wordless) := by
  have endings : (ts.map Task.wordless).filterMap (·.ending) =
      (ts.filterMap (·.ending)).map fun e => (e.1, e.2.wordless) := by
    rw [List.filterMap_map, List.map_filterMap]
    rfl
  have ended (e : Nat × TaskOutcome) : (e.2.wordless != .crashed) = (e.2 != .crashed) := by
    rcases e with ⟨time, _ | _ | _⟩ <;> rfl
  simp only [lastEnding?, endings, List.filter_map, Function.comp_def, ended, List.getLast?_map]

private theorem sessionTasks_wordless :
    (sessionTasks b panel.wordless made chosen).map Task.wordless =
      (sessionTasks b panel made chosen).map Task.wordless := by
  simp only [sessionTasks, ownTasks, List.map_flatMap, tasks_wordless]

private theorem elapsed_run_wordless :
    (run b panel.wordless made chosen).elapsed = (run b panel made chosen).elapsed := by
  rw [run_elapsed_eq, run_elapsed_eq, ← elapsed_wordless, sessionTasks_wordless, elapsed_wordless]

private theorem made_run_wordless :
    (run b panel.wordless made chosen).made = (run b panel made chosen).made := by
  have calls (panel : Panel) (r : Reviewer) :
      (tasks b panel r (chosen.count r) (made r)).map (·.calls) =
        ((tasks b panel r (chosen.count r) (made r)).map Task.wordless).map (·.calls) := by
    rw [List.map_map]
    rfl
  have all (panel : Panel) : (run b panel made chosen).made =
      (panelOrder.filter chosen.contains).foldl (fun made' r => made'.add r
        (((tasks b panel r (chosen.count r) (made r)).map (·.calls)).foldl (· + ·) 0)) made :=
    List.foldl_map
  simp only [all, calls _ _, tasks_wordless]

/-- The result of a reviewer with tasks, or a failure in its place. -/
private def resultOf (reason : String) (time : Nat) : ReviewResult :=
  ((lastEnding? ts).bind (resultOf? b r)).getD (.failed r reason time b.timestamp)

private theorem resultOf_wordless (reason reason' : String) (time : Nat) :
    (resultOf b r (ts.map .wordless) reason' time).wordless =
      (resultOf b r ts reason time).wordless := by
  rw [resultOf, resultOf, lastEnding?_wordless]
  rcases lastEnding? ts with _ | ⟨time', _ | _ | _⟩ <;> rfl

theorem run_wordless :
    (run b panel.wordless made chosen).wordless = (run b panel made chosen).wordless := by
  have results : (run b panel.wordless made chosen).results.map ReviewResult.wordless =
      (run b panel made chosen).results.map ReviewResult.wordless := by
    rw [run_results_eq, run_results_eq, List.map_map, List.map_map]
    refine List.map_congr_left fun r _ => ?_
    have time := elapsed_run_wordless b panel made chosen
    rw [run_elapsed_eq, run_elapsed_eq] at time
    have own (panel : Panel) (reason reason' : String) (time : Nat) :=
      resultOf_wordless b r (tasks b panel r (chosen.count r) (made r)) reason reason' time
    simp only [Function.comp_apply, blankResult, time]
    exact (own _ _ "" _).symm.trans (tasks_wordless b panel r _ _ ▸ own _ _ "" _)
  rw [Outcome.wordless, Outcome.wordless, results, made_run_wordless, elapsed_run_wordless]

end Session

end AuditPanel
