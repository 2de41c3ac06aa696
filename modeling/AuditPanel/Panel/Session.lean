import AuditPanel.Audit.Settings
import AuditPanel.Panel.Task
import AuditPanel.Review.Reply
import AuditPanel.Time.Instant

/-!
A session of the panel: every chosen reviewer is asked at once. Results are collected as the tasks
end, one after the other, until none is left or the deadline comes, and then a failure is put in for
each reviewer without one.
-/

set_option autoImplicit false

namespace AuditPanel.Session

/-- What a session is about. -/
structure Brief where
  settings : Settings
  book : Prompt.Book
  mode : AnalysisMode
  context : Prompt.Context
  timestamp : Instant
  deriving Inhabited

def limits (b : Brief) : TaskLimits where
  own := min (b.settings.reviewerTimeout b.mode) b.settings.globalTimeout
  deadline := b.settings.globalTimeout
  own_le_deadline := Nat.min_le_right _ _

/-- The tasks of a reviewer who is chosen `count` times and had `made` requests before, in the order
in which they end. Without a prompt a task fails before any request. -/
def tasks (b : Brief) (panel : Panel) (r : Reviewer) (count made : Nat) : List Task :=
  match b.book.render r b.context with
  | .error failure =>
    let ending := if 0 < b.settings.globalTimeout then some (0, .failed failure) else none
    List.replicate count ⟨0, ending⟩
  | .ok prompt =>
    let terms : TaskTerms :=
      ⟨r, limits b, b.settings.maxRetries, fun n => panel.reply r n prompt, panel.jitter r⟩
    terms.tasks count made

/-- The text for a reviewer whose task was unresolved at the deadline, or crashed while another
one's was. -/
def timeoutText : String := "analysis timeout"

def crashText : String := "agent task failed"

/-- The result of a task that ended by itself; none for a crash. -/
def resultOf? (b : Brief) (r : Reviewer) : Nat × TaskOutcome → Option ReviewResult
  | (time, .answered text) => some (.succeeded (Review.normalize text.toList r) time b.timestamp)
  | (time, .failed failure) =>
    let text := String.ofList (Text.truncateError failure.message.toList)
    some (.failed r text time b.timestamp)
  | (_, .crashed) => none

/-- What is collected at some time: a result for each reviewer at most, the time itself, and whether
the deadline has come. -/
structure Collection where
  results : Reviewer → Option ReviewResult
  time : Nat
  timedOut : Bool

namespace Collection

def empty : Collection :=
  ⟨fun _ => none, 0, false⟩

/-- The collection with a result in the place of any earlier one of the same reviewer. -/
def insert (c : Collection) (result : ReviewResult) : Collection :=
  { c with results := fun r => if r = result.reviewer then some result else c.results r }

/-- The collection after a task of a reviewer ended. A crash leaves no result. -/
def join (b : Brief) (c : Collection) (r : Reviewer) (ending : Nat × TaskOutcome) : Collection :=
  let c := { c with time := ending.1 }
  match resultOf? b r ending with
  | some result => c.insert result
  | none => c

/-- The collection at the deadline. -/
def expire (b : Brief) (c : Collection) : Collection :=
  { c with time := b.settings.globalTimeout, timedOut := true }

/-- The collection when all pending tasks have ended or the deadline has come. Tasks are joined in
the order in which they stand; one that does not end before the deadline brings it about. -/
def joinAll (b : Brief) : Collection → List (Reviewer × Task) → Collection
  | c, [] => c
  | c, (r, task) :: pending =>
    match task.ending with
    | some ending => joinAll b (c.join b r ending) pending
    | none => c.expire b

/-- What is put down to a reviewer without a result. -/
def reason (c : Collection) : String :=
  if c.timedOut then timeoutText else crashText

/-- The collection with a failure for a reviewer without a result. -/
def fill (b : Brief) (c : Collection) (r : Reviewer) : Collection :=
  match c.results r with
  | some _ => c
  | none => c.insert (.failed r c.reason c.time b.timestamp)

/-- The results that are there, those of greater priority first. -/
def inOrder (c : Collection) : List ReviewResult :=
  (Reviewer.all.filterMap c.results).mergeSort fun a b => a.reviewer.priority ≤ b.reviewer.priority

end Collection

/-- What a session brings: the results in the order of the panel, the requests made so far and the
time it took. -/
structure Outcome where
  results : List ReviewResult
  made : Requests
  elapsed : Nat

/-- All reviewers in the order of the panel. -/
def panelOrder : List Reviewer :=
  Reviewer.all.mergeSort fun a b => a.priority ≤ b.priority

/-- The chosen reviewers with their tasks, after `made` requests in earlier sessions. -/
def assignments (b : Brief) (panel : Panel) (made : Requests) (chosen : List Reviewer) :
    List (Reviewer × List Task) :=
  (panelOrder.filter chosen.contains).map fun r =>
    (r, tasks b panel r (chosen.count r) (made r))

/-- What is collected from tasks that end one after the other, with a failure for each chosen
reviewer who would have no result. -/
def collect (b : Brief) (chosen : List Reviewer) (pending : List (Reviewer × Task)) : Collection :=
  chosen.foldl (Collection.fill b) (Collection.empty.joinAll b pending)

def pendingOf (asked : List (Reviewer × List Task)) : List (Reviewer × Task) :=
  asked.flatMap fun (r, ts) => ts.map fun t => (r, t)

/-- The requests after those that tasks made. -/
def requestsAfter (made : Requests) (asked : List (Reviewer × List Task)) : Requests :=
  asked.foldl (fun made (r, ts) => made.add r ((ts.map (·.calls)).foldl (· + ·) 0)) made

/-- A session with the chosen reviewers, after `made` requests in earlier sessions. -/
def run (b : Brief) (panel : Panel) (made : Requests) (chosen : List Reviewer) : Outcome :=
  let asked := assignments b panel made chosen
  let c := collect b chosen ((pendingOf asked).mergeSort fun t u => t.2.endsNoLater u.2)
  ⟨c.inOrder, requestsAfter made asked, c.time⟩

/-- A session that starts by reading its deadline from the clock, or none: when the clock cannot
hold the deadline, the session crashes before anyone is asked. -/
def hold (b : Brief) (panel : Panel) (made : Requests) (chosen : List Reviewer) : Option Outcome :=
  if Clock.CanHold b.timestamp.millis b.settings.globalTimeout then some (run b panel made chosen)
  else none

end AuditPanel.Session
