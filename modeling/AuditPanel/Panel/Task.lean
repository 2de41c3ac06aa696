import AuditPanel.Panel.Basic

/-!
The tasks of one reviewer: requests with retries under two limits. The reviewer's own limit turns
what comes later into a failure; at the deadline of the session all that is unresolved is given up.
A reviewer who is chosen more than once has several tasks at a time, whose requests are numbered
together in the order in which they are sent.
-/

set_option autoImplicit false

namespace AuditPanel

/-- How a task ended. -/
inductive TaskOutcome where
  | answered (text : String)
  | failed (failure : Failure)
  | crashed
  deriving Repr, DecidableEq, Inhabited

/-- A task: how many requests it made and, unless the deadline came first, when and how it ended. -/
structure Task where
  calls : Nat
  ending : Option (Nat × TaskOutcome)
  deriving Repr, DecidableEq, Inhabited

/-- Whether a task ends no later than another one. What is unresolved at the deadline ends last. -/
def Task.endsNoLater (t u : Task) : Bool :=
  match t.ending, u.ending with
  | some e, some e' => e.1 ≤ e'.1
  | none, some _ => false
  | _, none => true

/-- The two limits of a task. Its own one is not beyond the deadline. -/
structure TaskLimits where
  own : Nat
  deadline : Nat
  own_le_deadline : own ≤ deadline

/-- What the tasks of a reviewer have in common: the limits, the number of retries, the reply to
each request by its number and what is drawn for each wait. -/
structure TaskTerms where
  reviewer : Reviewer
  limits : TaskLimits
  retries : Nat
  reply : Nat → Reply
  jitter : Nat → Retry.Draw

namespace TaskTerms

def timedOut (terms : TaskTerms) : Failure :=
  ⟨.timeout, s!"{terms.reviewer.name} agent timed out after {terms.limits.own}ms"⟩

/-- The ending of a task that is unresolved at its own limit; none if that is the deadline. -/
def endingAtLimit (terms : TaskTerms) : Option (Nat × TaskOutcome) :=
  if terms.limits.own < terms.limits.deadline then some (terms.limits.own, .failed terms.timedOut)
    else none

end TaskTerms

/-- What happens next in a task: it sends a request, or the reply to one comes. -/
inductive TaskEvent where
  | send
  | receive (reply : Reply)
  deriving Repr, DecidableEq, Inhabited

/-- A task under way: its place among the tasks of its reviewer, the number of its requests so far,
and what happens next and when; nothing does if it waits in vain. -/
structure OpenTask where
  place : Nat
  calls : Nat
  next : Option (Nat × TaskEvent)
  deriving Repr, DecidableEq, Inhabited

/-- A task after an event: it goes on or ends. -/
inductive TaskProgress where
  | goesOn (task : OpenTask)
  | ends (task : Task)
  deriving Repr, DecidableEq, Inhabited

/-- The milliseconds after which a wait of some nanoseconds is over, for timers that go off at whole
milliseconds and never too early. -/
def wakeAfter (wait : Nat) : Nat :=
  (wait + 999999) / 1000000

namespace OpenTask

/-- The task with a place, about to send its first request. -/
def start (place : Nat) : OpenTask :=
  ⟨place, 0, some (0, .send)⟩

def finish (t : OpenTask) (time : Nat) (outcome : TaskOutcome) : TaskProgress :=
  .ends ⟨t.calls, some (time, outcome)⟩

/-- A task at a time when the reply to its last request comes. -/
def receive (terms : TaskTerms) (t : OpenTask) (time : Nat) : Reply → TaskProgress
  | .answer _ text => t.finish time (.answered text)
  | .crash _ => t.finish time .crashed
  | .silence => .goesOn { t with next := none }
  | .refusal _ failure =>
    let attempt := t.calls - 1
    match Retry.wait? (terms.retries - attempt) attempt failure (terms.jitter attempt) with
    | some wait => .goesOn { t with next := some (time + wakeAfter wait, .send) }
    | none => t.finish time (.failed failure)

/-- A task at a time when it sends the request with a number. -/
def send (terms : TaskTerms) (t : OpenTask) (time number : Nat) : TaskProgress :=
  let reply := terms.reply number
  let t := { t with calls := t.calls + 1 }
  if reply.delay = 0 then t.receive terms time reply
  else .goesOn { t with next := some (time + reply.delay, .receive reply) }

/-- A task after an event, and the number of requests so far, which was `made` before. -/
def handle (terms : TaskTerms) (made : Nat) (t : OpenTask) (time : Nat) :
    TaskEvent → TaskProgress × Nat
  | .send => (t.send terms time made, made + 1)
  | .receive reply => (t.receive terms time reply, made)

end OpenTask

/-- The tasks of a reviewer at some time: those under way in the order in which they came to wait,
those that ended with the last one first, and the number of requests so far. -/
structure TaskQueue where
  waiting : List OpenTask
  ended : List Task
  made : Nat
  deriving Repr, DecidableEq, Inhabited

namespace TaskQueue

/-- A number of tasks at their start, after `made` requests. -/
def start (count made : Nat) : TaskQueue :=
  ⟨(List.range count).map .start, [], made⟩

/-- The earlier of two events in tasks, the first one of two at one time. Events at `limit` or later
do not count. -/
def earlier (limit : Nat) (best : Option (Nat × TaskEvent × OpenTask)) (t : OpenTask) :
    Option (Nat × TaskEvent × OpenTask) :=
  match t.next with
  | none => best
  | some (time, event) => if time < (best.map (·.1)).getD limit then some (time, event, t) else best

/-- The earliest event before `limit`, with its task. -/
def earliest? (limit : Nat) (waiting : List OpenTask) : Option (Nat × TaskEvent × OpenTask) :=
  waiting.foldl (earlier limit) none

def afterEvent (terms : TaskTerms) (q : TaskQueue) (time : Nat) (event : TaskEvent) (t : OpenTask) :
    TaskQueue :=
  let others := q.waiting.filter (·.place ≠ t.place)
  match t.handle terms q.made time event with
  | (.goesOn t, made) => ⟨others ++ [t], q.ended, made⟩
  | (.ends task, made) => ⟨others, task :: q.ended, made⟩

/-- A queue after all events before its limit. -/
def runToLimit (terms : TaskTerms) : Nat → TaskQueue → TaskQueue
  | 0, q => q
  | fuel + 1, q =>
    match earliest? terms.limits.own q.waiting with
    | none => q
    | some (time, event, t) => runToLimit terms fuel (q.afterEvent terms time event t)

/-- A task at its own limit, and the number of requests so far. What happens at the limit itself
still counts, unless that is the deadline. -/
def atLimit (terms : TaskTerms) (made : Nat) (t : OpenTask) : Task × Nat :=
  let limit := terms.limits.own
  let (progress, made) := match t.next with
    | some (time, event) =>
      if time = limit ∧ limit < terms.limits.deadline then t.handle terms made time event
        else (.goesOn t, made)
    | none => (.goesOn t, made)
  match progress with
  | .goesOn t => (⟨t.calls, terms.endingAtLimit⟩, made)
  | .ends task => (task, made)

def allAtLimit (terms : TaskTerms) : Nat → List OpenTask → List Task
  | _, [] => []
  | made, t :: rest =>
    let (task, made) := atLimit terms made t
    task :: allAtLimit terms made rest

def tasks (terms : TaskTerms) (q : TaskQueue) : List Task :=
  q.ended.reverse ++ allAtLimit terms q.made (q.waiting.mergeSort fun a b => a.place ≤ b.place)

end TaskQueue

/-- The tasks of a reviewer who is chosen `count` times and had `made` requests before, in the order
in which they end. Each request of a task has at most two events, and a task at most one request
more than it has retries. -/
def TaskTerms.tasks (terms : TaskTerms) (count made : Nat) : List Task :=
  ((TaskQueue.start count made).runToLimit terms (2 * count * (terms.retries + 1))).tasks terms

end AuditPanel
