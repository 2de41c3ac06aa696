import AuditPanel.Report.Store
import AuditPanel.Report.Trail

/-!
The audit log: every report goes to all its sinks, and one that fails does not keep the others from
theirs.
-/

set_option autoImplicit false

namespace AuditPanel

/-- Where reports go. A broken sink takes nothing and fails with a reason. -/
inductive Sink where
  | memory
  | trail
  | store
  | broken (reason : String)
  deriving Repr, DecidableEq, Inhabited

/-- The reports handed to the log in their order, whatever its sinks made of them, and what the
sinks hold: reports in memory in the order of arrival, the trail and the store. -/
structure Records where
  handed : List AuditReport
  memory : List AuditReport
  trail : String
  store : ReportStore
  deriving Inhabited

namespace Records

def empty : Records :=
  ⟨[], [], "", .empty⟩

end Records

namespace Sink

def record (r : AuditReport) (now : Instant) (records : Records) :
    Sink → Except Failure Unit × Records
  | .memory => (.ok (), { records with memory := records.memory ++ [r] })
  | .trail => (.ok (), { records with trail := Trail.append records.trail r now })
  | .store => (.ok (), { records with store := records.store.save r })
  | .broken reason => (.error ⟨.persistence, reason⟩, records)

/-- A report given to all sinks in order; the first failure is told after all had their turn. -/
def recordAll (r : AuditReport) (now : Instant) :
    Records → List Sink → Except Failure Unit × Records
  | records, [] => (.ok (), records)
  | records, sink :: rest =>
    let (told, records) := sink.record r now records
    let (toldLater, records) := recordAll r now records rest
    match told with
    | .ok () => (toldLater, records)
    | .error e => (.error e, records)

/-- A report handed to the log with some sinks. -/
def handOver (r : AuditReport) (now : Instant) (records : Records) (sinks : List Sink) :
    Except Failure Unit × Records :=
  recordAll r now { records with handed := records.handed ++ [r] } sinks

end Sink

end AuditPanel
