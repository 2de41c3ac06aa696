import AuditPanel.Json.Printer
import AuditPanel.Report.Basic

/-!
The audit trail: a text of one event a line, each a JSON object with the report and the instant at
which it was written down.
-/

set_option autoImplicit false

namespace AuditPanel.Trail

def event (r : AuditReport) (now : Instant) : Json :=
  .ofMembers
    [("timestamp", .string now.toOffsetText), ("event", .string ("audit_" ++ r.status.name)),
    ("data", r.toJson)]

def line (r : AuditReport) (now : Instant) : String :=
  (event r now).compact ++ "\n"

def append (trail : String) (r : AuditReport) (now : Instant) : String :=
  trail ++ line r now

end AuditPanel.Trail
