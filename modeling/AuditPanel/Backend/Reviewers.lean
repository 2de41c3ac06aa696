import AuditPanel.Backend.Completion
import AuditPanel.Panel.Basic

/-!
A panel whose reviewers are all played by one model.
-/

set_option autoImplicit false

namespace AuditPanel.Backend

/-- What comes back for a completion: its text, or its failure. -/
def replyOf : Except Failure Completion → Reply
  | .ok c => .answer 0 c.text
  | .error failure => .refusal 0 failure

/-- The panel of a provider. The framing of a reviewer goes with each of its requests. -/
def Provider.panel (p : Provider) (t : Http.Transport) : Panel :=
  { reply := fun _ _ prompt => replyOf (p.complete t prompt.user (some prompt.system))
    jitter := fun _ _ => .mean }

end AuditPanel.Backend
