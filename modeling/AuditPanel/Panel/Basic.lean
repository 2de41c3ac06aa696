import AuditPanel.Prompt.Basic
import AuditPanel.Retry
import AuditPanel.Review.Reviewer

/-!
The panel as a session sees it: what comes back for each request to a reviewer. Times are in
milliseconds.
-/

set_option autoImplicit false

namespace AuditPanel

/-- What comes back for one request to a reviewer, and after which time. -/
inductive Reply where
  | answer (delay : Nat) (text : String)
  | refusal (delay : Nat) (failure : Failure)
  | crash (delay : Nat)
  | silence
  deriving Repr, DecidableEq, Inhabited

namespace Reply

/-- The time until the reply; zero for a silence, which nothing follows. -/
def delay : Reply → Nat
  | .answer d _ => d
  | .refusal d _ => d
  | .crash d => d
  | .silence => 0

end Reply

/-- Those who answer for the reviewers: the reply to a request by the reviewer, the number of
requests it had before and the prompt, and what is drawn for a reviewer's wait before a retry. -/
structure Panel where
  reply : Reviewer → Nat → Prompt.Pair → Reply
  jitter : Reviewer → Nat → Retry.Draw

abbrev Requests := Reviewer → Nat

namespace Requests

def none : Requests :=
  fun _ => 0

def add (made : Requests) (r : Reviewer) (n : Nat) : Requests :=
  fun other => if other = r then made other + n else made other

end Requests

end AuditPanel
