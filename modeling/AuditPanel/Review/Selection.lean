import AuditPanel.Ordered
import AuditPanel.Review.Reviewer
import AuditPanel.Source.Characteristics

/-!
The choice of a panel: reviewers whose subject the contract touches, or those that the caller names.
-/

set_option autoImplicit false

namespace AuditPanel.Review

open AuditPanel.Source (Characteristics)

def triggersMev (c : Characteristics) : Bool :=
  c.hasMevExposure || c.hasPayableExternal

def heuristicPanel (c : Characteristics) : List Reviewer :=
  [.security, .quality] ++ (if c.isDefi then [.defi, .economics] else [])
    ++ (if c.isCrossChain then [.crossChain] else []) ++ (if triggersMev c then [.mev] else [])

/-- The place of a reviewer when a panel is too large: security, the specialists whose subject the
contract touches, the generalists, and the other specialists. -/
def rank (c : Characteristics) : Reviewer → Nat
  | .security => 0
  | .defi => if c.isDefi then 1 else 6
  | .mev => if triggersMev c then 2 else 6
  | .crossChain => if c.isCrossChain then 3 else 6
  | .quality => 4
  | .economics => 5

def standsBefore (c : Characteristics) (a b : Reviewer) : Bool :=
  ((compare (rank c a) (rank c b)).then (compare a.priority b.priority)).isLE

/-- The reviewers asked for: those that the caller names, if any is known, or those that the
contract calls for. -/
def requestedPanel (c : Characteristics) (names : Option (List String)) : List Reviewer :=
  match (names.getD []).filterMap Reviewer.parse? with
  | [] => heuristicPanel c
  | named => named

/-- The panel for a contract: the first `cap` reviewers asked for, each once, and one at least. -/
def selectPanel (c : Characteristics) (names : Option (List String)) (cap : Nat) : List Reviewer :=
  (Ordered.dedup ((requestedPanel c names).mergeSort (standsBefore c))).take (max cap 1)

end AuditPanel.Review
