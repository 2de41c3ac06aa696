import AuditPanel.Decimal.Layout
import AuditPanel.Failure

/-!
Repeating an attempt that failed for a passing reason, with growing waits between attempts. Waits
are in nanoseconds.
-/

set_option autoImplicit false

namespace AuditPanel.Retry

/-- A number drawn by chance from zero on and below one. -/
structure Draw where
  value : Float
  zero_le : 0.0 ≤ value
  lt_one : value < 1.0

namespace Draw

def zero : Draw :=
  ⟨0.0, by decide, by decide⟩

/-- The middle of the range, for draws that are not left to chance. -/
def mean : Draw :=
  ⟨0.5, by decide, by decide⟩

end Draw

/-- The nanoseconds of a number of seconds, to the nearest one. -/
def nanosOf (seconds : Float) : Nat :=
  match Decimal.kind seconds with
  | .finite p => p.inPlaces 9
  | _ => 0

/-- The greatest number of seconds between attempts that no limit on rates holds back. -/
def capSeconds : Float := 30.0

/-- The seconds before retry number `attempt`: they double from one on, a drawn fraction is added,
and the sum is cut at the cap. -/
def growingSeconds (attempt : Nat) (draw : Draw) : Float :=
  let sum := Float.ofNat (1 <<< min attempt 16) + draw.value
  if sum < capSeconds then sum else capSeconds

/-- The wait before retry number `attempt`, counted from zero. Rate limits start at 30 seconds and
add 10 each time up to 120. -/
def backoff (kind : FailureKind) (attempt : Nat) (draw : Draw) : Nat :=
  if kind = .rateLimit then 1000000000 * min (30 + 10 * attempt) 120
  else nanosOf (growingSeconds attempt draw)

/-- The wait after the failure of attempt number `attempt` while `left` retries are left; none if
there is no retry. -/
def wait? (left attempt : Nat) (e : Failure) (draw : Draw) : Option Nat :=
  if e.kind.isRetryable && 0 < left then some (backoff e.kind attempt draw) else none

/-- What became of a series of attempts: how many were made, the waits between them and the last
outcome. -/
structure Run (α : Type) where
  attempts : Nat
  waits : List Nat
  outcome : Except Failure α

/-- Attempts from number `attempt` on while `budget` retries are left. -/
def runFrom {α : Type} (attemptAt : Nat → Except Failure α) (draws : Nat → Draw) :
    Nat → Nat → Run α
  | 0, attempt => ⟨1, [], attemptAt attempt⟩
  | budget + 1, attempt =>
    match attemptAt attempt with
    | .ok a => ⟨1, [], .ok a⟩
    | .error e =>
      match wait? (budget + 1) attempt e (draws attempt) with
      | some wait =>
        let rest := runFrom attemptAt draws budget (attempt + 1)
        ⟨rest.attempts + 1, wait :: rest.waits, rest.outcome⟩
      | none => ⟨1, [], .error e⟩

/-- Attempts until one succeeds, fails for good or spends the last of `retries` retries. -/
def run {α : Type} (retries : Nat) (attemptAt : Nat → Except Failure α)
    (draws : Nat → Draw) : Run α :=
  runFrom attemptAt draws retries 0

end AuditPanel.Retry
