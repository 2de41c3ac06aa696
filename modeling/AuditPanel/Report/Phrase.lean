import AuditPanel.Decimal.Layout
import AuditPanel.Report.Counts

/-!
Durations and costs in words.
-/

set_option autoImplicit false

namespace AuditPanel.Report

/-- A duration in milliseconds: below a second as it is, below a minute in seconds with one place,
and from there on in whole minutes and seconds. -/
def durationText (ms : Nat) : String :=
  if ms < 1000 then s!"{ms}ms"
  else if ms < 60000 then Decimal.fixed 1 (Float.ofNat ms / 1000.0) ++ "s"
  else
    let minutes := ms / 60000
    let seconds := ms % 60000 / 1000
    s!"{minutes}m {seconds}s"

/-- The magnitude of a cost in dollars, with four places below a cent and two from there on. -/
def costText (usd : Float) : String :=
  let usd := usd.abs
  if usd < 0.01 then "$" ++ Decimal.fixed 4 usd else "$" ++ Decimal.fixed 2 usd

end AuditPanel.Report
