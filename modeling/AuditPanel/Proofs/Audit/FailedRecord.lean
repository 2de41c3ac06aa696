import AuditPanel.Audit.Engine
import AuditPanel.Proofs.Report.Record

/-!
The record of a failed audit, written and read back. Such a report has nothing but its message, its
place and its instant, and a store gives all that again, except that the text of an instant out of
range may give none.
-/

set_option autoImplicit false

namespace AuditPanel

namespace AuditReport

open Json

private theorem reread_zero : reread 0.0 = 0.0 :=
  Float.toBits_inj.mp (by decide)

theorem failedReport_inRange (o : Occasion) (e : Failure) (chain address : Option String) :
    (Auditor.failedReport o e chain address).InRange := by
  obtain ⟨⟨findings, contributions⟩, fits⟩ := inRange_bare o.auditId .failed 0.0 .critical o.time
  exact ⟨⟨findings, contributions⟩, fits.contractInfo, fits.lines_fit, fits.counts,
    fits.contributions_fit, fits.static_fits, fits.duration_fits⟩

private theorem failedReport_reals (o : Occasion) (e : Failure) (chain address : Option String) :
    (Auditor.failedReport o e chain address).reals = [0.0, 0.0] :=
  rfl

private theorem failedReport_restored (o : Occasion) (e : Failure) (chain address : Option String) :
    (Auditor.failedReport o e chain address).restored = Auditor.failedReport o e chain address := by
  refine restored_eq_self fun x member => ?_
  rw [failedReport_reals] at member
  have zero : x = 0.0 := by simpa using member
  rw [zero, reread_zero]

private theorem failedReport_finite (o : Occasion) (e : Failure) (chain address : Option String) :
    ∀ x ∈ (Auditor.failedReport o e chain address).reals, x.isFinite = true := by
  intro x member
  rw [failedReport_reals] at member
  have zero : x = 0.0 := by simpa using member
  rw [zero]
  decide

/-- What a store gives for the record of a failed audit: the report with the instant that its text
gives, or nothing. -/
theorem read_failedReport (o : Occasion) (e : Failure) (chain address : Option String) :
    (Json.read? (Auditor.failedReport o e chain address).toJson.compact.toList).bind ofJson? =
      (Instant.ofText? o.time.toText).map fun time =>
        Auditor.failedReport ⟨o.auditId, time⟩ e chain address := by
  have dated : (Auditor.failedReport o e chain address).timestamp = o.time := rfl
  rw [read_toJson_eq (failedReport_inRange o e chain address)
    (failedReport_finite o e chain address), failedReport_restored, dated]
  rfl

end AuditReport

end AuditPanel
