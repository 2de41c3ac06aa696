import AuditPanel.Proofs.Audit.Engine
import AuditPanel.Proofs.Audit.FinalFindings
import AuditPanel.Proofs.Source.RuleScan

/-!
No reviewer can suppress a finding of the static scanner. Whatever the panel makes of it, and
whichever view comes from the cache, the last merge takes the scanner's findings up once more.
-/

set_option autoImplicit false

namespace AuditPanel.Auditor

open Consensus

/-- A report that holds all findings of the scanner: each identity once, at least as severe and as
sure as the scanner said, and with the scanner among its sources. -/
structure HoldsStatic (found : List Finding) (r : AuditReport) : Prop where
  count : r.staticFindingCount = found.length
  once (f : Finding) : f ∈ found → ∃ v, r.findings.filter (·.key = f.key) = [v] ∧
    f.severity.level ≤ v.severity.level ∧ f.confidence.level ≤ v.confidence.level ∧
      staticSource ∈ v.detectedBy
  length_le : found.length ≤ r.findings.length
  critical : (∃ f ∈ found, f.severity = .critical) → r.riskLevel = .critical

section Final

variable {statics : List Finding} {f : Finding}

private theorem finalFindings_once (view : Aggregate) (h : f ∈ statics)
    (sources : f.detectedBy = [staticSource]) :
    ∃ v, (finalFindings view statics).filter (·.key = f.key) = [v] ∧
      f.severity.level ≤ v.severity.level ∧
      f.confidence.level ≤ v.confidence.level ∧ staticSource ∈ v.detectedBy := by
  have taken : f ∈ lastRound view statics := mem_lastRound_of_static h
  obtain ⟨v, only, merge⟩ := exists_filter_finalFindings taken
  have member : f ∈ (lastRound view statics).filter (·.key = f.key) :=
    List.mem_filter.mpr ⟨taken, by simp⟩
  refine ⟨v, only, merge.severity_le_of_mem member, merge.confidence_le_of_mem member, ?_⟩
  exact merge.mem_detectedBy_of_mem member (by simp [sources])

private theorem length_le_finalFindings (view : Aggregate)
    (distinct : (statics.map Finding.key).Nodup) :
    statics.length ≤ (finalFindings view statics).length := by
  have listed : statics.map Finding.key ⊆ (finalFindings view statics).map Finding.key := by
    intro k hk
    obtain ⟨f, hf, rfl⟩ := List.mem_map.mp hk
    have taken : f.key ∈ (lastRound view statics).map Finding.key :=
      List.mem_map.mpr ⟨f, mem_lastRound_of_static hf, rfl⟩
    exact ((finalFindings_perm view statics).map Finding.key).symm.subset
      (mem_merged_keys.mpr taken)
  simpa using (List.subperm_of_subset distinct listed).length_le

theorem riskLevel_eq_critical {score : Float} {fs : List Finding} {thresholds : Thresholds}
    (hf : f ∈ fs)
    (critical : f.severity = .critical) : riskLevel score fs thresholds = .critical := by
  have found : fs.any (·.severity = .critical) := List.any_eq_true.mpr ⟨f, hf, by simp [critical]⟩
  simp [riskLevel, found]

end Final

/-- An audit that completes reports every finding of the scanner, whatever the reviewers answer and
whatever the cache holds. -/
theorem auditSource_holdsStatic (a : Auditor) (o : Occasion) (source : String)
    (options : AuditOptions)
    (s s' : AuditorState) (r : AuditReport)
    (completed : auditSource a o source options s = (.ok r, s')) :
    ∃ analysis, Source.analyze source.toList = .ok analysis ∧ HoldsStatic analysis.findings r := by
  obtain ⟨after, run, -⟩ := auditSource_ok completed
  obtain ⟨p, view, elapsed, prepared, -, rfl⟩ := runSource_ok run
  obtain ⟨-, analysed, -⟩ := prepare_ok prepared
  have once (f : Finding) (hf : f ∈ p.analysis.findings) :=
    finalFindings_once view hf (Source.isScanned_of_mem_analyze analysed hf).sources
  refine ⟨p.analysis, analysed, rfl, once, ?_, ?_⟩
  · exact length_le_finalFindings view (Source.analyze_keys_nodup analysed)
  · rintro ⟨f, hf, critical⟩
    obtain ⟨v, only, severity, -⟩ := once f hf
    have member : v ∈ finalFindings view p.analysis.findings := by
      have kept : v ∈ (finalFindings view p.analysis.findings).filter (·.key = f.key) := by
        rw [only]
        simp
      exact (List.mem_filter.mp kept).1
    rw [critical] at severity
    refine riskLevel_eq_critical member ?_
    cases height : v.severity <;> simp [height, Severity.level] at severity ⊢

def destructible : String := "contract A \x7b\n  selfdestruct(a);\n\x7d"

/-- A panel that finds nothing cannot hide that a contract can be destroyed. -/
theorem terse_holds_selfdestruct :
    ∃ (r : AuditReport) (after : AuditorState) (analysis : Source.Analysis),
      auditSource terse ⟨"1", default⟩ destructible ⟨none, .fast, some ["security"]⟩
        (.initial terse.settings) = (.ok r, after) ∧
      analysis.findings.map (·.severity) = [.critical] ∧ HoldsStatic analysis.findings r ∧
        r.riskLevel = .critical := by
  have answered :
      isAnswered terse ⟨"1", default⟩ destructible ⟨none, .fast, some ["security"]⟩ Requests.none =
        true := by
    decide +kernel
  obtain ⟨r, after, completed⟩ :=
    auditSource_initial_completes answered (by decide)
  obtain ⟨analysis, analysed, holds⟩ := auditSource_holdsStatic _ _ _ _ _ _ _ completed
  have found : (Source.analyze destructible.toList).map (fun a => a.findings.map (·.severity)) =
      .ok [.critical] := by
    decide
  rw [analysed] at found
  have severities : analysis.findings.map (·.severity) = [.critical] := by
    simpa [Except.map] using found
  refine ⟨r, after, analysis, completed, severities, holds, holds.critical ?_⟩
  obtain ⟨f, hf, critical⟩ :=
    List.mem_map.mp (severities ▸ List.mem_singleton_self Severity.critical)
  exact ⟨f, hf, critical⟩

end AuditPanel.Auditor
