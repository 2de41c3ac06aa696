import AuditPanel.Report.Log

/-!
What the log holds after a report went to it. Every sink takes the report once, whether others fail
or not.
-/

set_option autoImplicit false

namespace AuditPanel

/-- Records after one report was handed to a log: each sink in memory and each trail took it once,
and so did the store if there is one. -/
structure Records.Received (sinks : List Sink) (r : AuditReport) (now : Instant)
    (before after : Records) : Prop where
  handed : after.handed = before.handed ++ [r]
  memory : after.memory = before.memory ++ List.replicate (sinks.count .memory) r
  trail : after.trail =
    (List.replicate (sinks.count .trail) (Trail.line r now)).foldl (· ++ ·) before.trail
  store : after.store = if .store ∈ sinks then before.store.save r else before.store

private theorem ReportStore.save_save (s : ReportStore) (r : AuditReport) :
    (s.save r).save r = s.save r := by
  have named : (AuditSummary.ofReport r).auditId = r.auditId := rfl
  simp [ReportStore.save, named]

private theorem Sink.recordAll_snd (sinks : List Sink) (r : AuditReport) (now : Instant)
    (records : Records) :
    (recordAll r now records sinks).2 =
      { handed := records.handed
        memory := records.memory ++ List.replicate (sinks.count .memory) r
        trail :=
          (List.replicate (sinks.count .trail) (Trail.line r now)).foldl (· ++ ·) records.trail
        store := if .store ∈ sinks then records.store.save r else records.store } := by
  induction sinks generalizing records with
  | nil => simp [recordAll]
  | cons sink rest ih =>
    have state : (recordAll r now records (sink :: rest)).2 =
        (recordAll r now (sink.record r now records).2 rest).2 := by
      simp only [recordAll]
      split <;> rfl
    rw [state, ih]
    cases sink <;> simp [Sink.record, List.replicate_succ, Trail.append, ReportStore.save_save]

theorem Sink.received_handOver (sinks : List Sink) (r : AuditReport) (now : Instant)
    (records : Records) : records.Received sinks r now (handOver r now records sinks).2 := by
  rw [handOver, recordAll_snd]
  exact ⟨rfl, rfl, rfl, rfl⟩

end AuditPanel
