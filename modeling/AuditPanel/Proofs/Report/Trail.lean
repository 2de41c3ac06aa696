import AuditPanel.Proofs.Json.Framing
import AuditPanel.Proofs.Report.Store

/-!
What a trail holds after any reports were written to it: what it held before, then one line a report
in their order. A line ends only where its event does, whatever the texts of the report hold, and
its event is that of the report as its text is read.
-/

set_option autoImplicit false

namespace AuditPanel

open Json

namespace Trail

variable {r : AuditReport}

/-- The line of a report at an instant, without its end. -/
def eventText (e : AuditReport × Instant) : List Char :=
  (event e.1 e.2).compact.toList

private theorem isStorable_event {depth : Nat} (range : r.InRange) (now : Instant) :
    IsStorable (depth + 5) (event r now) := by
  refine .ofMembers ?_
  simp only [List.forall_mem_cons]
  exact ⟨.string _, .string _, AuditReport.isStorable_toJson range, nofun⟩

private theorem get?_restored_event (r : AuditReport) (now : Instant) :
    (restored (event r now)).get? "event" = some (.string ("audit_" ++ r.status.name)) ∧
      (restored (event r now)).get? "data" = some (restored r.toJson) := by
  have made : restored (event r now) = .ofMembers [("timestamp", .string now.toOffsetText),
      ("event", .string ("audit_" ++ r.status.name)), ("data", restored r.toJson)] := by
    rw [restored, event, mapReals_ofMembers]
    rfl
  have names : ["timestamp", "event", "data"].Nodup := by decide
  rw [made]
  constructor
  · rw [get?_ofMembers (by exact names)]
    rfl
  · rw [get?_ofMembers (by exact names)]
    rfl

/-- A line that tells of a report. -/
structure Tells (line : List Char) (e : AuditReport × Instant) : Prop where
  /-- It has no line end and no other control character in it. -/
  flat : IsFlat line
  /-- It is read as an event with the status of the report. If the doubles of the report are finite,
  the data is the report as its text is read. -/
  told : ∃ v, read? line = some v ∧ v.get? "event" = some (.string ("audit_" ++ e.1.status.name)) ∧
    (e.1.IsProper → (v.get? "data").bind AuditReport.ofJson? = some e.1.restored)
  /-- The data is just the report when the texts of its doubles are read as they are. -/
  exact_ : e.1.IsProper → (∀ x ∈ e.1.reals, reread x = x) →
    ∃ v, read? line = some v ∧ (v.get? "data").bind AuditReport.ofJson? = some e.1

private theorem tells_eventText {e : AuditReport × Instant} (range : e.1.InRange) :
    Tells (eventText e) e := by
  have read : read? (eventText e) = some (restored (event e.1 e.2)) :=
    read?_compact (isStorable_event range e.2)
  obtain ⟨status, data⟩ := get?_restored_event e.1 e.2
  have decoded (proper : e.1.IsProper) :
      ((restored (event e.1 e.2)).get? "data").bind AuditReport.ofJson? = some e.1.restored := by
    rw [data, Option.bind_some, AuditReport.restored_toJson proper.finite]
    exact AuditReport.ofJson?_toJson (range.mapReals reread) proper.timestamp
  refine ⟨isFlat_compact _, ⟨_, read, status, decoded⟩, fun proper same => ⟨_, read, ?_⟩⟩
  rw [decoded proper, AuditReport.restored_eq_self same]

end Trail

namespace Sink

/-- What the sinks hold after reports went to the trail one by one, each at its instant. -/
def recordEach (records : Records) (entries : List (AuditReport × Instant)) : Records :=
  entries.foldl (fun records e => (Sink.trail.record e.1 e.2 records).2) records

private theorem trail_recordEach (records : Records) (entries : List (AuditReport × Instant)) :
    (recordEach records entries).trail.toList =
      records.trail.toList ++ (entries.map Trail.eventText).flatMap (· ++ ['\n']) := by
  induction entries generalizing records with
  | nil => simp [recordEach]
  | cons e rest ih =>
    have later := ih (Sink.trail.record e.1 e.2 records).2
    rw [recordEach] at later ⊢
    rw [List.foldl_cons, later, List.map_cons, List.flatMap_cons, ← List.append_assoc]
    congr 1
    simp [record, Trail.append, Trail.line, Trail.eventText]

/-- The trail of reports is what stood there before and then the line of each report, each line on
its own. -/
theorem tells_recordEach (records : Records) (entries : List (AuditReport × Instant))
    (range : ∀ e ∈ entries, e.1.InRange) :
    ∃ added : String, (recordEach records entries).trail = records.trail ++ added ∧
      added.toList = (Text.lines added.toList).flatMap (· ++ ['\n']) ∧
      List.Forall₂ Trail.Tells (Text.lines added.toList) entries := by
  have flat : ∀ line ∈ entries.map Trail.eventText, IsFlat line := by
    intro line member
    obtain ⟨e, -, rfl⟩ := List.mem_map.mp member
    exact isFlat_compact _
  refine ⟨String.ofList ((entries.map Trail.eventText).flatMap (· ++ ['\n'])), ?_, ?_, ?_⟩
  · rw [← String.toList_inj, trail_recordEach, String.toList_append, String.toList_ofList]
  · rw [String.toList_ofList, Text.lines_flatMap flat]
  · rw [String.toList_ofList, Text.lines_flatMap flat, List.forall₂_map_left_iff, List.forall₂_same]
    exact fun e member => Trail.tells_eventText (range e member)

theorem tells_recordEach_sampleReport :
    (∀ e ∈ [(sampleReport, sampleReport.timestamp)], e.1.InRange) ∧
      ∃ added line : String,
        (recordEach ⟨[], [], "before\n", .empty⟩ [(sampleReport, sampleReport.timestamp)]).trail =
        "before\n" ++ added ∧ added.toList = line.toList ++ ['\n'] ∧
      ∃ v, read? line.toList = some v ∧ v.get? "event" = some (.string "audit_completed") ∧
        (v.get? "data").bind AuditReport.ofJson? = some sampleReport := by
  have range : ∀ e ∈ [(sampleReport, sampleReport.timestamp)], e.1.InRange :=
    List.forall_mem_singleton.mpr isProper_sampleReport.toInRange
  obtain ⟨added, trail, framed, told⟩ := tells_recordEach ⟨[], [], "before\n", .empty⟩ _ range
  obtain ⟨line, rest, tells, none_, same⟩ := List.forall₂_cons_right_iff.mp told
  cases none_
  obtain ⟨v, read, event, -⟩ := tells.told
  obtain ⟨v', read', data⟩ := tells.exact_ isProper_sampleReport reread_sampleReport
  cases read.symm.trans read'
  refine ⟨range, added, String.ofList line, trail, ?_, v, ?_, event, data⟩
  · rw [framed, same, String.toList_ofList, List.flatMap_singleton]
  · rw [String.toList_ofList, read]

/-- What the line of a report is read as is not always the report. -/
theorem recordEach_driftingReport :
    ∃ line v r,
      (recordEach ⟨[], [], "", .empty⟩ [(driftingReport, driftingReport.timestamp)]).trail.toList =
        line ++ ['\n'] ∧ read? line = some v ∧ (v.get? "data").bind AuditReport.ofJson? = some r ∧
      r.overallScore.toBits ≠ driftingReport.overallScore.toBits := by
  have proper := isDated_driftingReport.toIsProper
  have tells :=
    Trail.tells_eventText (e := (driftingReport, driftingReport.timestamp)) proper.toInRange
  obtain ⟨v, read, -, data⟩ := tells.told
  have trail := trail_recordEach ⟨[], [], "", .empty⟩ [(driftingReport, driftingReport.timestamp)]
  refine ⟨_, v, driftingReport.restored, trail.trans (by simp), read, data proper, ?_⟩
  change (reread 94.08230906077605).toBits ≠ (94.08230906077605 : Float).toBits
  decide

end Sink

end AuditPanel
