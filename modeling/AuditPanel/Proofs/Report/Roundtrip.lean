import AuditPanel.Proofs.Report.Record

/-!
Records as a store of values: what is written for a finding, a reviewer's report, a reviewer's
result or an audit report is read as it, unless its instant has a second inserted within a minute,
which is read as the next second. No two records are written alike that differ in more than that. A
member that is left out stands for no value, and for nothing else.
-/

set_option autoImplicit false

namespace AuditPanel

open Json

/-- Records of one kind are read as settled, and those are written alike that are settled alike. -/
structure Keeps {α : Type} (valid : α → Prop) (settled : α → α) (write : α → Json)
    (read : Json → Option α) : Prop where
  restores : ∀ a, valid a → read (write a) = some (settled a)
  exact_iff : ∀ a, valid a → (read (write a) = some a ↔ settled a = a)
  alike_iff : ∀ a b, valid a → valid b → (write a = write b ↔ settled a = settled b)

private theorem Keeps.of_settled {α : Type} {valid proper : α → Prop} {settled : α → α}
    {write : α → Json} {read : Json → Option α} (settles : ∀ a, valid a → proper (settled a))
    (same : ∀ a, valid a → write (settled a) = write a)
    (restores : ∀ a, proper a → read (write a) = some a) : Keeps valid settled write read := by
  have decoded (a : α) (ok : valid a) : read (write a) = some (settled a) := by
    rw [← same a ok, restores _ (settles a ok)]
  refine ⟨decoded, fun a ok => ?_, fun a b okA okB => ⟨fun alike => ?_, fun alike => ?_⟩⟩
  · rw [decoded a ok, Option.some.injEq]
  · have both := congrArg read alike
    rw [decoded a okA, decoded b okB] at both
    exact Option.some.inj both
  · rw [← same a okA, alike, same b okB]

/-- A member that may be left out is there exactly when there is a value, and when it is not there
no value is read. -/
structure LeavesOut {α β : Type} (name : String) (field : α → Option β) (write : α → Json)
    (read : Json → Option α) :
    Prop where
  omitted : ∀ a, (write a).get? name = none ↔ field a = none
  absent : ∀ members a, read (.object members) = some a → member? name members = none →
    field a = none

private theorem optional?_missing {α : Type} {read : Json → Option α} {name : String}
    {members : List (String × Json)} {value : Option α} (absent : member? name members = none)
    (found : Slot.optional? read
      (match member? name members with | some v => Slot.value v | none => Slot.missing) =
        some value) :
    value = none := by
  rw [absent] at found
  exact (Option.some.inj found).symm

namespace ContractInfo

private theorem get?_size (c : ContractInfo) :
    c.toJson.get? "bytecodeSize" = c.bytecodeSize.map .nat := by
  rw [toJson, get?_ofMembers c.members_nodup]
  rcases c with ⟨_, _, _, _, _, _, _, _, _, _ | size⟩ <;> rfl

private theorem size_absent {members : List (String × Json)} {c : ContractInfo}
    (read : ofJson? (.object members) = some c)
    (absent : member? "bytecodeSize" members = none) : c.bytecodeSize = none := by
  iterate 9 obtain ⟨_, -, read⟩ := Option.bind_eq_some_iff.mp read
  obtain ⟨size, sizeRead, read⟩ := Option.bind_eq_some_iff.mp read
  obtain rfl := Option.some.inj read
  exact optional?_missing absent sizeRead

end ContractInfo

namespace AuditReport

private theorem get?_optional (r : AuditReport) :
    r.toJson.get? "chain" = r.chain.map .string ∧ r.toJson.get? "address" = r.address.map .string ∧
      r.toJson.get? "error" = r.error.map .string := by
  rw [toJson_eq, get?_ofMembers r.members_nodup, get?_ofMembers r.members_nodup,
    get?_ofMembers r.members_nodup]
  rcases r with ⟨_, _, _, _, _, _, _, _, _, _, _, _, _, _, _ | chain, _ | address, _ | error, _, _⟩
    <;>
    exact ⟨rfl, rfl, rfl⟩

private theorem optional_absent {members : List (String × Json)} {r : AuditReport}
    (read : ofJson? (.object members) = some r) :
    (member? "chain" members = none → r.chain = none) ∧
      (member? "address" members = none → r.address = none) ∧
      (member? "error" members = none → r.error = none) := by
  iterate 14 obtain ⟨_, -, read⟩ := Option.bind_eq_some_iff.mp read
  obtain ⟨chain, chainRead, read⟩ := Option.bind_eq_some_iff.mp read
  obtain ⟨address, addressRead, read⟩ := Option.bind_eq_some_iff.mp read
  obtain ⟨error, errorRead, read⟩ := Option.bind_eq_some_iff.mp read
  iterate 2 obtain ⟨_, -, read⟩ := Option.bind_eq_some_iff.mp read
  obtain rfl := Option.some.inj read
  exact ⟨fun absent => optional?_missing absent chainRead, fun absent =>
    optional?_missing absent addressRead, fun absent => optional?_missing absent errorRead⟩

end AuditReport

namespace ReviewResult

/-- A result whose report is in range and has finite doubles, with any duration and instant that
there are. -/
structure IsValid (r : ReviewResult) : Prop where
  review : ∀ a, r.review = some a → a.IsProper
  duration_fits : r.executionTimeMs < 1 <<< 64
  timestamp : r.timestamp.IsValid

def settled (r : ReviewResult) : ReviewResult :=
  { r with timestamp := r.timestamp.settled }

theorem keeps : Keeps IsValid settled toJson ofJson? := by
  refine .of_settled ?_ ?_ fun r => ofJson?_toJson
  · exact fun r valid => ⟨fun a reported => (valid.review a reported).inRange, valid.duration_fits,
      Instant.isProper_settled valid.timestamp⟩
  · intro r valid
    simp only [toJson, settled, Instant.toText_settled valid.timestamp]

end ReviewResult

namespace AuditReport

/-- A report in range with finite doubles and any instant that there is. -/
structure IsValid (r : AuditReport) : Prop extends r.InRange where
  finite : ∀ x ∈ r.reals, x.isFinite = true
  timestamp : r.timestamp.IsValid

def settled (r : AuditReport) : AuditReport :=
  { r with timestamp := r.timestamp.settled }

theorem keeps : Keeps IsValid settled toJson ofJson? := by
  refine .of_settled ?_ ?_ fun r (proper : r.InRange ∧ r.timestamp.IsProper) =>
    ofJson?_toJson proper.1 proper.2
  · intro r valid
    have fits : r.settled.Fits := ⟨valid.contractInfo, valid.lines_fit, valid.counts,
      valid.contributions_fit, valid.static_fits, valid.duration_fits⟩
    exact ⟨⟨⟨valid.findings, valid.contributions_increase⟩, fits⟩,
      Instant.isProper_settled valid.timestamp⟩
  · intro r valid
    simp only [toJson, settled, Instant.toText_settled valid.timestamp]

theorem settled_eq_self_iff {r : AuditReport} : r.settled = r ↔ ¬r.timestamp.IsMisplaced := by
  rw [← Instant.settled_eq_self_iff]
  exact ⟨congrArg AuditReport.timestamp, fun same => by rw [settled, same]⟩

end AuditReport

theorem ReviewResult.settled_eq_self_iff {r : ReviewResult} :
    r.settled = r ↔ ¬r.timestamp.IsMisplaced := by
  rw [← Instant.settled_eq_self_iff]
  exact ⟨congrArg ReviewResult.timestamp, fun same => by rw [settled, same]⟩

/-- What is written for a record is read as it, but for a second that is inserted within a minute;
and a member that is left out stands for no value. -/
theorem records_survive_storage :
    (Keeps Finding.IsProper id Finding.toJson Finding.ofJson? ∧
      Keeps Review.IsProper id Review.toJson Review.ofJson? ∧
      Keeps ReviewResult.IsValid ReviewResult.settled ReviewResult.toJson ReviewResult.ofJson? ∧
      Keeps AuditReport.IsValid AuditReport.settled AuditReport.toJson AuditReport.ofJson?) ∧
    ((∀ r : ReviewResult, r.settled = r ↔ ¬r.timestamp.IsMisplaced) ∧
      ∀ r : AuditReport, r.settled = r ↔ ¬r.timestamp.IsMisplaced) ∧
    LeavesOut "chain" AuditReport.chain AuditReport.toJson AuditReport.ofJson? ∧
    LeavesOut "address" AuditReport.address AuditReport.toJson AuditReport.ofJson? ∧
    LeavesOut "error" AuditReport.error AuditReport.toJson AuditReport.ofJson? ∧
    LeavesOut "bytecodeSize" ContractInfo.bytecodeSize ContractInfo.toJson
      ContractInfo.ofJson? := by
  refine ⟨⟨?_, ?_, ReviewResult.keeps, AuditReport.keeps⟩,
    ⟨fun r => r.settled_eq_self_iff, fun r => r.settled_eq_self_iff⟩, ?_, ?_, ?_, ?_⟩
  · exact .of_settled (fun f proper => proper) (fun f _ => rfl) fun f proper =>
      Finding.ofJson?_toJson proper.toInRange
  · exact .of_settled (fun a proper => proper) (fun a _ => rfl) fun a proper =>
      Review.ofJson?_toJson proper.inRange
  · refine ⟨fun r => ?_, fun members r read => (AuditReport.optional_absent read).1⟩
    rw [r.get?_optional.1, Option.map_eq_none_iff]
  · refine ⟨fun r => ?_, fun members r read => (AuditReport.optional_absent read).2.1⟩
    rw [r.get?_optional.2.1, Option.map_eq_none_iff]
  · refine ⟨fun r => ?_, fun members r read => (AuditReport.optional_absent read).2.2⟩
    rw [r.get?_optional.2.2, Option.map_eq_none_iff]
  · refine ⟨fun c => ?_, fun members c read => ContractInfo.size_absent read⟩
    rw [c.get?_size, Option.map_eq_none_iff]

/-- A report with a finding of two sources, some of its members left out. -/
def sampleReport : AuditReport :=
  { AuditReport.bare "audit-1" .completed 87.5 .medium ⟨1709210096, 789000000⟩ with
    findings := [
      { name := "Unchecked call", description := "The result is \"dropped\"",
        category := "external-calls", severity := .high, confidence := .medium,
        affectedLines := [3, 17], codeSnippet := "a.call(\n)", recommendation := "Check it",
        impact := "Loss of funds", detectedBy := ["security", "static"], consensus := 0.5,
        finalConfidence := 0.625 }]
    counts := ⟨0, 1, 0, 0⟩
    codeQuality := ⟨some 72.25, ["Short functions"]⟩
    contributions := [("security", 1), ("static", 1)]
    staticFindingCount := 1
    chain := some "ethereum"
    executionTime := 1250 }

theorem isProper_sampleReport : sampleReport.IsProper := by
  have ordered : ∀ f ∈ sampleReport.findings, f.IsOrdered := by
    simp only [sampleReport, List.forall_mem_singleton]
    exact ⟨by decide, by decide⟩
  have fits : sampleReport.Fits :=
    ⟨⟨by decide, by decide, by decide, by decide, by decide, by decide, by decide,
      nofun⟩, by decide, ⟨by decide, by decide, by decide, by decide⟩, by decide, by decide,
      by decide⟩
  have finite : ∀ x ∈ sampleReport.reals, x.isFinite = true := by decide
  exact ⟨⟨⟨ordered, by decide⟩, fits⟩, finite, ⟨by decide, by decide, by decide⟩⟩

theorem sampleReport_survives : sampleReport.IsValid ∧
    AuditReport.ofJson? sampleReport.toJson = some sampleReport := by
  have proper := isProper_sampleReport
  have valid : sampleReport.IsValid := ⟨proper.toInRange, proper.finite, proper.timestamp.isValid⟩
  have placed : ¬sampleReport.timestamp.IsMisplaced := by decide
  exact ⟨valid, (records_survive_storage.1.2.2.2.exact_iff _ valid).mpr
    (AuditReport.settled_eq_self_iff.mpr placed)⟩

/-- A report of a second that was inserted in the middle of a minute. -/
def leapingReport : AuditReport :=
  AuditReport.bare "audit-2" .completed 87.5 .medium ⟨1709210070, 1500000000⟩

/-- The report is read as that of the next second. -/
theorem ofJson?_leapingReport_ne : leapingReport.IsValid ∧ leapingReport.timestamp.HasShortYear ∧
    AuditReport.ofJson? leapingReport.toJson =
      some { leapingReport with timestamp := ⟨1709210071, 500000000⟩ } ∧
    AuditReport.ofJson? leapingReport.toJson ≠ some leapingReport := by
  have range := AuditReport.inRange_bare "audit-2" .completed 87.5 .medium ⟨1709210070, 1500000000⟩
  have finite : ∀ x ∈ leapingReport.reals, x.isFinite = true := by decide
  have valid : leapingReport.IsValid := ⟨range, finite, by decide, by decide⟩
  have moved : leapingReport.settled =
    { leapingReport with timestamp := ⟨1709210071, 500000000⟩ } := rfl
  have misplaced : leapingReport.timestamp.IsMisplaced := by decide
  refine ⟨valid, ⟨by decide, by decide⟩, ?_, fun same => ?_⟩
  · rw [AuditReport.keeps.restores _ valid, moved]
  · rw [AuditReport.keeps.exact_iff _ valid, AuditReport.settled_eq_self_iff] at same
    exact same misplaced

end AuditPanel
