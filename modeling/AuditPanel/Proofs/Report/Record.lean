import AuditPanel.Proofs.Review.Record
import AuditPanel.Report.Basic

/-!
Audit reports as records. A report whose sets and counts are in range is what its record holds;
written as text and read again, it has the doubles that the reader takes from their texts, and
nothing else of it changes.
-/

set_option autoImplicit false

namespace AuditPanel

open Json

theorem AuditStatus.ofJson?_toJson (s : AuditStatus) : ofJson? s.toJson = some s := by
  cases s <;> rfl

namespace SeverityCounts

/-- The counts fit their words. -/
structure InRange (c : SeverityCounts) : Prop where
  critical_fits : c.critical < 1 <<< 64
  high_fits : c.high < 1 <<< 64
  medium_fits : c.medium < 1 <<< 64
  low_fits : c.low < 1 <<< 64

variable {c : SeverityCounts}

theorem ofJson?_toJson (range : c.InRange) : ofJson? c.toJson = some c := by
  have found : c.toJson.slots? ["critical", "high", "medium", "low"] =
      some [.value (.nat c.critical), .value (.nat c.high), .value (.nat c.medium),
        .value (.nat c.low)] := by
    rw [toJson, slots?_ofMembers]
    · rfl
    · exact (by decide : ["critical", "high", "medium", "low"].Nodup)
  rw [ofJson?, found]
  dsimp only [Option.bind_eq_bind, Option.bind_some, Slot.required?]
  rw [asNat?_nat range.critical_fits, asNat?_nat range.high_fits, asNat?_nat range.medium_fits,
    asNat?_nat range.low_fits]
  rfl

theorem mapReals_toJson (write : Float → Json) : c.toJson.mapReals write = c.toJson := by
  rw [toJson, mapReals_ofMembers]
  rfl

theorem isStorable_toJson {depth : Nat} (range : c.InRange) : IsStorable (depth + 2) c.toJson := by
  refine .ofMembers ?_
  simp only [List.forall_mem_cons]
  exact ⟨.nat range.critical_fits, .nat range.high_fits, .nat range.medium_fits,
    .nat range.low_fits, nofun⟩

end SeverityCounts

namespace ContractInfo

/-- The counts fit their words. -/
structure InRange (c : ContractInfo) : Prop where
  functions_fit : c.functionCount < 1 <<< 64
  modifiers_fit : c.modifierCount < 1 <<< 64
  events_fit : c.eventCount < 1 <<< 64
  variables_fit : c.stateVariableCount < 1 <<< 64
  payable_fit : c.payableFunctionCount < 1 <<< 64
  complexity_fits : c.complexity < 1 <<< 32
  lines_fit : c.linesOfCode < 1 <<< 64
  size_fits : ∀ n, c.bytecodeSize = some n → n < 1 <<< 64

variable {c : ContractInfo}

theorem members_nodup (c : ContractInfo) : (c.members.map (·.1)).Nodup := by
  have all : fieldNames.Nodup := by decide
  refine all.sublist ?_
  rcases c with ⟨_, _, _, _, _, _, _, _, _, _ | size⟩
  · exact List.sublist_append_left _ ["bytecodeSize"]
  · exact List.Sublist.refl _

private theorem slots?_toJson (c : ContractInfo) :
    c.toJson.slots? fieldNames =
      some [.value (.string c.name), .value (.strings c.contracts), .value (.nat c.functionCount),
        .value (.nat c.modifierCount), .value (.nat c.eventCount),
        .value (.nat c.stateVariableCount), .value (.nat c.payableFunctionCount),
        .value (.nat c.complexity), .value (.nat c.linesOfCode),
        optionalSlot nat c.bytecodeSize] := by
  rw [toJson, slots?_ofMembers c.members_nodup]
  rcases c with ⟨_, _, _, _, _, _, _, _, _, _ | size⟩ <;> rfl

theorem ofJson?_toJson (range : c.InRange) : ofJson? c.toJson = some c := by
  have size : (optionalSlot nat c.bytecodeSize).optional? asNat? = some c.bytecodeSize :=
    optional?_optionalSlot (fun n some_ => asNat?_nat (range.size_fits n some_)) nofun
  rw [ofJson?, c.slots?_toJson]
  dsimp only [Option.bind_eq_bind, Option.bind_some, Slot.required?, asString?]
  rw [asList?_strings, asNat?_nat range.functions_fit, asNat?_nat range.modifiers_fit,
    asNat?_nat range.events_fit, asNat?_nat range.variables_fit, asNat?_nat range.payable_fit,
    asNat32?_nat range.complexity_fits, asNat?_nat range.lines_fit, size]
  rfl

theorem mapReals_toJson (write : Float → Json) : c.toJson.mapReals write = c.toJson := by
  rw [toJson, mapReals_ofMembers, members]
  rcases c with ⟨_, _, _, _, _, _, _, _, _, _ | size⟩
    <;> simp only [List.map_append, List.map_cons, List.map_nil,
    mapReals_strings, Option.toList_none, Option.toList_some] <;> rfl

theorem isStorable_toJson {depth : Nat} (range : c.InRange) : IsStorable (depth + 2) c.toJson := by
  refine .ofMembers ?_
  have size : ∀ m ∈ c.bytecodeSize.toList.map fun n => ("bytecodeSize", nat n),
      IsStorable (depth + 1) m.2 := by
    intro m member
    obtain ⟨n, some_, rfl⟩ := List.mem_map.mp member
    exact .nat (range.size_fits n (Option.mem_toList.mp some_))
  simp only [members, List.forall_mem_append, List.forall_mem_cons]
  exact ⟨⟨.string _, .strings _, .nat range.functions_fit, .nat range.modifiers_fit,
    .nat range.events_fit, .nat range.variables_fit, .nat range.payable_fit,
    .nat (Nat.lt_trans range.complexity_fits (by decide)), .nat range.lines_fit, nofun⟩, size⟩

end ContractInfo

namespace AuditReport

/-- The sets of a report are sets. -/
structure IsOrdered (r : AuditReport) : Prop where
  findings : ∀ f ∈ r.findings, f.IsOrdered
  contributions_increase : r.contributions.Pairwise fun a b => a.1 < b.1

/-- The counts of a report fit their words. -/
structure Fits (r : AuditReport) : Prop where
  contractInfo : r.contractInfo.InRange
  lines_fit : ∀ f ∈ r.findings, ∀ n ∈ f.affectedLines, n < 1 <<< 32
  counts : r.counts.InRange
  contributions_fit : ∀ m ∈ r.contributions, m.2 < 1 <<< 64
  static_fits : r.staticFindingCount < 1 <<< 64
  duration_fits : r.executionTime < 1 <<< 64

/-- The sets of a report are sets and its counts fit their words. -/
structure InRange (r : AuditReport) : Prop extends r.IsOrdered, r.Fits

def reals (r : AuditReport) : List Float :=
  r.overallScore :: r.confidenceScore :: (r.codeQuality.reals ++ r.findings.flatMap Finding.reals)

def mapReals (g : Float → Float) (r : AuditReport) : AuditReport :=
  { r with
    overallScore := g r.overallScore
    confidenceScore := g r.confidenceScore
    codeQuality := r.codeQuality.mapReals g
    findings := r.findings.map (Finding.mapReals g) }

/-- A report in range with finite doubles and an instant of the calendar. -/
structure IsProper (r : AuditReport) : Prop extends r.InRange where
  finite : ∀ x ∈ r.reals, x.isFinite = true
  timestamp : r.timestamp.IsProper

variable {r : AuditReport}

theorem inRange_bare (auditId : String) (status : AuditStatus) (score : Float) (risk : RiskLevel)
    (time : Instant) :
    (bare auditId status score risk time).InRange := by
  have zero : 0 < 1 <<< 64 := by decide
  have zero32 : 0 < 1 <<< 32 := by decide
  exact ⟨⟨nofun, .nil⟩, ⟨zero, zero, zero, zero, zero, zero32, zero, nofun⟩, nofun,
    ⟨zero, zero, zero, zero⟩, nofun, zero, zero⟩

theorem InRange.finding (range : r.InRange) {f : Finding} (member : f ∈ r.findings) : f.InRange :=
  ⟨range.findings f member, range.lines_fit f member⟩

theorem InRange.mapReals (range : r.InRange) (g : Float → Float) : (r.mapReals g).InRange := by
  refine ⟨⟨?_, range.contributions_increase⟩, range.contractInfo, ?_, range.counts,
    range.contributions_fit, range.static_fits, range.duration_fits⟩
  · intro f member
    obtain ⟨f, inside, rfl⟩ := List.mem_map.mp member
    obtain ⟨lines, sources⟩ := range.findings f inside
    exact ⟨lines, sources⟩
  · intro f member
    obtain ⟨f, inside, rfl⟩ := List.mem_map.mp member
    exact range.lines_fit f inside

private theorem mapReals_eq_self {g : Float → Float} (same : ∀ x ∈ r.reals, g x = x) :
    r.mapReals g = r := by
  have finding (f : Finding) (member : f ∈ r.findings) : f.mapReals g = f := by
    have inside (x : Float) (real : x ∈ f.reals) : g x = x := by
      refine same x ?_
      simp only [reals, List.mem_cons, List.mem_append, List.mem_flatMap]
      exact .inr (.inr (.inr ⟨f, member, real⟩))
    rw [Finding.mapReals, inside f.consensus (by simp [Finding.reals]),
      inside f.finalConfidence (by simp [Finding.reals])]
  have quality : r.codeQuality.mapReals g = r.codeQuality := by
    rw [CodeQuality.mapReals]
    cases found : r.codeQuality.score with
    | none => rw [Option.map_none, ← found]
    | some x =>
      have inside : x ∈ r.reals := by simp [reals, CodeQuality.reals, found]
      rw [Option.map_some, same x inside, ← found]
  have findings : r.findings.map (Finding.mapReals g) = r.findings := by
    rw [List.map_congr_left finding, List.map_id']
  rw [mapReals, quality, findings, same r.overallScore (by simp [reals]),
    same r.confidenceScore (by simp [reals])]

private theorem optionalMember_names (name : String) (value : Option String) :
    ((optionalMember name value).map (·.1)).Sublist [name] := by
  cases value with
  | none => exact List.nil_sublist _
  | some s => exact List.Sublist.refl _

def members (r : AuditReport) : List (String × Json) :=
  [("auditId", .string r.auditId), ("status", r.status.toJson),
    ("contractInfo", r.contractInfo.toJson),
    ("vulnerabilities", .array (r.findings.map Finding.toJson)),
    ("overallScore", .real r.overallScore), ("riskLevel", r.riskLevel.toJson),
    ("confidenceScore", .real r.confidenceScore), ("severityCounts", r.counts.toJson),
    ("summary", .string r.summary), ("recommendations", .strings r.recommendations),
    ("gasOptimizations", .strings r.gasOptimizations), ("codeQuality", r.codeQuality.toJson),
    ("agentContributions", .ofMembers (r.contributions.map fun m => (m.1, .nat m.2))),
    ("staticFindingCount", .nat r.staticFindingCount)]
  ++ optionalMember "chain" r.chain ++ optionalMember "address" r.address ++
    optionalMember "error" r.error
  ++ [("executionTime", .nat r.executionTime), ("timestamp", .string r.timestamp.toText)]

theorem toJson_eq (r : AuditReport) : r.toJson = .ofMembers r.members :=
  rfl

theorem members_nodup (r : AuditReport) : (r.members.map (·.1)).Nodup := by
  have names : fieldNames.Nodup := by decide
  refine names.sublist ?_
  simp only [members, List.map_append]
  exact (((List.Sublist.refl _).append (optionalMember_names "chain" r.chain)).append
    (optionalMember_names "address" r.address)).append (optionalMember_names "error" r.error)
      |>.append (.refl _)

private theorem slots?_toJson (r : AuditReport) :
    r.toJson.slots? fieldNames =
      some [.value (.string r.auditId), .value r.status.toJson, .value r.contractInfo.toJson,
        .value (.array (r.findings.map Finding.toJson)), .value (.real r.overallScore),
        .value r.riskLevel.toJson, .value (.real r.confidenceScore), .value r.counts.toJson,
        .value (.string r.summary), .value (.strings r.recommendations),
        .value (.strings r.gasOptimizations), .value r.codeQuality.toJson,
        .value (.ofMembers (r.contributions.map fun m => (m.1, .nat m.2))),
        .value (.nat r.staticFindingCount), optionalSlot .string r.chain,
        optionalSlot .string r.address, optionalSlot .string r.error, .value (.nat r.executionTime),
        .value (.string r.timestamp.toText)] := by
  rw [toJson_eq, slots?_ofMembers r.members_nodup]
  rcases r with ⟨_, _, _, _, _, _, _, _, _, _, _, _, _, _, _ | chain, _ | address, _ | error, _, _⟩
    <;> rfl

private theorem contributionsOf?_members {contributions : List (String × Nat)}
    (increase : contributions.Pairwise fun a b => a.1 < b.1)
    (fit : ∀ m ∈ contributions, m.2 < 1 <<< 64) :
    contributionsOf? (.ofMembers (contributions.map fun m => (m.1, .nat m.2))) =
      some contributions := by
  have sorted : IsSorted (contributions.map fun m => (m.1, Json.nat m.2)) :=
    List.pairwise_map.mpr increase
  rw [ofMembers_of_isSorted sorted]
  change (contributions.map fun m => (m.1, Json.nat m.2)).mapM _ = some contributions
  rw [List.mapM_map]
  clear increase sorted
  induction contributions with
  | nil => rfl
  | cons m rest ih =>
    rw [List.mapM_cons, ih fun m member => fit m (List.mem_cons_of_mem _ member),
      Function.comp_apply]
    dsimp only
    rw [asNat?_nat (fit m List.mem_cons_self)]
    rfl

private theorem optional?_optionalSlot_string (value : Option String) :
    (optionalSlot .string value).optional? asString? = some value :=
  optional?_optionalSlot (fun _ _ => rfl) nofun

private theorem ofJson?_toJson_eq (range : r.InRange) :
    ofJson? r.toJson = (Instant.ofText? r.timestamp.toText).map fun time =>
      { r with timestamp := time } := by
  have findings : asList? Finding.ofJson? (.array (r.findings.map Finding.toJson)) =
      some r.findings :=
    asList?_map fun f member => Finding.ofJson?_toJson (range.finding member)
  have dated : Instant.ofJson? (.string r.timestamp.toText) =
      Instant.ofText? r.timestamp.toText := by
    rw [Instant.ofJson?, asString?, Option.bind_some]
  rw [ofJson?, r.slots?_toJson]
  dsimp only [Option.bind_eq_bind, Option.bind_some, Slot.required?, asString?, asFloat?]
  rw [AuditStatus.ofJson?_toJson, ContractInfo.ofJson?_toJson range.contractInfo, findings,
    RiskLevel.ofJson?_toJson, SeverityCounts.ofJson?_toJson range.counts, asList?_strings,
    asList?_strings, CodeQuality.ofJson?_toJson,
    contributionsOf?_members range.contributions_increase range.contributions_fit,
    asNat?_nat range.static_fits, optional?_optionalSlot_string,
    optional?_optionalSlot_string, optional?_optionalSlot_string,
              asNat?_nat range.duration_fits, dated]
  cases Instant.ofText? r.timestamp.toText <;> rfl

theorem ofJson?_toJson (range : r.InRange) (dated : r.timestamp.IsProper) :
    ofJson? r.toJson = some r := by
  rw [ofJson?_toJson_eq range, Instant.ofText?_toText dated]
  rfl

theorem error_eq_of_toJson_eq {r r' : AuditReport} (same : r.toJson = r'.toJson) :
    r.error = r'.error := by
  have slots := congrArg (Json.slots? fieldNames) same
  rw [slots?_toJson, slots?_toJson] at slots
  have errors := congrArg (fun found => (found.bind (·[16]?)).bind (Slot.optional? asString?)) slots
  exact Option.some.inj (((optional?_optionalSlot_string r.error).symm.trans errors).trans
    (optional?_optionalSlot_string r'.error))

private theorem mapReals_optionalMember (write : Float → Json) (name : String)
    (value : Option String) :
    ((optionalMember name value).map fun m => (m.1, Json.mapReals write m.2)) =
      optionalMember name value := by
  cases value <;> rfl

theorem mapReals_toJson {write : Float → Json} {g : Float → Float}
    (same : ∀ x ∈ r.reals, write x = .real (g x)) :
    r.toJson.mapReals write = (r.mapReals g).toJson := by
  have findings : (r.findings.map Finding.toJson).map (Json.mapReals write) =
      (r.findings.map (Finding.mapReals g)).map Finding.toJson := by
    rw [List.map_map, List.map_map]
    refine List.map_congr_left fun f member => Finding.mapReals_toJson fun x real => same x ?_
    simp only [reals, List.mem_cons, List.mem_append, List.mem_flatMap]
    exact .inr (.inr (.inr ⟨f, member, real⟩))
  have quality : r.codeQuality.toJson.mapReals write = (r.codeQuality.mapReals g).toJson :=
    CodeQuality.mapReals_toJson fun x real => same x (by simp [reals, real])
  have contributions :
    Json.mapReals write (.ofMembers (r.contributions.map fun m => (m.1, .nat m.2))) =
      .ofMembers (r.contributions.map fun m => (m.1, .nat m.2)) := by
    rw [mapReals_ofMembers, List.map_map]
    rfl
  rw [toJson_eq, toJson_eq, mapReals_ofMembers, members, members]
  simp only [List.map_append, List.map_cons, List.map_nil, mapReals_array, mapReals_strings,
    mapReals_real, findings, quality, contributions, ContractInfo.mapReals_toJson,
    SeverityCounts.mapReals_toJson, mapReals_optionalMember,
        same r.overallScore (by simp [reals]), same r.confidenceScore (by simp [reals])]
  rfl

theorem isStorable_toJson {depth : Nat} (range : r.InRange) : IsStorable (depth + 4) r.toJson := by
  have optional (name : String) (value : Option String) : ∀ m ∈ optionalMember name value,
      IsStorable (depth + 3) m.2 := by
    intro m member
    obtain ⟨s, -, rfl⟩ := List.mem_map.mp member
    exact .string s
  have findings : IsStorable (depth + 3) (.array (r.findings.map Finding.toJson)) := by
    refine .array fun v member => ?_
    obtain ⟨f, inside, rfl⟩ := List.mem_map.mp member
    exact Finding.isStorable_toJson (range.finding inside)
  have contributions :
      IsStorable (depth + 3) (.ofMembers (r.contributions.map fun m => (m.1, .nat m.2))) := by
    refine .ofMembers fun m member => ?_
    obtain ⟨c, inside, rfl⟩ := List.mem_map.mp member
    exact .nat (range.contributions_fit c inside)
  rw [toJson_eq]
  refine .ofMembers ?_
  simp only [members, List.forall_mem_append, List.forall_mem_cons]
  refine ⟨⟨⟨⟨?_, optional _ _⟩, optional _ _⟩, optional _ _⟩, .nat range.duration_fits,
    .string _, nofun⟩
  exact ⟨.string _, .string _, ContractInfo.isStorable_toJson range.contractInfo, findings, .real _,
    .string _, .real _, SeverityCounts.isStorable_toJson range.counts, .string _, .strings _,
    .strings _, CodeQuality.isStorable_toJson _, contributions, .nat range.static_fits, nofun⟩

/-- A report as a reader of its text gives it back. -/
def restored (r : AuditReport) : AuditReport :=
  r.mapReals reread

theorem restored_eq_self (same : ∀ x ∈ r.reals, reread x = x) : r.restored = r :=
  mapReals_eq_self same

theorem restored_toJson (finite : ∀ x ∈ r.reals, x.isFinite = true) :
    Json.restored r.toJson = r.restored.toJson :=
  mapReals_toJson fun x member => rereal_of_isFinite (finite x member)

theorem read_toJson_eq (range : r.InRange) (finite : ∀ x ∈ r.reals, x.isFinite = true) :
    (Json.read? r.toJson.compact.toList).bind ofJson? =
      (Instant.ofText? r.timestamp.toText).map fun time =>
        { r.restored with timestamp := time } := by
  rw [read?_compact (isStorable_toJson range), Option.bind_some, restored_toJson finite, restored,
    ofJson?_toJson_eq (range.mapReals reread)]
  rfl

end AuditReport

end AuditPanel
