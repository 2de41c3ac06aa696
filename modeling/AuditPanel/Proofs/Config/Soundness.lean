import AuditPanel.Config.Reader
import AuditPanel.Proofs.Audit.Outcome
import AuditPanel.Proofs.Consensus.ReportScore

/-!
What an accepted configuration guarantees. A check refuses a value that is below its bound; a
penalty or a weight that is no number is not below zero, so it gets through. The score of a report
is no number exactly when such a penalty counts.
-/

set_option autoImplicit false

namespace AuditPanel

open Consensus Double

/-- Whether points or a weight pass for non-negative: they are zero or more, or no number at all. -/
def PassesForNonnegative (x : Float) : Prop :=
  0.0 ≤ x ∨ x.isNaN

private theorem passesForNonnegative_iff {x : Float} : PassesForNonnegative x ↔ ¬x < 0.0 := by
  have zero : ¬(0.0 : Float).isNaN := by decide +kernel
  rw [not_lt_iff, PassesForNonnegative, or_iff_left zero]

/-- The guarantees of an accepted configuration about the settings of the engine. Times are in
milliseconds. -/
structure Settings.IsSound (s : Settings) : Prop where
  penalties : ∀ severity, PassesForNonnegative (s.scoring.penalties.of severity)
  weights : ∀ reviewer, PassesForNonnegative (s.scoring.weight reviewer)
  minConfidence : 0.0 ≤ s.scoring.minConfidence ∧ s.scoring.minConfidence ≤ 1.0
  thresholds : 0.0 ≤ s.scoring.thresholds.high ∧ s.scoring.thresholds.high <
    s.scoring.thresholds.medium ∧
    s.scoring.thresholds.medium < s.scoring.thresholds.low ∧ s.scoring.thresholds.low ≤ maxScore
  globalTimeout : 1000 ≤ s.globalTimeout
  fastTimeout : 1 ≤ s.fastTimeout
  deepTimeout : ∀ time ∈ s.deepTimeout, 1000 ≤ time
  maxConcurrentAgents : 1 ≤ s.maxConcurrentAgents
  maxSourceBytes : 1 ≤ s.maxSourceBytes

namespace Config

@[simp] theorem ok_bind {α β : Type} (a : α) (f : α → Except Failure β) :
    (Except.ok a >>= f) = f a := rfl

@[simp] theorem refuseIf_eq_ok {condition : Bool} {detail : String} :
    refuseIf condition detail = .ok () ↔ condition = false := by
  cases condition <;> simp [refuseIf]

@[simp] theorem refuseIf_bind_eq_ok {α : Type} {condition : Bool} {detail : String}
    {rest : Except Failure α} {a : α} :
    (refuseIf condition detail >>= fun _ => rest) = .ok a ↔ condition = false ∧ rest = .ok a := by
  cases condition <;> simp [refuseIf, bind, Except.bind]

private theorem checkAnalysis_eq_ok {a : AnalysisSection} :
    checkAnalysis a = .ok () ↔
      a.globalTimeoutSecs ≠ some 0 ∧ a.fastTimeoutMs ≠ some 0 ∧ a.deepTimeoutSecs ≠ some 0 ∧
        a.maxConcurrentAgents ≠ some 0 ∧ a.maxSourceBytes ≠ some 0 := by
  simp [checkAnalysis]

private theorem checkWeights_eq_ok {weights : List (String × Float)} :
    checkWeights weights = .ok () ↔ ∀ entry ∈ weights, PassesForNonnegative entry.2 := by
  induction weights with
  | nil => simp [checkWeights]
  | cons entry weights ih =>
    obtain ⟨name, w⟩ := entry
    simp [checkWeights, ih, passesForNonnegative_iff]

private theorem hasNegative_eq_false {p : Penalties} :
    hasNegative p = false ↔ ∀ severity, PassesForNonnegative (p.of severity) := by
  simp only [passesForNonnegative_iff]
  constructor
  · intro none_ severity
    simp only [hasNegative, List.any_cons, List.any_nil, Bool.or_false, Bool.or_eq_false_iff,
      decide_eq_false_iff_not] at none_
    obtain ⟨critical, high, medium, low⟩ := none_
    cases severity with
    | critical => exact critical
    | high => exact high
    | medium => exact medium
    | low => exact low
  · intro points
    simp only [hasNegative, List.any_cons, List.any_nil, Bool.or_false, Bool.or_eq_false_iff,
      decide_eq_false_iff_not]
    exact ⟨points .critical, points .high, points .medium, points .low⟩

private theorem checkScoring_eq_ok {s : ScoringSection} :
    checkScoring s = .ok () ↔
      (∀ t ∈ s.thresholds, t.isDescending) ∧
      (∀ p ∈ s.penalties, ∀ severity, PassesForNonnegative (p.of severity)) ∧
      (∀ m ∈ s.minConfidence, 0.0 ≤ m ∧ m ≤ 1.0) ∧
      ∀ entry ∈ s.weights.getD [], PassesForNonnegative entry.2 := by
  obtain ⟨minConfidence, penalties, thresholds, weights⟩ := s
  cases thresholds <;> cases penalties <;> cases minConfidence <;>
    simp [checkScoring, checkWeights_eq_ok, hasNegative_eq_false]

private theorem check_eq_ok {c : Config} :
    c.check = .ok () ↔ (∀ a ∈ c.analysis, checkAnalysis a = .ok ()) ∧ ∀ s ∈ c.scoring,
      checkScoring s = .ok () := by
  unfold check
  cases c.analysis with
  | none => cases c.scoring <;> simp
  | some a =>
    cases checked : checkAnalysis a <;> cases c.scoring <;> simp [checked, bind, Except.bind]

private theorem check_of_ofText {text : String} {c : Config} (read : ofText text = .ok c) :
    c.check = .ok () := by
  unfold ofText at read
  obtain ⟨v, -, made⟩ : ∃ v, valueOfText text = .ok v ∧ ofValue v = .ok c := by
    cases value : valueOfText text with
    | error e => simp [value, Except.bind] at read
    | ok v => exact ⟨v, rfl, by simpa [value, Except.bind] using read⟩
  unfold ofValue at made
  split at made
  · simp at made
  · simp at made
  · next c' _ _ =>
    cases checked : c'.check with
    | error e => simp [checked, Except.map] at made
    | ok _ =>
      obtain rfl : c' = c := by simpa [checked, Except.map] using made
      exact checked

private theorem applyWeights_passes {weights weights' : List (Reviewer × Float)}
    {entries : List (String × Float)}
    (usual : ∀ m ∈ weights, PassesForNonnegative m.2)
    (configured : ∀ entry ∈ entries, PassesForNonnegative entry.2)
    (applied : applyWeights weights entries = .ok weights') :
    ∀ m ∈ weights', PassesForNonnegative m.2 := by
  induction entries generalizing weights with
  | nil =>
    obtain rfl : weights = weights' := by simpa [applyWeights] using applied
    exact usual
  | cons entry entries ih =>
    obtain ⟨name, w⟩ := entry
    rw [applyWeights] at applied
    split at applied
    · next r _ =>
      refine ih ?_ (fun entry member => configured entry (List.mem_cons_of_mem _ member)) applied
      intro m member
      obtain ⟨old, listed, rfl⟩ := List.mem_map.mp member
      split
      · exact configured (name, w) List.mem_cons_self
      · exact usual old listed
    · simp at applied

private theorem defaultWeight_nonnegative (r : Reviewer) : 0.0 ≤ r.defaultWeight := by
  cases r <;> decide +kernel

private theorem weight_passes {rules : ScoringRules}
    (weights : ∀ m ∈ rules.weights, PassesForNonnegative m.2)
    (r : Reviewer) : PassesForNonnegative (rules.weight r) := by
  unfold ScoringRules.weight
  split
  · next owner w found => exact weights (owner, w) (List.mem_of_find?_eq_some found)
  · exact .inl (defaultWeight_nonnegative r)

private theorem standard_isSound : Settings.standard.IsSound where
  penalties severity := .inl (by cases severity <;> decide +kernel)
  weights := weight_passes fun m member => by
    obtain ⟨r, -, rfl⟩ := List.mem_map.mp member
    exact .inl (defaultWeight_nonnegative r)
  minConfidence := by decide +kernel
  thresholds := by decide +kernel
  globalTimeout := by decide
  fastTimeout := by decide
  deepTimeout := by simp [Settings.standard]
  maxConcurrentAgents := by decide
  maxSourceBytes := by decide

private theorem applyAnalysis_isSound {s : Settings} (usual : s.IsSound) {a : AnalysisSection}
    (checked : checkAnalysis a = .ok ()) : (applyAnalysis s a).IsSound := by
  obtain ⟨global, fast, deep, agents, bytes⟩ := checkAnalysis_eq_ok.mp checked
  have positive (n : Nat) (value : Option Nat) (set : value = some n) (checked : value ≠ some 0) :
      1 ≤ n := by
    rw [set, Ne, Option.some.injEq] at checked
    omega
  refine ⟨usual.penalties, usual.weights, usual.minConfidence, usual.thresholds, ?_, ?_, ?_, ?_, ?_⟩
  · cases set : a.globalTimeoutSecs with
    | none => simpa [applyAnalysis, set] using usual.globalTimeout
    | some n =>
      have one := positive n _ set global
      simp only [applyAnalysis, set, Option.map_some, Option.getD_some]
      omega
  · cases set : a.fastTimeoutMs with
    | none => simpa [applyAnalysis, set] using usual.fastTimeout
    | some n => simpa [applyAnalysis, set] using positive n _ set fast
  · cases set : a.deepTimeoutSecs with
    | none => simpa [applyAnalysis, set] using usual.deepTimeout
    | some n =>
      have one := positive n _ set deep
      intro time resolved
      obtain rfl : 1000 * n = time := by simpa [applyAnalysis, set] using resolved
      omega
  · cases set : a.maxConcurrentAgents with
    | none => simpa [applyAnalysis, set] using usual.maxConcurrentAgents
    | some n => simpa [applyAnalysis, set] using positive n _ set agents
  · cases set : a.maxSourceBytes with
    | none => simpa [applyAnalysis, set] using usual.maxSourceBytes
    | some n => simpa [applyAnalysis, set] using positive n _ set bytes

private theorem scoringRules_isSound {s : Settings} (limits : s.IsSound) {section_ : ScoringSection}
    {rules : ScoringRules}
    (checked : checkScoring section_ = .ok ()) (made : scoringRules section_ = .ok rules) :
    Settings.IsSound { s with scoring := rules } := by
  obtain ⟨descending, points, floor, weights⟩ := checkScoring_eq_ok.mp checked
  have usual := standard_isSound
  unfold scoringRules at made
  cases applied : applyWeights ScoringRules.standard.weights (section_.weights.getD []) with
  | error e => simp [applied, Except.map] at made
  | ok weights' =>
    obtain rfl : _ = rules := by simpa [applied, Except.map] using made
    refine ⟨?_, weight_passes (applyWeights_passes ?_ weights applied), ?_, ?_,
      limits.globalTimeout, limits.fastTimeout, limits.deepTimeout, limits.maxConcurrentAgents,
      limits.maxSourceBytes⟩
    · cases set : section_.penalties with
      | none =>
        simp only [Option.getD_none]
        exact usual.penalties
      | some p => simpa [set] using points p set
    · intro m member
      obtain ⟨r, -, rfl⟩ := List.mem_map.mp member
      exact .inl (defaultWeight_nonnegative r)
    · cases set : section_.minConfidence with
      | none =>
        simp only [Option.getD_none]
        exact usual.minConfidence
      | some m => simpa [set] using floor m set
    · cases set : section_.thresholds with
      | none =>
        simp only [Option.getD_none]
        exact usual.thresholds
      | some t =>
        have bands := descending t set
        simp only [Thresholds.isDescending, Bool.and_eq_true, decide_eq_true_eq] at bands
        obtain ⟨⟨⟨medium, high⟩, least⟩, most⟩ := bands
        exact ⟨least, high, medium, most⟩

/-- The settings of the analysis section, over the usual ones. -/
def limits (c : Config) : Settings :=
  c.analysis.elim .standard (applyAnalysis .standard)

private theorem settings_eq (c : Config) :
    c.settings = c.scoring.elim (.ok c.limits) fun s =>
      (scoringRules s).map fun rules => { c.limits with scoring := rules } := by
  unfold settings limits
  cases c.analysis <;> cases c.scoring <;> rfl

private theorem settings_isSound {c : Config} {settings : Settings} (checked : c.check = .ok ())
    (resolved : c.settings = .ok settings) : settings.IsSound := by
  obtain ⟨analysis, scoring⟩ := check_eq_ok.mp checked
  have limits : c.limits.IsSound := by
    unfold Config.limits
    cases set : c.analysis with
    | none => exact standard_isSound
    | some a => exact applyAnalysis_isSound standard_isSound (analysis a set)
  rw [settings_eq] at resolved
  cases set : c.scoring with
  | none =>
    rw [set] at resolved
    cases resolved
    exact limits
  | some section_ =>
    cases made : scoringRules section_ with
    | error e => simp [set, made, Except.map] at resolved
    | ok rules =>
      obtain rfl : _ = settings := by simpa [set, made, Except.map] using resolved
      exact scoringRules_isSound limits (scoring section_ set) made

end Config

namespace Auditor

/-- The report of a source, or of a deployed contract whose source is known. -/
def Completes (a : Auditor) (r : AuditReport) : Prop :=
  (∃ o source options s s', auditSource a o source options s = (.ok r, s')) ∨
    r.status = .completed ∧ ∃ o address chain options s s',
      auditAddress a o address chain options s = (.ok r, s')

private theorem runSource_score {a : Auditor} {o : Occasion} {source : String}
    {options : AuditOptions} {s s' : AuditorState}
    {r : AuditReport} (run : runSource a o source options s = (.ok r, s')) :
    r.overallScore = reportScore r.findings a.settings.scoring.penalties := by
  obtain ⟨p, view, elapsed, -, -, rfl⟩ := runSource_ok run
  rfl

private theorem bytecodeReport_status {o : Occasion} {address : String} {fetched : FetchedContract}
    {r : AuditReport}
    (made : bytecodeReport o address fetched = .ok r) : r.status = .bytecodeOnly := by
  unfold bytecodeReport at made
  cases scanned : Bytecode.scan fetched.bytecode with
  | error e => simp [scanned, bind, Except.bind] at made
  | ok scan =>
    simp only [scanned, bind, Except.bind] at made
    split at made
    · simp at made
    · obtain rfl : _ = r := by simpa using made
      rfl

private theorem runFetched_score {a : Auditor} {o : Occasion} {address chain : String}
    {options : AuditOptions}
    {fetched : FetchedContract} {s : AuditorState} {r : AuditReport}
    (status : r.status = .completed)
    (run : (runFetched a o address chain options fetched s).1 = .ok r) :
    r.overallScore = reportScore r.findings a.settings.scoring.penalties := by
  cases known : fetched.source with
  | none =>
    rw [runFetched_none known, Ending.map_eq_ok_iff] at run
    obtain ⟨bare, made, rfl⟩ := run
    have other : bare.status = .completed := status
    rw [bytecodeReport_status (Ending.ofExcept_eq_ok_iff.mp made)] at other
    cases other
  | some source =>
    simp only [runFetched, known, Ending.map_eq_ok_iff] at run
    obtain ⟨whole, outcome, rfl⟩ := run
    have score := runSource_score (r := whole) (Prod.ext outcome rfl)
    exact score

theorem Completes.overallScore {a : Auditor} {r : AuditReport} (completes : a.Completes r) :
    r.overallScore = reportScore r.findings a.settings.scoring.penalties := by
  rcases completes with ⟨o, source, options, s, s', completed⟩ |
    ⟨status, o, address, chain, options, s, s', completed⟩
  · obtain ⟨after, run, -⟩ := auditSource_ok completed
    exact runSource_score run
  · have run : (runAddress a o address chain options s).1 = .ok r := by
      rw [← auditAddress_fst, completed]
    cases valid : isValidAddress address with
    | false => simp [runAddress_malformed valid] at run
    | true =>
      cases fetcher : a.fetcher with
      | none => simp [runAddress, valid, fetcher] at run
      | some fetch =>
        cases found : fetch address chain with
        | error e => simp [runAddress, valid, fetcher, found] at run
        | ok fetched =>
          rw [runAddress_fetched valid fetcher found] at run
          exact runFetched_score status run

end Auditor

namespace Config

/-- The settings of an accepted configuration are sound, and with them the score of a completed
report lies in its range unless it is no number, as it is when a finding has a penalty that is
none. -/
theorem ofText_isSound {text : String} {c : Config} {settings : Settings}
    (read : ofText text = .ok c) (resolved : c.settings = .ok settings) :
    settings.IsSound ∧
    ∀ (a : Auditor) (r : AuditReport), a.settings = settings → a.Completes r →
      (r.overallScore.isNaN = false → 0.0 ≤ r.overallScore ∧ r.overallScore ≤ maxScore) ∧
      (r.overallScore.isNaN ↔ ∃ f ∈ r.findings,
        (settings.scoring.penalties.of f.severity).isNaN) := by
  have sound := settings_isSound (check_of_ofText read) resolved
  refine ⟨sound, fun a r same completes => ?_⟩
  rw [completes.overallScore, same]
  exact ⟨reportScore_mem_range, isNaN_reportScore sound.penalties⟩

/-- A configuration with penalties and limits of its own. -/
def strict : String :=
  "analysis:\n  max_concurrent_agents: 2\nscoring:\n  penalties: \x7b critical: 60, high: 30, medium: 10, low: 0 \x7d\n"

/-- Whether the security reviewer is heard about a source under the settings of a configuration, and
no time that is needed for that is beyond the clock. -/
def isAnsweredWith (text source : String) : Bool :=
  match (ofText text).bind settings with
  | .error _ => false
  | .ok settings =>
    let a := { Auditor.terse with settings := settings }
    a.isAnswered ⟨"1", default⟩ source ⟨none, .fast, some ["security"]⟩ Requests.none &&
      decide (a.IsTimely ⟨"1", default⟩)

theorem ofText_isSound_strict :
    ∃ (c : Config) (settings : Settings) (r : AuditReport), ofText strict = .ok c ∧
      c.settings = .ok settings ∧
      settings.IsSound ∧ Auditor.Completes { Auditor.terse with settings := settings } r ∧
      (r.overallScore.isNaN = false → 0.0 ≤ r.overallScore ∧ r.overallScore ≤ maxScore) := by
  have answered : isAnsweredWith strict "contract A \x7b\x7d" = true := by decide +kernel
  unfold isAnsweredWith at answered
  split at answered
  · simp at answered
  · next settings resolved =>
    obtain ⟨c, read, resolved⟩ : ∃ c, ofText strict = .ok c ∧ c.settings = .ok settings := by
      cases read : ofText strict with
      | error e => simp [read, Except.bind] at resolved
      | ok c => exact ⟨c, rfl, by simpa [read, Except.bind] using resolved⟩
    simp only [Bool.and_eq_true, decide_eq_true_eq] at answered
    obtain ⟨answered, timely⟩ := answered
    obtain ⟨r, after, completed⟩ := Auditor.auditSource_initial_completes answered timely
    have completes : Auditor.Completes { Auditor.terse with settings := settings } r :=
      .inl ⟨_, _, _, _, _, completed⟩
    obtain ⟨sound, scores⟩ := ofText_isSound read resolved
    exact ⟨c, settings, r, read, resolved, sound, completes, (scores _ r rfl completes).1⟩

/-- A penalty that is no number is accepted. It is not zero or more, and a report with a finding of
its severity has a score that is no number. -/
theorem ofText_accepts_nan :
    ∃ (c : Config) (settings : Settings),
      ofText "scoring:\n  penalties: \x7b critical: .nan, high: 25, medium: 15, low: 5 \x7d\n" =
        .ok c ∧ c.settings = .ok settings ∧ ¬0.0 ≤ settings.scoring.penalties.critical ∧
      (reportScore [{ (default : Finding) with severity := .critical }]
        settings.scoring.penalties).isNaN := by
  have accepted :
    ((ofText "scoring:\n  penalties: \x7b critical: .nan, high: 25, medium: 15, low: 5 \x7d\n").bind
      settings).toOption.any (fun s => !decide (0.0 ≤ s.scoring.penalties.critical) &&
        (reportScore [{ (default : Finding) with severity := .critical }]
          s.scoring.penalties).isNaN) = true := by
    decide +kernel
  cases read :
      ofText "scoring:\n  penalties: \x7b critical: .nan, high: 25, medium: 15, low: 5 \x7d\n" with
  | error e => simp [read, Except.bind, Except.toOption] at accepted
  | ok c =>
    cases resolved : c.settings with
    | error e => simp [read, resolved, Except.bind, Except.toOption] at accepted
    | ok settings =>
      simp only [read, resolved, Except.bind, Except.toOption, Option.any_some, Bool.and_eq_true,
        Bool.not_eq_true', decide_eq_false_iff_not] at accepted
      exact ⟨c, settings, rfl, resolved, accepted⟩

end Config

end AuditPanel
