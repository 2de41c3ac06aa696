import AuditPanel.Proofs.Panel.Isolation
import AuditPanel.Proofs.Panel.Tasks

/-!
Whom a failure is put down to. A reviewer whose tasks came to a result, or were unresolved at the
deadline, is told of as they went and in no other way. A reviewer whose tasks crashed is told of by
what became of the whole session.
-/

set_option autoImplicit false

namespace AuditPanel.Session

variable {b : Brief} {panel : Panel} {made : Requests} {chosen : List Reviewer} {r : Reviewer}

/-- Some task of the reviewer is unresolved at the deadline. -/
def IsUnresolved (b : Brief) (panel : Panel) (made : Requests) (chosen : List Reviewer)
    (r : Reviewer) : Prop :=
  ∃ t ∈ ownTasks b panel made chosen r, t.ending = none

/-- All tasks of the reviewer crashed. -/
def HasCrashed (b : Brief) (panel : Panel) (made : Requests) (chosen : List Reviewer)
    (r : Reviewer) : Prop :=
  ∀ t ∈ ownTasks b panel made chosen r, ∃ time, t.ending = some (time, .crashed)

/-- In two sessions a reviewer is asked as often, after as many requests, and replies alike. -/
structure HasOneScript (panel panel' : Panel) (made made' : Requests)
    (chosen chosen' : List Reviewer) (r : Reviewer) :
    Prop where
  replies : panel'.reply r = panel.reply r
  waits : panel'.jitter r = panel.jitter r
  before : made' r = made r
  times : chosen'.count r = chosen.count r

namespace HasOneScript

variable {panel' : Panel} {made' : Requests} {chosen' : List Reviewer}

private theorem ownTasks_eq (script : HasOneScript panel panel' made made' chosen chosen' r) :
    ownTasks b panel' made' chosen' r = ownTasks b panel made chosen r := by
  simp only [ownTasks, tasks, script.replies, script.waits, script.before, script.times]

theorem ownResult?_eq (script : HasOneScript panel panel' made made' chosen chosen' r) :
    ownResult? b panel' made' chosen' r = ownResult? b panel made chosen r :=
  congrArg (fun ts => (lastEnding? ts).bind (resultOf? b r)) script.ownTasks_eq

private theorem isUnresolved_iff (script : HasOneScript panel panel' made made' chosen chosen' r) :
    IsUnresolved b panel' made' chosen' r ↔ IsUnresolved b panel made chosen r := by
  rw [IsUnresolved, IsUnresolved, script.ownTasks_eq]

end HasOneScript

private theorem lastEnding?_eq_none_iff {ts : List Task} :
    lastEnding? ts = none ↔ ∀ t ∈ ts, ∀ e ∈ t.ending, e.2 = .crashed := by
  rw [lastEnding?, List.getLast?_eq_none_iff, List.filter_eq_nil_iff]
  simp only [List.mem_filterMap, bne_iff_ne, ne_eq, not_not]
  constructor
  · intro crashed t member e ends
    exact crashed e ⟨t, member, ends⟩
  · rintro crashed e ⟨t, member, ends⟩
    exact crashed t member e ends

private theorem ownResult?_eq_none_iff : ownResult? b panel made chosen r = none ↔
    ∀ t ∈ ownTasks b panel made chosen r, ∀ e ∈ t.ending, e.2 = .crashed := by
  rw [← lastEnding?_eq_none_iff, ownTasks, ownResult?]
  constructor
  · intro none_
    by_contra some_
    obtain ⟨⟨time, outcome⟩, last⟩ := Option.ne_none_iff_exists'.mp some_
    -- The ending that counts is no crash, and all others have a result.
    have counts := (List.mem_filter.mp (List.mem_of_getLast? last)).2
    rw [last, Option.bind_some] at none_
    cases outcome with
    | answered text => cases none_
    | failed failure => cases none_
    | crashed => cases counts
  · intro none_
    rw [none_, Option.bind_none]

private theorem HasCrashed.ownResult?_eq_none (crashed : HasCrashed b panel made chosen r) :
    ownResult? b panel made chosen r = none := by
  rw [ownResult?_eq_none_iff]
  intro t member e ends
  obtain ⟨time, own⟩ := crashed t member
  rw [own] at ends
  cases ends
  rfl

private theorem isUnresolved_or_hasCrashed (unended : ownResult? b panel made chosen r = none) :
    IsUnresolved b panel made chosen r ∨ HasCrashed b panel made chosen r := by
  by_cases unresolved : IsUnresolved b panel made chosen r
  · exact .inl unresolved
  · refine .inr fun t member => ?_
    cases ending : t.ending with
    | none => exact absurd ⟨t, member, ending⟩ unresolved
    | some e =>
      have crash : e.2 = .crashed := ownResult?_eq_none_iff.mp unended t member e ending
      exact ⟨e.1, by rw [← crash]⟩

private theorem isUnresolved_iff_of_once (once : chosen.count r = 1) :
    IsUnresolved b panel made chosen r ↔ resolution? b panel r (made r) = none := by
  obtain ⟨calls, single⟩ := exists_tasks_eq b panel r (made r)
  simp only [IsUnresolved, ownTasks, once, single, List.mem_singleton, exists_eq_left]

private theorem hasCrashed_iff_of_once (once : chosen.count r = 1) :
    HasCrashed b panel made chosen r ↔ ∃ time, resolution? b panel r (made r) =
      some (time, .crashed) := by
  obtain ⟨calls, single⟩ := exists_tasks_eq b panel r (made r)
  simp only [HasCrashed, ownTasks, once, single, List.mem_singleton, forall_eq]

private theorem timedOut_sessionTasks :
    timedOut (sessionTasks b panel made chosen) = true ↔ ∃ r ∈ chosen,
      IsUnresolved b panel made chosen r := by
  rw [timedOut, List.any_eq_true]
  constructor
  · rintro ⟨t, member, open_⟩
    obtain ⟨r, asked, own⟩ := List.mem_flatMap.mp member
    exact ⟨r, List.contains_iff_mem.mp (List.mem_filter.mp asked).2, t, own,
      Option.isNone_iff_eq_none.mp open_⟩
  · rintro ⟨r, member, t, own, open_⟩
    have asked : r ∈ panelOrder.filter chosen.contains :=
      List.mem_filter.mpr ⟨mem_panelOrder r, List.contains_iff_mem.mpr member⟩
    exact ⟨t, List.mem_flatMap.mpr ⟨r, asked, own⟩, Option.isNone_iff_eq_none.mpr open_⟩

private theorem mem_run_results_iff {result : ReviewResult} :
    result ∈ (run b panel made chosen).results ↔
    result.reviewer ∈ chosen ∧ result = (ownResult? b panel made chosen result.reviewer).getD
      (blankResult b panel made chosen result.reviewer) := by
  have named (r : Reviewer) : ((ownResult? b panel made chosen r).getD
      (blankResult b panel made chosen r)).reviewer = r := by
    cases own : ownResult? b panel made chosen r with
    | none => rfl
    | some result => exact (isWellFormed_of_ownResult? own).1
  rw [run_results_eq, List.mem_map]
  constructor
  · rintro ⟨r, asked, rfl⟩
    rw [named]
    exact ⟨List.contains_iff_mem.mp (List.mem_filter.mp asked).2, rfl⟩
  · rintro ⟨member, told⟩
    exact ⟨_, List.mem_filter.mpr ⟨mem_panelOrder _, List.contains_iff_mem.mpr member⟩, told.symm⟩

private theorem exists_mem_run_results (member : r ∈ chosen) :
    ∃ result ∈ (run b panel made chosen).results, result.reviewer = r := by
  have named : r ∈ (run b panel made chosen).results.map (·.reviewer) := by
    rw [run_results_reviewers]
    exact List.mem_filter.mpr ⟨mem_panelOrder r, List.contains_iff_mem.mpr member⟩
  exact List.mem_map.mp named

def isCapitalized (text : List Char) : Bool :=
  text.head?.any Char.isUpper

private theorem isCapitalized_truncateError (text : List Char) :
    isCapitalized (Text.truncateError text) = isCapitalized text := by
  unfold Text.truncateError
  split
  · rfl
  · cases text with
    | nil => contradiction
    | cons c text => rfl

private theorem isCapitalized_message (failure : Failure) :
    isCapitalized failure.message.toList = true := by
  have heading : isCapitalized failure.kind.heading.toList = true := by
    cases failure.kind <;> decide
  unfold isCapitalized at heading ⊢
  rw [Failure.message, String.toList_append, String.toList_append]
  cases spelled : failure.kind.heading.toList with
  | nil => simp [spelled] at heading
  | cons c rest => simpa [spelled] using heading

private theorem isCapitalized_of_ownResult? {own : ReviewResult} {text : String}
    (ended : ownResult? b panel made chosen r = some own) (told : own.error = some text) :
    isCapitalized text.toList = true := by
  obtain ⟨⟨time, outcome⟩, -, given⟩ := Option.bind_eq_some_iff.mp ended
  cases outcome with
  | answered answer =>
    cases given
    cases told
  | failed failure =>
    cases given
    cases told
    rw [String.toList_ofList, isCapitalized_truncateError]
    exact isCapitalized_message failure
  | crashed => cases given

/-- Some chosen reviewer has a task that is unresolved at the deadline. -/
def Overruns (b : Brief) (panel : Panel) (made : Requests) (chosen : List Reviewer) : Prop :=
  ∃ r ∈ chosen, IsUnresolved b panel made chosen r

private theorem blankResult_of_overruns (late : Overruns b panel made chosen) :
    blankResult b panel made chosen r = .failed r timeoutText b.settings.globalTimeout
      b.timestamp := by
  have passed := timedOut_sessionTasks.mpr late
  simp only [blankResult, elapsed, passed, if_true]

private theorem blankResult_of_not_overruns (inTime : ¬ Overruns b panel made chosen) :
    blankResult b panel made chosen r =
      .failed r crashText (elapsed b (sessionTasks b panel made chosen)) b.timestamp := by
  have passed := mt timedOut_sessionTasks.mp inTime
  simp only [blankResult, if_neg passed]

variable {result : ReviewResult}

private theorem ownResult?_eq_none_of_error {text : String}
    (member : result ∈ (run b panel made chosen).results)
    (told : result.error = some text) (small : isCapitalized text.toList = false) :
    ownResult? b panel made chosen result.reviewer = none := by
  have given := (mem_run_results_iff.mp member).2
  by_contra some_
  obtain ⟨own, ended⟩ := Option.ne_none_iff_exists'.mp some_
  rw [ended, Option.getD_some] at given
  have large := isCapitalized_of_ownResult? ended (given ▸ told)
  rw [small] at large
  cases large

private theorem eq_blankResult (member : result ∈ (run b panel made chosen).results)
    (unended : ownResult? b panel made chosen result.reviewer = none) :
    result = blankResult b panel made chosen result.reviewer := by
  have given := (mem_run_results_iff.mp member).2
  rwa [unended, Option.getD_none] at given

/-- A failure put down to no task's own ending is put down to the deadline or to a crash, by what
became of the session. -/
private theorem error_eq_some_iff {text : String}
    (member : result ∈ (run b panel made chosen).results)
    (small : isCapitalized text.toList = false) :
    result.error = some text ↔ ownResult? b panel made chosen result.reviewer = none ∧
      (Overruns b panel made chosen ∧ text = timeoutText ∨ ¬ Overruns b panel made chosen ∧
        text = crashText) := by
  constructor
  · intro told
    have unended := ownResult?_eq_none_of_error member told small
    refine ⟨unended, ?_⟩
    rw [eq_blankResult member unended] at told
    by_cases late : Overruns b panel made chosen
    · rw [blankResult_of_overruns late] at told
      exact .inl ⟨late, (Option.some.inj told).symm⟩
    · rw [blankResult_of_not_overruns late] at told
      exact .inr ⟨late, (Option.some.inj told).symm⟩
  · rintro ⟨unended, ⟨late, rfl⟩ | ⟨inTime, rfl⟩⟩
    · rw [eq_blankResult member unended, blankResult_of_overruns late]
      rfl
    · rw [eq_blankResult member unended, blankResult_of_not_overruns inTime]
      rfl

private theorem error_eq_timeoutText_iff (member : result ∈ (run b panel made chosen).results) :
    result.error = some timeoutText ↔
      ownResult? b panel made chosen result.reviewer = none ∧ Overruns b panel made chosen := by
  have differ : timeoutText ≠ crashText := by decide
  rw [error_eq_some_iff member (by decide)]
  simp only [differ, and_true, and_false, or_false]

private theorem error_eq_crashText_iff (member : result ∈ (run b panel made chosen).results) :
    result.error = some crashText ↔
      ownResult? b panel made chosen result.reviewer = none ∧ ¬ Overruns b panel made chosen := by
  have differ : crashText ≠ timeoutText := by decide
  rw [error_eq_some_iff member (by decide)]
  simp only [differ, and_true, and_false, false_or]

private theorem HasOneScript.result_eq {panel' : Panel} {made' : Requests} {chosen' : List Reviewer}
    {result' : ReviewResult}
    (member : result ∈ (run b panel made chosen).results)
    (member' : result' ∈ (run b panel' made' chosen').results)
    (named : result'.reviewer = result.reviewer)
    (script : HasOneScript panel panel' made made' chosen chosen' result.reviewer)
    (uncrashed : ¬ HasCrashed b panel made chosen result.reviewer) : result' = result := by
  obtain ⟨asked, given⟩ := mem_run_results_iff.mp member
  obtain ⟨asked', given'⟩ := mem_run_results_iff.mp member'
  rw [named] at asked'
  rw [named, script.ownResult?_eq] at given'
  rw [given, given']
  cases unended : ownResult? b panel made chosen result.reviewer with
  | some own => rfl
  | none =>
    have unresolved := (isUnresolved_or_hasCrashed unended).resolve_right uncrashed
    have late : Overruns b panel made chosen := ⟨_, asked, unresolved⟩
    have late' : Overruns b panel' made' chosen' :=
      ⟨_, asked', script.isUnresolved_iff.mpr unresolved⟩
    rw [blankResult_of_overruns late, blankResult_of_overruns late']

/-- The rest of the panel shows in a result at most in its error and its time, and in its error only
by whether the deadline passed. -/
private theorem HasOneScript.result_eq_but {panel' : Panel} {made' : Requests}
    {chosen' : List Reviewer} {result' : ReviewResult}
    (member : result ∈ (run b panel made chosen).results)
    (member' : result' ∈ (run b panel' made' chosen').results)
    (named : result'.reviewer = result.reviewer)
    (script : HasOneScript panel panel' made made' chosen chosen' result.reviewer) :
    result' = { result with error := result'.error, executionTimeMs := result'.executionTimeMs } ∧
      ((Overruns b panel' made' chosen' ↔ Overruns b panel made chosen) →
        result'.error = result.error) := by
  have given := (mem_run_results_iff.mp member).2
  have given' := (mem_run_results_iff.mp member').2
  rw [named, script.ownResult?_eq] at given'
  rw [given, given']
  cases ownResult? b panel made chosen result.reviewer with
  | some own => exact ⟨rfl, fun _ => rfl⟩
  | none =>
    refine ⟨rfl, fun alike => ?_⟩
    simp only [Option.getD_none]
    by_cases late : Overruns b panel made chosen
    · rw [blankResult_of_overruns late, blankResult_of_overruns (alike.mpr late)]
    · rw [blankResult_of_not_overruns late, blankResult_of_not_overruns (mt alike.mp late)]
      rfl

/-- What the results of a session say of its reviewers, and what each of them depends on. -/
structure Attributes (b : Brief) (panel : Panel) (made : Requests) (chosen : List Reviewer) :
    Prop where
  complete : ∀ r ∈ chosen, ∃ result ∈ (run b panel made chosen).results, result.reviewer = r
  tasks : ∀ r, (ownTasks b panel made chosen r).length = chosen.count r ∧
    ∀ t ∈ ownTasks b panel made chosen r, t.EndsBefore b.settings.globalTimeout
  single : ∀ r, chosen.count r = 1 →
    (IsUnresolved b panel made chosen r ↔ resolution? b panel r (made r) = none) ∧
    (HasCrashed b panel made chosen r ↔ ∃ time, resolution? b panel r (made r) =
      some (time, .crashed))
  ended : ∀ result ∈ (run b panel made chosen).results, ∀ own,
    ownResult? b panel made chosen result.reviewer = some own → result = own
  unresolved : ∀ result ∈ (run b panel made chosen).results,
    ownResult? b panel made chosen result.reviewer = none →
      IsUnresolved b panel made chosen result.reviewer →
      result = .failed result.reviewer timeoutText b.settings.globalTimeout b.timestamp
  crashedInTime : ∀ result ∈ (run b panel made chosen).results,
    HasCrashed b panel made chosen result.reviewer →
    ¬ Overruns b panel made chosen →
      result = .failed result.reviewer crashText (elapsed b (sessionTasks b panel made chosen))
        b.timestamp
  crashedLate : ∀ result ∈ (run b panel made chosen).results,
    HasCrashed b panel made chosen result.reviewer →
    Overruns b panel made chosen →
      result = .failed result.reviewer timeoutText b.settings.globalTimeout b.timestamp
  timeout : ∀ result ∈ (run b panel made chosen).results, result.error = some timeoutText ↔
    ownResult? b panel made chosen result.reviewer = none ∧
      IsUnresolved b panel made chosen result.reviewer ∨
      HasCrashed b panel made chosen result.reviewer ∧ Overruns b panel made chosen
  crash : ∀ result ∈ (run b panel made chosen).results, result.error = some crashText ↔
    HasCrashed b panel made chosen result.reviewer ∧ ¬ Overruns b panel made chosen
  apart : ∀ panel' made' chosen', ∀ result ∈ (run b panel made chosen).results,
    ∀ result' ∈ (run b panel' made' chosen').results, result'.reviewer = result.reviewer →
      HasOneScript panel panel' made made' chosen chosen' result.reviewer →
        (¬ HasCrashed b panel made chosen result.reviewer → result' = result) ∧
        result' =
          { result with error := result'.error, executionTimeMs := result'.executionTimeMs } ∧
        ((Overruns b panel' made' chosen' ↔ Overruns b panel made chosen) →
          result'.error = result.error)

theorem run_attributes (b : Brief) (panel : Panel) (made : Requests) (chosen : List Reviewer) :
    Attributes b panel made chosen where
  complete r member := exists_mem_run_results member
  tasks r := ⟨length_ownTasks b panel made chosen r, fun t => endsBefore_of_mem_ownTasks⟩
  single r once := ⟨isUnresolved_iff_of_once once, hasCrashed_iff_of_once once⟩
  ended := by
    intro result member own ended
    have given := (mem_run_results_iff.mp member).2
    rwa [ended, Option.getD_some] at given
  unresolved := by
    intro result member unended unresolved
    have late : Overruns b panel made chosen := ⟨_, (mem_run_results_iff.mp member).1, unresolved⟩
    rw [← blankResult_of_overruns late]
    exact eq_blankResult member unended
  crashedInTime := by
    intro result member crashed inTime
    rw [← blankResult_of_not_overruns inTime]
    exact eq_blankResult member crashed.ownResult?_eq_none
  crashedLate := by
    intro result member crashed late
    rw [← blankResult_of_overruns late]
    exact eq_blankResult member crashed.ownResult?_eq_none
  timeout := by
    intro result member
    rw [error_eq_timeoutText_iff member]
    constructor
    · rintro ⟨unended, late⟩
      exact (isUnresolved_or_hasCrashed unended).imp (⟨unended, ·⟩) (⟨·, late⟩)
    · rintro (⟨unended, unresolved⟩ | ⟨crashed, late⟩)
      · exact ⟨unended, _, (mem_run_results_iff.mp member).1, unresolved⟩
      · exact ⟨crashed.ownResult?_eq_none, late⟩
  crash := by
    intro result member
    rw [error_eq_crashText_iff member]
    constructor
    · rintro ⟨unended, inTime⟩
      refine ⟨(isUnresolved_or_hasCrashed unended).resolve_left fun unresolved => inTime ?_, inTime⟩
      exact ⟨_, (mem_run_results_iff.mp member).1, unresolved⟩
    · rintro ⟨crashed, inTime⟩
      exact ⟨crashed.ownResult?_eq_none, inTime⟩
  apart := by
    intro panel' made' chosen' result member result' member' named script
    exact ⟨script.result_eq member member' named, script.result_eq_but member member' named⟩

/-- A session under the standard settings. -/
def unhurried : Brief :=
  { hurried with settings := .standard }

/-- A panel whose specialist for security crashes at once, and of which all others reply alike. -/
def crashedBeside (other : Reply) : Panel :=
  ⟨fun r _ _ => if r = .security then .crash 0 else other, fun _ _ => .zero⟩

/-- A crash is put down to the deadline for no reason but that another reviewer stays silent. -/
theorem crash_beside_silence :
    resolution? unhurried (crashedBeside .silence) .security 0 = some (0, .crashed) ∧
      (∃ result ∈ (run unhurried (crashedBeside .silence) .none [.security, .quality]).results,
        result.reviewer = .security ∧ result.error = some timeoutText) ∧
      ∃ result ∈ (run unhurried (crashedBeside (.answer 5 "\x7b\x7d")) .none
          [.security, .quality]).results,
        result.reviewer = .security ∧ result.error = some crashText := by
  have once : ∀ r ∈ [Reviewer.security, .quality], [Reviewer.security, .quality].count r = 1 := by
    decide
  have crashes (other : Reply) : HasCrashed unhurried (crashedBeside other) .none
      [.security, .quality] .security :=
    (hasCrashed_iff_of_once (by decide)).mpr ⟨0, rfl⟩
  refine ⟨rfl, ?_, ?_⟩
  · have late : Overruns unhurried (crashedBeside .silence) .none [.security, .quality] :=
      ⟨.quality, by decide, (isUnresolved_iff_of_once (by decide)).mpr rfl⟩
    obtain ⟨result, member, named⟩ :=
      exists_mem_run_results (List.mem_cons_self (a := Reviewer.security))
    refine ⟨result, member, named, (error_eq_timeoutText_iff member).mpr ⟨?_, late⟩⟩
    rw [named]
    exact (crashes .silence).ownResult?_eq_none
  · have inTime : ¬ Overruns unhurried (crashedBeside (.answer 5 "\x7b\x7d")) .none
        [.security, .quality] := by
      rintro ⟨r, chosen, unresolved⟩
      have open_ := (isUnresolved_iff_of_once (once r chosen)).mp unresolved
      simp only [List.mem_cons, List.not_mem_nil, or_false] at chosen
      rcases chosen with rfl | rfl <;> cases open_
    obtain ⟨result, member, named⟩ :=
      exists_mem_run_results (List.mem_cons_self (a := Reviewer.security))
    refine ⟨result, member, named, (error_eq_crashText_iff member).mpr ⟨?_, inTime⟩⟩
    rw [named]
    exact (crashes _).ownResult?_eq_none

end AuditPanel.Session
