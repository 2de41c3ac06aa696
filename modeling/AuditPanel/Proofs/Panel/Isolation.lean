import AuditPanel.Proofs.Consensus.Permutation
import AuditPanel.Proofs.Panel.Course
import AuditPanel.Proofs.Panel.Session

/-!
A session keeps its reviewers apart. There is one result for each of them, and what it brings
follows from the course of that reviewer's own requests: neither what others answer nor who else is
there makes a difference.
-/

set_option autoImplicit false

namespace AuditPanel.Session

variable {b : Brief} {panel : Panel} {made : Requests} {chosen : List Reviewer} {r : Reviewer}

/-- When and how a reviewer is done, if that is before the deadline: at once without a prompt, and
else when the course of its requests ends within the limits. -/
def resolution? (b : Brief) (panel : Panel) (r : Reviewer) (made : Nat) :
    Option (Nat × TaskOutcome) :=
  match b.book.render r b.context with
  | .error failure => if 0 < b.settings.globalTimeout then some (0, .failed failure) else none
  | .ok prompt =>
    let terms : TaskTerms :=
      ⟨r, limits b, b.settings.maxRetries, fun n => panel.reply r n prompt, panel.jitter r⟩
    terms.cut (terms.course made)

private theorem lastEnding?_singleton (t : Task) : lastEnding? [t] = t.ending.filter fun e =>
    e.2 != .crashed := by
  rcases ending : t.ending with _ | ⟨time, outcome⟩
  · simp [lastEnding?, ending]
  · cases outcome <;> simp [lastEnding?, ending, Option.filter]

theorem exists_tasks_eq (b : Brief) (panel : Panel) (r : Reviewer) (n : Nat) :
    ∃ calls, tasks b panel r 1 n = [⟨calls, resolution? b panel r n⟩] := by
  unfold tasks resolution?
  cases rendered : b.book.render r b.context with
  | error failure => exact ⟨0, List.replicate_one⟩
  | ok prompt =>
    exact TaskTerms.tasks_one
      ⟨r, limits b, b.settings.maxRetries, fun n => panel.reply r n prompt, panel.jitter r⟩ n

/-- No result is lost: a reviewer who is done before the deadline has the result that its ending
gives. -/
theorem ownResult?_eq (once : chosen.count r = 1) :
    ownResult? b panel made chosen r = (resolution? b panel r (made r)).bind (resultOf? b r) := by
  obtain ⟨calls, single⟩ := exists_tasks_eq b panel r (made r)
  rw [ownResult?, once, single, lastEnding?_singleton]
  rcases resolution? b panel r (made r) with _ | ⟨time, outcome⟩
  · rfl
  · cases outcome <;> rfl

private theorem resolution?_lt {n : Nat} {ending : Nat × TaskOutcome}
    (done : resolution? b panel r n = some ending) :
    ending.1 < b.settings.globalTimeout := by
  unfold resolution? at done
  split at done
  · split at done
    · next positive => cases done; exact positive
    · cases done
  · exact TaskTerms.lt_deadline_of_cut done

private theorem resolution?_congr {panel' : Panel} (replies : panel'.reply r = panel.reply r)
    (waits : panel'.jitter r = panel.jitter r) (n : Nat) :
    resolution? b panel' r n = resolution? b panel r n := by
  simp only [resolution?, replies, waits]

theorem review_of_mem_run {result : ReviewResult}
    (member : result ∈ (run b panel made chosen).results) :
    result.review = ownReview? b panel made chosen result.reviewer := by
  obtain ⟨reason, time, results⟩ := run_results b panel made chosen
  rw [results] at member
  obtain ⟨r, -, rfl⟩ := List.mem_map.mp member
  unfold ownReview?
  cases ended : ownResult? b panel made chosen r with
  | none => simp only [Option.getD_none, ReviewResult.failed, ended, Option.bind_none]
  | some own =>
    obtain ⟨named, wellFormed⟩ := isWellFormed_of_ownResult? ended
    have review := wellFormed.review
    simp only [Option.getD_some, named, ended, Option.bind_some, Consensus.successfulReview?]
    cases success : own.success <;> simp_all

private theorem run_results_ordered (b : Brief) (panel : Panel) (made : Requests)
    (chosen : List Reviewer) :
    (run b panel made chosen).results.Pairwise fun x y =>
      x.reviewer.priority < y.reviewer.priority := by
  have asked := panelOrder_strict.filter chosen.contains
  rwa [← run_results_reviewers b panel made chosen, List.pairwise_map] at asked

theorem run_results_perm (distinct : chosen.Nodup) :
    ((run b panel made chosen).results.map (·.reviewer)).Perm chosen := by
  refine (List.perm_ext_iff_of_nodup (run_results_nodup _ _ _ _) distinct).mpr fun r => ?_
  rw [run_results_reviewers, List.mem_filter, List.contains_iff_mem]
  exact and_iff_right (mem_panelOrder r)

theorem run_results_singleton {result : ReviewResult}
    (own : ownResult? b panel made [r] r = some result) :
    (run b panel made [r]).results = [result] := by
  obtain ⟨reason, time, results⟩ := run_results b panel made [r]
  have asked : panelOrder.filter [r].contains = [r] := by
    rw [← run_results_reviewers b panel made]
    exact List.perm_singleton.mp (run_results_perm (List.nodup_singleton _))
  rw [results, asked, List.map_singleton, own, Option.getD_some]

/-- What an outcome owes to those who are chosen. -/
structure Isolates (b : Brief) (panel : Panel) (made : Requests) (chosen : List Reviewer)
    (o : Outcome) : Prop where
  reviewers : (o.results.map (·.reviewer)).Perm chosen
  ordered : o.results.Pairwise fun x y => x.reviewer.priority < y.reviewer.priority
  coherent : ∀ result ∈ o.results,
    result.review.isSome = result.success ∧ result.error.isNone = result.success
  apart : ∀ r ∈ chosen, ∀ panel' made' chosen' o', hold b panel' made' chosen' = some o' →
    chosen'.Nodup → r ∈ chosen' → panel'.reply r = panel.reply r →
      panel'.jitter r = panel.jitter r → made' r = made r →
        ∀ result ∈ o.results, ∀ result' ∈ o'.results, result.reviewer = r → result'.reviewer = r →
          result'.success = result.success ∧ result'.review = result.review
  kept : ∀ r ∈ chosen, ∀ ending, resolution? b panel r (made r) = some ending →
    ending.1 < b.settings.globalTimeout ∧
      ∀ result, resultOf? b r ending = some result → result ∈ o.results
  anyOrder : ∀ pending, pending.Perm (assigned b panel made chosen) →
    pending.Pairwise (fun t u => t.2.endsNoLater u.2) →
      (collect b chosen pending).inOrder = o.results ∧ (collect b chosen pending).time = o.elapsed

private theorem run_isolates (b : Brief) (panel : Panel) (made : Requests) (chosen : List Reviewer)
    (distinct : chosen.Nodup) : Isolates b panel made chosen (run b panel made chosen) where
  reviewers := run_results_perm distinct
  ordered := run_results_ordered b panel made chosen
  coherent := by
    intro result member
    obtain ⟨review, error, -⟩ := run_results_wellFormed result member
    refine ⟨review, ?_⟩
    rw [← Option.not_isSome, error, Bool.not_not]
  apart := by
    intro r member panel' made' chosen' o' held distinct' member' replies waits before result given
      result' given' named named'
    obtain ⟨-, rfl⟩ := hold_eq_some_iff.mp held
    have own : ownReview? b panel' made' chosen' r = ownReview? b panel made chosen r := by
      rw [ownReview?, ownReview?, ownResult?_eq (List.count_eq_one_of_mem distinct member),
        ownResult?_eq (List.count_eq_one_of_mem distinct' member'),
        resolution?_congr replies waits, before]
    have review : result'.review = result.review := by
      rw [review_of_mem_run given, review_of_mem_run given', named, named', own]
    have success := (run_results_wellFormed result given).review
    have success' := (run_results_wellFormed result' given').review
    exact ⟨by rw [← success, ← success', review], review⟩
  kept := by
    intro r member ending done
    refine ⟨resolution?_lt done, fun result given => mem_run_results member ?_⟩
    rw [ownResult?_eq (List.count_eq_one_of_mem distinct member), done, Option.bind_some, given]
  anyOrder _ same order := collect_eq_run distinct same order

/-- A session keeps its reviewers apart if the clock can hold its deadline, and crashes if not. -/
theorem hold_isolates (b : Brief) (panel : Panel) (made : Requests) (chosen : List Reviewer)
    (distinct : chosen.Nodup) :
    if Clock.CanHold b.timestamp.millis b.settings.globalTimeout then
      ∃ o, hold b panel made chosen = some o ∧ Isolates b panel made chosen o
    else hold b panel made chosen = none := by
  split
  · next held => exact ⟨_, if_pos held, run_isolates b panel made chosen distinct⟩
  · next passed => exact if_neg passed

/-- A session under a deadline that comes before the limits of its reviewers. -/
def hurried : Brief :=
  { settings := { Settings.standard with globalTimeout := 300, deepTimeout := some 60000 }
    book := ⟨none, 100⟩
    mode := .deep
    context := ⟨"contract A \x7b\x7d", .empty, [], none, "deep"⟩
    timestamp := default }

/-- A panel whose specialist for transaction order never answers. -/
def stalled : Panel :=
  ⟨fun r _ _ => if r = .mev then .silence else .answer 5 "\x7b\x7d", fun _ _ => .zero⟩

/-- The deadline passes over one reviewer, and the other one's report is there. -/
theorem stalled_keeps_security :
    [Reviewer.mev, .security].Nodup ∧ resolution? hurried stalled .mev 0 = none ∧
      ∃ o, hold hurried stalled .none [.mev, .security] = some o ∧
        Isolates hurried stalled .none [.mev, .security] o ∧
        ∃ result ∈ o.results, result.reviewer = .security ∧ result.success = true := by
  have distinct : [Reviewer.mev, .security].Nodup := by decide
  have held : Clock.CanHold hurried.timestamp.millis hurried.settings.globalTimeout := by decide
  have isolated := hold_isolates hurried stalled .none [.mev, .security] distinct
  rw [if_pos held] at isolated
  obtain ⟨o, holds, isolates⟩ := isolated
  have answered : resolution? hurried stalled .security 0 = some (5, .answered "\x7b\x7d") := rfl
  obtain ⟨-, kept⟩ := isolates.kept .security (by decide) _ answered
  have named : (Review.normalize "\x7b\x7d".toList .security).reviewer = .security := by
    decide +kernel
  exact ⟨distinct, rfl, o, holds, isolates, _, kept _ rfl, named, rfl⟩

/-- A session whose deadline is as late as settings can have it. -/
def endless : Brief :=
  { hurried with
    settings := { hurried.settings with globalTimeout := 1000 * (2 ^ 64 - 1) } }

/-- Such a session crashes, though its reviewer would answer at once. -/
theorem hold_endless_eq_none :
    [Reviewer.security].Nodup ∧ hold endless stalled .none [.security] = none :=
  ⟨by decide, if_neg (by decide)⟩

end AuditPanel.Session
