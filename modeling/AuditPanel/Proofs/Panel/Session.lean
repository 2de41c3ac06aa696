import AuditPanel.Proofs.Consensus.Provenance
import AuditPanel.Proofs.Panel.Collection

/-!
What a session brings for each chosen reviewer, apart from the others: one well-formed result each.
-/

set_option autoImplicit false

namespace AuditPanel.Session

variable {b : Brief} {panel : Panel} {made : Requests} {chosen : List Reviewer} {r : Reviewer}

/-- The result of a reviewer whose tasks ended by themselves. -/
def ownResult? (b : Brief) (panel : Panel) (made : Requests) (chosen : List Reviewer)
    (r : Reviewer) :
    Option ReviewResult :=
  (lastEnding? (tasks b panel r (chosen.count r) (made r))).bind (resultOf? b r)

/-- The tasks of a reviewer in a session, one for each time it is chosen. -/
def ownTasks (b : Brief) (panel : Panel) (made : Requests) (chosen : List Reviewer) (r : Reviewer) :
    List Task :=
  tasks b panel r (chosen.count r) (made r)

def sessionTasks (b : Brief) (panel : Panel) (made : Requests) (chosen : List Reviewer) :
    List Task :=
  (panelOrder.filter chosen.contains).flatMap (ownTasks b panel made chosen)

/-- What is told of a reviewer without a result of its own. -/
def blankResult (b : Brief) (panel : Panel) (made : Requests) (chosen : List Reviewer)
    (r : Reviewer) : ReviewResult :=
  let all := sessionTasks b panel made chosen
  .failed r (if timedOut all then timeoutText else crashText) (elapsed b all) b.timestamp

theorem length_ownTasks (b : Brief) (panel : Panel) (made : Requests) (chosen : List Reviewer)
    (r : Reviewer) : (ownTasks b panel made chosen r).length = chosen.count r := by
  unfold ownTasks tasks
  cases b.book.render r b.context with
  | error failure => exact List.length_replicate
  | ok prompt => exact TaskTerms.length_tasks _ _ _

theorem tasks_order (b : Brief) (panel : Panel) (r : Reviewer) (count made : Nat) :
    (tasks b panel r count made).Pairwise fun t u => t.endsNoLater u := by
  unfold tasks
  cases b.book.render r b.context with
  | ok prompt => exact TaskTerms.tasks_order _ _ _
  | error failure =>
    refine List.pairwise_of_forall_mem_list fun t member u member' => ?_
    rw [List.eq_of_mem_replicate member, List.eq_of_mem_replicate member', Task.endsNoLater_iff]
    exact fun e ends => ⟨e, ends, Nat.le_refl _⟩

/-- The tasks of a session before they are put into the order of their endings. -/
def assigned (b : Brief) (panel : Panel) (made : Requests) (chosen : List Reviewer) :
    List (Reviewer × Task) :=
  pendingOf (assignments b panel made chosen)

private theorem map_assigned : (assigned b panel made chosen).map (·.2) =
    sessionTasks b panel made chosen := by
  simp only [assigned, pendingOf, assignments, sessionTasks, List.flatMap_map, List.map_flatMap,
    List.map_map, Function.comp_def, List.map_id']
  rfl

private theorem mem_chosen_of_mem_assigned {p : Reviewer × Task}
    (member : p ∈ assigned b panel made chosen) : p.1 ∈ chosen := by
  obtain ⟨⟨r, ts⟩, asked, own⟩ := List.mem_flatMap.mp member
  obtain ⟨r', listed, same⟩ := List.mem_map.mp asked
  obtain ⟨t, -, rfl⟩ := List.mem_map.mp own
  cases same
  exact List.contains_iff_mem.mp (List.mem_filter.mp listed).2

private theorem tasksOf_assigned (member : r ∈ chosen) :
    tasksOf r (assigned b panel made chosen) = ownTasks b panel made chosen r := by
  have distinct := panelOrder_nodup.filter chosen.contains
  have asked : r ∈ panelOrder.filter chosen.contains :=
    List.mem_filter.mpr ⟨mem_panelOrder r, List.contains_iff_mem.mpr member⟩
  exact (tasksOf_pendingOf distinct (ownTasks b panel made chosen) r).trans (if_pos asked)

/-- What is collected in whatever order the tasks of a session end, as long as that is the order of
their times and of each reviewer's own tasks. -/
private theorem results_of_order {pending : List (Reviewer × Task)}
    (same : pending.Perm (assigned b panel made chosen))
    (order : pending.Pairwise fun t u => t.2.endsNoLater u.2)
    (own : ∀ r ∈ chosen, tasksOf r pending = ownTasks b panel made chosen r) :
    (collect b chosen pending).inOrder = ((panelOrder.filter chosen.contains).map fun r =>
        (ownResult? b panel made chosen r).getD (blankResult b panel made chosen r)) ∧
      (collect b chosen pending).time = elapsed b (sessionTasks b panel made chosen) := by
  have all : (pending.map (·.2)).Perm (sessionTasks b panel made chosen) :=
    map_assigned ▸ same.map _
  rw [inOrder_collect order fun p member => mem_chosen_of_mem_assigned (same.mem_iff.mp member),
    collect_eq chosen order]
  refine ⟨List.map_congr_left fun r asked => ?_, elapsed_eq_of_perm all⟩
  rw [own r (List.contains_iff_mem.mp (List.mem_filter.mp asked).2), blank_eq_of_perm all]
  rfl

private theorem run_eq (b : Brief) (panel : Panel) (made : Requests) (chosen : List Reviewer) :
    (run b panel made chosen).results = ((panelOrder.filter chosen.contains).map fun r =>
        (ownResult? b panel made chosen r).getD (blankResult b panel made chosen r)) ∧
      (run b panel made chosen).elapsed = elapsed b (sessionTasks b panel made chosen) := by
  refine results_of_order (List.mergeSort_perm _ _) ?_ fun r member => ?_
  · have transitive (t u v : Reviewer × Task) :
        t.2.endsNoLater u.2 → u.2.endsNoLater v.2 → t.2.endsNoLater v.2 := Task.endsNoLater_trans
    have total (t u : Reviewer × Task) := Task.endsNoLater_total t.2 u.2
    exact List.pairwise_mergeSort transitive total _
  · refine (tasksOf_mergeSort ?_).trans (tasksOf_assigned member)
    rw [← assigned, tasksOf_assigned member]
    exact tasks_order _ _ _ _ _

theorem run_results_eq (b : Brief) (panel : Panel) (made : Requests) (chosen : List Reviewer) :
    (run b panel made chosen).results = (panelOrder.filter chosen.contains).map fun r =>
      (ownResult? b panel made chosen r).getD (blankResult b panel made chosen r) :=
  (run_eq b panel made chosen).1

theorem run_elapsed_eq (b : Brief) (panel : Panel) (made : Requests) (chosen : List Reviewer) :
    (run b panel made chosen).elapsed = elapsed b (sessionTasks b panel made chosen) :=
  (run_eq b panel made chosen).2

/-- Where nobody is chosen twice, it makes no difference in which order tasks are joined that end at
the same time. -/
theorem collect_eq_run {pending : List (Reviewer × Task)} (distinct : chosen.Nodup)
    (same : pending.Perm (assigned b panel made chosen))
    (order : pending.Pairwise fun t u => t.2.endsNoLater u.2) :
    (collect b chosen pending).inOrder = (run b panel made chosen).results ∧
      (collect b chosen pending).time = (run b panel made chosen).elapsed := by
  rw [run_results_eq, run_elapsed_eq]
  refine results_of_order same order fun r member => ?_
  have once : (ownTasks b panel made chosen r).length = 1 := by
    rw [length_ownTasks, List.count_eq_one_of_mem distinct member]
  obtain ⟨t, single⟩ := List.length_eq_one_iff.mp once
  have own : (tasksOf r pending).Perm (tasksOf r (assigned b panel made chosen)) :=
    (same.filter _).map _
  rw [tasksOf_assigned member, single] at own
  rw [single, List.perm_singleton.mp own]

theorem endsBefore_of_mem_ownTasks {t : Task} (member : t ∈ ownTasks b panel made chosen r) :
    t.EndsBefore b.settings.globalTimeout := by
  unfold ownTasks tasks at member
  cases rendered : b.book.render r b.context with
  | ok prompt =>
    rw [rendered] at member
    exact TaskTerms.endsBefore_of_mem_tasks member
  | error failure =>
    rw [rendered] at member
    rw [List.eq_of_mem_replicate member]
    intro ending present
    dsimp only at present
    split at present
    · next positive => cases present; exact positive
    · cases present

theorem elapsed_run_le (b : Brief) (panel : Panel) (made : Requests) (chosen : List Reviewer) :
    (run b panel made chosen).elapsed ≤ b.settings.globalTimeout := by
  rw [run_elapsed_eq, elapsed]
  split
  · exact le_rfl
  · refine List.foldlRecOn (motive := (· ≤ b.settings.globalTimeout)) _ max (Nat.zero_le _)
      fun latest before time member => max_le before ?_
    obtain ⟨t, asked, ended⟩ := List.mem_filterMap.mp member
    obtain ⟨r, -, own⟩ := List.mem_flatMap.mp asked
    obtain ⟨ending, present, rfl⟩ := Option.map_eq_some_iff.mp ended
    exact Nat.le_of_lt (endsBefore_of_mem_ownTasks own ending present)

theorem hold_eq_some_iff {o : Outcome} : hold b panel made chosen = some o ↔
    Clock.CanHold b.timestamp.millis b.settings.globalTimeout ∧ run b panel made chosen = o := by
  unfold hold
  split
  · next held => exact ⟨fun same => ⟨held, Option.some.inj same⟩, fun same => congrArg some same.2⟩
  · next passed => exact ⟨nofun, fun same => absurd same.1 passed⟩

theorem mem_run_results {result : ReviewResult} (member : r ∈ chosen)
    (ended : ownResult? b panel made chosen r = some result) :
    result ∈ (run b panel made chosen).results := by
  rw [run_results_eq]
  refine List.mem_map.mpr ⟨r, ?_, by rw [ended, Option.getD_some]⟩
  exact List.mem_filter.mpr ⟨mem_panelOrder r, List.contains_iff_mem.mpr member⟩

theorem reviewsOf_run_ne_nil (member : r ∈ chosen)
    (reported : ((ownResult? b panel made chosen r).bind Consensus.successfulReview?).isSome) :
    Consensus.reviewsOf (run b panel made chosen).results ≠ [] := by
  obtain ⟨review, found⟩ := Option.isSome_iff_exists.mp reported
  obtain ⟨result, ended, succeeded⟩ := Option.bind_eq_some_iff.mp found
  refine List.ne_nil_of_mem (List.mem_filterMap.mpr ⟨result, ?_, succeeded⟩)
  rw [Consensus.inPanelOrder, List.mem_mergeSort]
  exact mem_run_results member ended

theorem isWellFormed_of_ownResult? {result : ReviewResult}
    (h : ownResult? b panel made chosen r = some result) :
    result.reviewer = r ∧ result.IsWellFormed := by
  refine ⟨reviewer_of_lastResult? h, ?_⟩
  obtain ⟨⟨time, outcome⟩, -, given⟩ := Option.bind_eq_some_iff.mp h
  cases outcome with
  | answered text =>
    cases given
    exact ⟨rfl, rfl, by rintro _ ⟨⟩; rfl⟩
  | failed failure =>
    cases given
    exact ⟨rfl, rfl, by rintro _ ⟨⟩⟩
  | crashed => cases given

theorem run_results (b : Brief) (panel : Panel) (made : Requests) (chosen : List Reviewer) :
    ∃ reason time, (run b panel made chosen).results =
      (panelOrder.filter chosen.contains).map fun r =>
        (ownResult? b panel made chosen r).getD (.failed r reason time b.timestamp) :=
  ⟨_, _, run_results_eq b panel made chosen⟩

theorem run_results_wellFormed :
    ∀ result ∈ (run b panel made chosen).results, result.IsWellFormed := by
  obtain ⟨reason, time, results⟩ := run_results b panel made chosen
  intro result member
  rw [results] at member
  obtain ⟨r, -, rfl⟩ := List.mem_map.mp member
  cases ended : ownResult? b panel made chosen r with
  | none => exact ⟨rfl, rfl, by rintro _ ⟨⟩⟩
  | some own => exact (isWellFormed_of_ownResult? ended).2

theorem run_results_reviewers (b : Brief) (panel : Panel) (made : Requests)
    (chosen : List Reviewer) :
    (run b panel made chosen).results.map (·.reviewer) = panelOrder.filter chosen.contains := by
  obtain ⟨reason, time, results⟩ := run_results b panel made chosen
  rw [results, List.map_map]
  refine (List.map_congr_left ?_).trans (List.map_id _)
  intro r _
  cases ended : ownResult? b panel made chosen r with
  | none => simp [ended, ReviewResult.failed]
  | some own => simpa [ended] using (isWellFormed_of_ownResult? ended).1

theorem run_results_nodup (b : Brief) (panel : Panel) (made : Requests) (chosen : List Reviewer) :
    ((run b panel made chosen).results.map (·.reviewer)).Nodup := by
  rw [run_results_reviewers]
  exact panelOrder_nodup.filter _

/-- The report that the tasks of a reviewer brought. -/
def ownReview? (b : Brief) (panel : Panel) (made : Requests) (chosen : List Reviewer)
    (r : Reviewer) : Option Review :=
  (ownResult? b panel made chosen r).bind Consensus.successfulReview?

theorem exists_normalize_of_ownReview? {review : Review}
    (brought : ownReview? b panel made chosen r = some review) :
    ∃ text, review = Review.normalize text r := by
  obtain ⟨result, ended, succeeded⟩ := Option.bind_eq_some_iff.mp brought
  obtain ⟨⟨time, outcome⟩, -, given⟩ := Option.bind_eq_some_iff.mp ended
  cases outcome with
  | answered text =>
    cases given
    cases succeeded
    exact ⟨text.toList, rfl⟩
  | failed failure =>
    cases given
    cases succeeded
  | crashed => cases given

theorem exists_run_results_iff {review : Review} :
    (∃ result ∈ (run b panel made chosen).results, Consensus.successfulReview? result =
      some review) ↔ ∃ r ∈ chosen, ownReview? b panel made chosen r = some review := by
  obtain ⟨reason, time, results⟩ := run_results b panel made chosen
  have brought (r : Reviewer) : Consensus.successfulReview?
      ((ownResult? b panel made chosen r).getD (.failed r reason time b.timestamp)) =
        ownReview? b panel made chosen r := by
    unfold ownReview?
    cases ownResult? b panel made chosen r <;> rfl
  rw [results]
  simp only [List.mem_map, List.mem_filter, List.contains_iff_mem, mem_panelOrder, true_and,
    exists_exists_and_eq_and, brought]

theorem run_results_isSome (brought : ∀ r ∈ chosen, (ownReview? b panel made chosen r).isSome) :
    ∀ result ∈ (run b panel made chosen).results, (Consensus.successfulReview? result).isSome := by
  obtain ⟨reason, time, results⟩ := run_results b panel made chosen
  intro result member
  rw [results] at member
  obtain ⟨r, asked, rfl⟩ := List.mem_map.mp member
  have own := brought r (by simpa using (List.mem_filter.mp asked).2)
  unfold ownReview? at own
  cases ended : ownResult? b panel made chosen r with
  | none => simp [ended] at own
  | some result => simpa [ended] using own

theorem reviewer_of_ownReview? {review : Review}
    (h : ownReview? b panel made chosen r = some review) :
    review.reviewer = r := by
  obtain ⟨result, ended, succeeded⟩ := Option.bind_eq_some_iff.mp h
  obtain ⟨named, wellFormed⟩ := isWellFormed_of_ownResult? ended
  unfold Consensus.successfulReview? at succeeded
  split at succeeded
  · exact (wellFormed.reviewer review succeeded).trans named
  · cases succeeded

end AuditPanel.Session
