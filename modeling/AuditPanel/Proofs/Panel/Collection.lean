import AuditPanel.Panel.Session
import AuditPanel.Proofs.Consensus.Permutation
import AuditPanel.Proofs.Panel.Tasks

/-!
What is collected from tasks that end one after the other. No join and no deadline takes a
reviewer's result away but a later one of its own, so that each of them is left with that of its
last task that has one, in whatever order tasks are joined that end at the same time.
-/

set_option autoImplicit false

namespace AuditPanel.Session

/-- The ending of tasks of one reviewer that counts: the last one that is no crash. -/
def lastEnding? (ts : List Task) : Option (Nat × TaskOutcome) :=
  ((ts.filterMap (·.ending)).filter fun e => e.2 != .crashed).getLast?

def timedOut (ts : List Task) : Bool :=
  ts.any fun t => t.ending.isNone

/-- The time at which the last task was over. -/
def elapsed (b : Brief) (ts : List Task) : Nat :=
  if timedOut ts then b.settings.globalTimeout
  else (ts.filterMap fun t => t.ending.map (·.1)).foldl max 0

/-- The tasks of one reviewer among all that are pending. -/
def tasksOf (r : Reviewer) (pending : List (Reviewer × Task)) : List Task :=
  (pending.filter fun p => p.1 = r).map (·.2)

/-- The result of the last task of a reviewer that has one. -/
def lastResult? (b : Brief) (r : Reviewer) (ts : List Task) : Option ReviewResult :=
  (lastEnding? ts).bind (resultOf? b r)

variable {b : Brief} {r : Reviewer} {pending : List (Reviewer × Task)}

theorem mem_panelOrder (r : Reviewer) : r ∈ panelOrder := by
  rw [panelOrder, List.mem_mergeSort]
  cases r <;> decide

theorem panelOrder_nodup : panelOrder.Nodup :=
  (List.mergeSort_perm _ _).symm.nodup (by decide)

private theorem panelOrder_sorted : panelOrder.Pairwise fun x y => x.priority ≤ y.priority :=
  List.pairwise_mergeSort' (fun x y : Reviewer => x.priority ≤ y.priority) Reviewer.all

theorem panelOrder_strict : panelOrder.Pairwise fun x y => x.priority < y.priority := by
  refine (panelOrder_sorted.and panelOrder_nodup).imp ?_
  rintro x y ⟨below, differ⟩
  exact Nat.lt_of_le_of_ne below fun same => differ (Reviewer.eq_of_priority_eq same)

private theorem reviewer_of_resultOf? {ending : Nat × TaskOutcome} {result : ReviewResult}
    (given : resultOf? b r ending = some result) : result.reviewer = r := by
  obtain ⟨time, outcome⟩ := ending
  cases outcome with
  | answered text =>
    cases given
    change (Review.normalize text.toList r).reviewer = r
    unfold Review.normalize
    split <;> rfl
  | failed failure =>
    cases given
    rfl
  | crashed => cases given

theorem reviewer_of_lastResult? {ts : List Task} {result : ReviewResult}
    (given : lastResult? b r ts = some result) : result.reviewer = r := by
  obtain ⟨ending, -, own⟩ := Option.bind_eq_some_iff.mp given
  exact reviewer_of_resultOf? own

private theorem lastEnding?_cons (t : Task) (ts : List Task) :
    lastEnding? (t :: ts) =
      (lastEnding? ts).or (t.ending.filter fun e => e.2 != .crashed) := by
  unfold lastEnding?
  rcases ending : t.ending with _ | e
  · rw [List.filterMap_cons_none ending, Option.filter_none, Option.or_none]
  · rw [List.filterMap_cons_some ending, List.filter_cons]
    split
    · next counts =>
      have kept : Option.filter (fun e : Nat × TaskOutcome => e.2 != .crashed) (some e) =
          some e := by
        rw [Option.filter_some, if_pos counts]
      rw [List.getLast?_cons, kept]
      cases ((ts.filterMap (·.ending)).filter fun e => e.2 != .crashed).getLast? <;> rfl
    · next crash => rw [Option.filter_some, if_neg crash, Option.or_none]

private theorem isSome_resultOf? {e : Nat × TaskOutcome} (counts : (e.2 != .crashed) = true) :
    (resultOf? b r e).isSome := by
  obtain ⟨time, outcome⟩ := e
  cases outcome with
  | crashed => cases counts
  | _ => rfl

private theorem lastResult?_cons (b : Brief) (r : Reviewer) (t : Task) (ts : List Task) :
    lastResult? b r (t :: ts) = (lastResult? b r ts).or (t.ending.bind (resultOf? b r)) := by
  unfold lastResult?
  rw [lastEnding?_cons]
  cases last : lastEnding? ts with
  | some e =>
    have counts := (List.mem_filter.mp (List.mem_of_getLast? last)).2
    obtain ⟨result, own⟩ := Option.isSome_iff_exists.mp (isSome_resultOf? (b := b) (r := r) counts)
    rw [Option.some_or, Option.bind_some, own, Option.some_or]
  | none =>
    rw [Option.none_or, Option.bind_none, Option.none_or]
    rcases t.ending with _ | ⟨time, _ | _ | _⟩ <;> rfl

private theorem lastResult?_eq_none {ts : List Task} (open_ : ∀ t ∈ ts, t.ending = none) :
    lastResult? b r ts = none := by
  have endings : ts.filterMap (·.ending) = [] := List.filterMap_eq_nil_iff.mpr open_
  rw [lastResult?, lastEnding?, endings]
  rfl

private theorem tasksOf_cons (p : Reviewer × Task) (pending : List (Reviewer × Task)) :
    tasksOf r (p :: pending) = if p.1 = r then p.2 :: tasksOf r pending else tasksOf r pending := by
  unfold tasksOf
  rw [List.filter_cons]
  split
  · next own => rw [if_pos (of_decide_eq_true own), List.map_cons]
  · next other => rw [if_neg (by simpa using other)]

namespace Collection

private theorem join_eq (c : Collection) (r : Reviewer) (ending : Nat × TaskOutcome) :
    c.join b r ending =
      { c with
        results := fun r' =>
          if r' = r then (resultOf? b r ending).or (c.results r) else c.results r'
        time := ending.1 } := by
  unfold join
  cases given : resultOf? b r ending with
  | none =>
    simp only [Option.none_or]
    congr 1
    funext r'
    split
    · next same => rw [same]
    · rfl
  | some result =>
    have named := reviewer_of_resultOf? given
    simp only [insert, named, Option.some_or]

private theorem fill_eq (c : Collection) (r : Reviewer) :
    c.fill b r =
      { c with
        results := fun r' =>
          if r' = r then some ((c.results r).getD (.failed r c.reason c.time b.timestamp))
          else c.results r' } := by
  unfold fill
  split
  · next own found =>
    obtain ⟨results, time, late⟩ := c
    congr 1
    funext r'
    split
    · next same =>
      rw [same, found, Option.getD_some]
      exact found
    · rfl
  · next none_ =>
    have named : (ReviewResult.failed r c.reason c.time b.timestamp).reviewer = r := rfl
    simp only [insert, named, none_, Option.getD_none]

private theorem foldl_fill (c : Collection) (chosen : List Reviewer) :
    chosen.foldl (fill b) c =
      { c with
        results := fun r =>
          if r ∈ chosen then some ((c.results r).getD (.failed r c.reason c.time b.timestamp))
          else c.results r } := by
  induction chosen generalizing c with
  | nil => simp
  | cons r chosen ih =>
    have reason : (c.fill b r).reason = c.reason := by
      rw [fill_eq]
      rfl
    rw [List.foldl_cons, ih, reason, fill_eq]
    congr 1
    funext r'
    by_cases same : r' = r
    · subst same
      simp
    · simp [same]

private theorem inOrder_eq {c : Collection}
    (named : ∀ r result, c.results r = some result → result.reviewer = r) :
    c.inOrder = panelOrder.filterMap c.results := by
  have own {l : List Reviewer} {result : ReviewResult} (member : result ∈ l.filterMap c.results) :
      c.results result.reviewer = some result := by
    obtain ⟨r, -, found⟩ := List.mem_filterMap.mp member
    rwa [named r result found]
  have all : (Reviewer.all.filterMap c.results).Perm (panelOrder.filterMap c.results) :=
    (List.mergeSort_perm _ _).symm.filterMap c.results
  have sorted := List.pairwise_mergeSort'
    (fun x y : ReviewResult => x.reviewer.priority ≤ y.reviewer.priority)
    (Reviewer.all.filterMap c.results)
  refine List.Perm.eq_of_pairwise ?_ sorted ?_ ((List.mergeSort_perm _ _).trans all)
  · intro x y member member' le le'
    have same := Reviewer.eq_of_priority_eq (Nat.le_antisymm le le')
    have found := own (List.mem_mergeSort.mp member)
    rw [same, own member'] at found
    exact (Option.some.inj found).symm
  · refine List.pairwise_filterMap.mpr (panelOrder_sorted.imp fun le x found y found' => ?_)
    rwa [named _ x found, named _ y found']

end Collection

private theorem joinAll_eq (pending : List (Reviewer × Task)) (c : Collection)
    (order : pending.Pairwise fun t u => t.2.endsNoLater u.2)
    (later : ∀ p ∈ pending, ∀ e ∈ p.2.ending, c.time ≤ e.1) :
    c.joinAll b pending =
      { results := fun r => (lastResult? b r (tasksOf r pending)).or (c.results r)
        time :=
          if timedOut (pending.map (·.2)) then b.settings.globalTimeout
          else ((pending.map (·.2)).filterMap fun t => t.ending.map (·.1)).foldl max c.time
        timedOut := c.timedOut || timedOut (pending.map (·.2)) } := by
  induction pending generalizing c with
  | nil => simp [Collection.joinAll, timedOut, tasksOf, lastResult?, lastEnding?]
  | cons p pending ih =>
    obtain ⟨r, task⟩ := p
    obtain ⟨before, rest⟩ := List.pairwise_cons.mp order
    cases ending : task.ending with
    | some e =>
      have step : c.joinAll b ((r, task) :: pending) = (c.join b r e).joinAll b pending := by
        rw [Collection.joinAll, ending]
      have least : c.time ≤ e.1 := later (r, task) List.mem_cons_self e ending
      rw [step, ih _ rest, Collection.join_eq]
      · have times : timedOut (((r, task) :: pending).map (·.2)) =
            timedOut (pending.map (·.2)) := by
          simp [timedOut, ending]
        rw [times, List.map_cons, List.filterMap_cons_some (b := e.1)
          (by rw [ending, Option.map_some]), List.foldl_cons, Nat.max_eq_right least]
        congr 1
        funext r'
        by_cases same : r' = r
        · rw [same, tasksOf_cons, if_pos rfl, lastResult?_cons, ending, Option.or_assoc]
          simp only [if_true, Option.bind_some]
        · rw [tasksOf_cons, if_neg (Ne.symm same)]
          simp only [if_neg same]
      · intro p member e' ends
        rw [Collection.join_eq]
        obtain ⟨e'', own, le⟩ := Task.endsNoLater_iff.mp (before p member) e' ends
        cases ending.symm.trans own
        exact le
    | none =>
      have open_ : ∀ p ∈ pending, p.2.ending = none := by
        intro p member
        rw [Option.eq_none_iff_forall_not_mem]
        intro e' ends
        obtain ⟨e, own, -⟩ := Task.endsNoLater_iff.mp (before p member) e' ends
        cases ending.symm.trans own
      have late : timedOut (((r, task) :: pending).map (·.2)) = true := by
        simp [timedOut, ending]
      have none_ (r' : Reviewer) : lastResult? b r' (tasksOf r' ((r, task) :: pending)) = none := by
        refine lastResult?_eq_none fun t member => ?_
        obtain ⟨p, listed, rfl⟩ := List.mem_map.mp member
        rcases List.mem_cons.mp (List.mem_filter.mp listed).1 with rfl | others
        · exact ending
        · exact open_ p others
      rw [Collection.joinAll, ending, late, if_pos rfl, Bool.or_true]
      simp only [none_, Option.none_or]
      rfl

/-- What is put down to a reviewer without a result of its own, after all these tasks. -/
def blank (b : Brief) (all : List Task) (r : Reviewer) : ReviewResult :=
  .failed r (if timedOut all then timeoutText else crashText) (elapsed b all) b.timestamp

theorem collect_eq (chosen : List Reviewer)
    (order : pending.Pairwise fun t u => t.2.endsNoLater u.2) :
    collect b chosen pending =
      { results := fun r =>
          if r ∈ chosen then
            some ((lastResult? b r (tasksOf r pending)).getD (blank b (pending.map (·.2)) r))
          else lastResult? b r (tasksOf r pending)
        time := elapsed b (pending.map (·.2))
        timedOut := timedOut (pending.map (·.2)) } := by
  have joined := joinAll_eq (b := b) pending .empty order fun _ _ _ _ => Nat.zero_le _
  rw [collect, joined, Collection.foldl_fill]
  simp only [Collection.empty, Option.or_none, Bool.false_or, Collection.reason, blank, elapsed]

theorem inOrder_collect {chosen : List Reviewer}
    (order : pending.Pairwise fun t u => t.2.endsNoLater u.2)
    (asked : ∀ p ∈ pending, p.1 ∈ chosen) :
    (collect b chosen pending).inOrder = (panelOrder.filter chosen.contains).map fun r =>
      (lastResult? b r (tasksOf r pending)).getD (blank b (pending.map (·.2)) r) := by
  have none_ {r : Reviewer} (other : r ∉ chosen) : lastResult? b r (tasksOf r pending) = none := by
    have empty : tasksOf r pending = [] := by
      rw [tasksOf, List.map_eq_nil_iff, List.filter_eq_nil_iff]
      intro p member same
      exact other (of_decide_eq_true same ▸ asked p member)
    rw [empty]
    rfl
  have listed {β : Type} (f : Reviewer → β) : (panelOrder.filter chosen.contains).map f =
      panelOrder.filterMap fun r => if r ∈ chosen then some (f r) else none := by
    rw [← List.filterMap_eq_map, List.filterMap_filter]
    simp only [List.contains_iff_mem, Function.comp_apply]
  rw [collect_eq chosen order, Collection.inOrder_eq, listed]
  · refine List.filterMap_congr fun r _ => ?_
    dsimp only
    split
    · rfl
    · next other => exact none_ other
  · intro r result found
    dsimp only at found
    split at found
    · cases found
      cases own : lastResult? b r (tasksOf r pending) with
      | none => rfl
      | some result => exact reviewer_of_lastResult? own
    · exact reviewer_of_lastResult? found

private theorem timedOut_eq_of_perm {ts us : List Task} (same : ts.Perm us) :
    timedOut ts = timedOut us :=
  same.any_eq

theorem elapsed_eq_of_perm {ts us : List Task} (same : ts.Perm us) :
    elapsed b ts = elapsed b us := by
  unfold elapsed
  rw [timedOut_eq_of_perm same, (same.filterMap _).foldl_eq]

theorem blank_eq_of_perm {ts us : List Task} (same : ts.Perm us) (r : Reviewer) :
    blank b ts r = blank b us r := by
  rw [blank, blank, timedOut_eq_of_perm same, elapsed_eq_of_perm same]

theorem collect_eq_of_perm {pending' : List (Reviewer × Task)} (chosen : List Reviewer)
    (order : pending.Pairwise fun t u => t.2.endsNoLater u.2)
    (order' : pending'.Pairwise fun t u => t.2.endsNoLater u.2) (same : pending'.Perm pending)
    (own : ∀ r, tasksOf r pending' = tasksOf r pending) :
    collect b chosen pending' = collect b chosen pending := by
  have all : (pending'.map (·.2)).Perm (pending.map (·.2)) := same.map _
  rw [collect_eq chosen order, collect_eq chosen order']
  simp only [own, blank_eq_of_perm all, elapsed_eq_of_perm all, timedOut_eq_of_perm all]

/-- Sorting by the time of the ending leaves the tasks of a reviewer as they are, if these stand in
that order. -/
theorem tasksOf_mergeSort (own : (tasksOf r pending).Pairwise fun t u => t.endsNoLater u) :
    tasksOf r (pending.mergeSort fun t u => t.2.endsNoLater u.2) = tasksOf r pending := by
  have sorted : (pending.filter fun p => p.1 = r).Pairwise fun t u => t.2.endsNoLater u.2 :=
    List.pairwise_map.mp own
  have transitive (t u v : Reviewer × Task) :
      t.2.endsNoLater u.2 → u.2.endsNoLater v.2 → t.2.endsNoLater v.2 := Task.endsNoLater_trans
  have total (t u : Reviewer × Task) := Task.endsNoLater_total t.2 u.2
  have kept := List.sublist_mergeSort transitive total sorted List.filter_sublist
  have part := kept.filter fun p => p.1 = r
  rw [List.filter_filter] at part
  simp only [Bool.and_self] at part
  have length := ((List.mergeSort_perm pending fun t u => t.2.endsNoLater u.2).filter
    fun p => p.1 = r).length_eq
  rw [tasksOf, tasksOf, part.eq_of_length length.symm]

theorem tasksOf_pendingOf {keys : List Reviewer} (distinct : keys.Nodup)
    (given : Reviewer → List Task) (r : Reviewer) :
    tasksOf r (pendingOf (keys.map fun k => (k, given k))) = if r ∈ keys then given r else [] := by
  have whole (k : Reviewer) : tasksOf r ((given k).map fun t => (k, t)) =
      if k = r then given k else [] := by
    unfold tasksOf
    rw [List.filter_map, List.map_map]
    split
    · next same => simp [same, Function.comp_def]
    · next other => simp [other, Function.comp_def]
  induction keys with
  | nil => rfl
  | cons k keys ih =>
    obtain ⟨new, rest⟩ := List.nodup_cons.mp distinct
    have step : tasksOf r (pendingOf ((k :: keys).map fun k => (k, given k))) =
        tasksOf r ((given k).map fun t => (k, t)) ++
          tasksOf r (pendingOf (keys.map fun k => (k, given k))) := by
      simp only [pendingOf, tasksOf, List.map_cons, List.flatMap_cons, List.filter_append,
        List.map_append]
    rw [step, whole, ih rest]
    by_cases same : k = r
    · subst same
      simp [new]
    · simp [same, Ne.symm same]

end AuditPanel.Session
