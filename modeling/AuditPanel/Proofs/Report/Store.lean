import AuditPanel.Proofs.Report.Roundtrip
import AuditPanel.Report.Log

/-!
What a report store serves after any reports were given to it: under each id the last one, as its
text is read, and a listing with the latest instants first. Listings compare the texts of instants,
and those stand in the order of the instants whatever number of fraction digits they have.
-/

set_option autoImplicit false

namespace AuditPanel

open Json

def StoreRow.ofReport (r : AuditReport) : StoreRow :=
  ⟨.ofReport r, r.toJson.compact⟩

def StoreRow.report? (row : StoreRow) : Option AuditReport :=
  (Json.read? row.record.toList).bind AuditReport.ofJson?

private theorem StoreRow.report?_ofReport {r : AuditReport} (proper : r.IsProper) :
    (ofReport r).report? = some r.restored := by
  have read := AuditReport.read_toJson_eq proper.toInRange proper.finite
  rw [Instant.ofText?_toText proper.timestamp] at read
  exact read

namespace ReportStore

variable {s : ReportStore} {r : AuditReport} {id : String}

def ids (s : ReportStore) : List String :=
  s.rows.map (·.summary.auditId)

theorem row?_eq_none_iff : s.row? id = none ↔ id ∉ s.ids := by
  simp [row?, ids]

theorem row?_save (s : ReportStore) (r : AuditReport) (id : String) :
    (s.save r).row? id = if r.auditId = id then some (.ofReport r) else s.row? id := by
  have named : (AuditSummary.ofReport r).auditId = r.auditId := rfl
  by_cases same : r.auditId = id
  · simp [row?, save, StoreRow.ofReport, named, same]
  · have differ : id ≠ r.auditId := fun h => same h.symm
    rw [if_neg same]
    simp only [row?, save, List.find?_cons, named, same, decide_false, List.find?_filter]
    congr 1
    funext row
    by_cases found : row.summary.auditId = id <;> simp [found, differ]

theorem rows_save (fresh : r.auditId ∉ s.ids) : (s.save r).rows = .ofReport r :: s.rows := by
  have others : s.rows.filter (·.summary.auditId ≠ r.auditId) = s.rows := by
    refine List.filter_eq_self.mpr fun row member => decide_eq_true fun same => ?_
    exact fresh (List.mem_map.mpr ⟨row, member, same⟩)
  rw [save, others]
  rfl

theorem get_of_row?_ofReport (found : s.row? id = some (.ofReport r)) (proper : r.IsProper) :
    s.get id = .ok (some r.restored) := by
  have read := StoreRow.report?_ofReport proper
  rw [StoreRow.report?] at read
  simp only [get, found, read]

end ReportStore

def lastSaved? (saved : List AuditReport) (id : String) : Option AuditReport :=
  saved.reverse.find? (·.auditId = id)

/-- Reports of different ids with one put in the place of that with its id. -/
def putFirst (kept : List AuditReport) (r : AuditReport) : List AuditReport :=
  r :: kept.filter (·.auditId ≠ r.auditId)

def keptOf (saved : List AuditReport) : List AuditReport :=
  saved.foldl putFirst []

private theorem lastSaved?_concat (saved : List AuditReport) (r : AuditReport) (id : String) :
    lastSaved? (saved ++ [r]) id = if r.auditId = id then some r else lastSaved? saved id := by
  rw [lastSaved?, List.reverse_concat, List.find?_cons]
  by_cases same : r.auditId = id <;> simp [same, lastSaved?]

private theorem keptOf_concat (saved : List AuditReport) (r : AuditReport) :
    keptOf (saved ++ [r]) = putFirst (keptOf saved) r := by
  rw [keptOf, List.foldl_concat, keptOf]

private theorem keptOf_nodup (saved : List AuditReport) :
    ((keptOf saved).map (·.auditId)).Nodup := by
  induction saved using List.reverseRecOn with
  | nil => exact List.nodup_nil
  | append_singleton saved r ih =>
    rw [keptOf_concat, putFirst, List.map_cons, List.nodup_cons]
    constructor
    · intro member
      obtain ⟨other, inside, same⟩ := List.mem_map.mp member
      have differ := (List.mem_filter.mp inside).2
      simp [same] at differ
    · exact ih.sublist (List.filter_sublist.map _)

private theorem mem_keptOf {saved : List AuditReport} {r : AuditReport} :
    r ∈ keptOf saved ↔ lastSaved? saved r.auditId = some r := by
  induction saved using List.reverseRecOn with
  | nil => simp [keptOf, lastSaved?]
  | append_singleton saved last ih =>
    rw [keptOf_concat, putFirst, lastSaved?_concat, List.mem_cons, List.mem_filter, ih]
    by_cases same : last.auditId = r.auditId
    · rw [if_pos same]
      simp [same, eq_comm]
    · have other : r ≠ last := by
        rintro rfl
        exact same rfl
      have differ : r.auditId ≠ last.auditId := fun h => same h.symm
      rw [if_neg same]
      simp [other, differ]

private theorem auditId_of_lastSaved? {saved : List AuditReport} {id : String} {r : AuditReport}
    (found : lastSaved? saved id = some r) : r.auditId = id ∧ r ∈ saved := by
  have named := List.find?_some found
  exact ⟨of_decide_eq_true named, List.mem_reverse.mp (List.mem_of_find?_eq_some found)⟩

private theorem mem_ids_keptOf {saved : List AuditReport} {id : String} :
    id ∈ (keptOf saved).map (·.auditId) ↔ id ∈ saved.map (·.auditId) := by
  simp only [List.mem_map, mem_keptOf]
  constructor
  · rintro ⟨r, last, rfl⟩
    exact ⟨r, (auditId_of_lastSaved? last).2, rfl⟩
  · rintro ⟨r, member, rfl⟩
    have some_ : (lastSaved? saved r.auditId).isSome := by
      rw [lastSaved?, List.find?_isSome]
      exact ⟨r, List.mem_reverse.mpr member, decide_eq_true rfl⟩
    obtain ⟨last, found⟩ := Option.isSome_iff_exists.mp some_
    have named := (auditId_of_lastSaved? found).1
    exact ⟨last, by rw [named, found], named⟩

private theorem length_keptOf (saved : List AuditReport) :
    (keptOf saved).length = (saved.map (·.auditId)).dedup.length := by
  have perm : ((keptOf saved).map (·.auditId)).Perm (saved.map (·.auditId)).dedup := by
    rw [List.perm_ext_iff_of_nodup (keptOf_nodup saved) (List.nodup_dedup _)]
    intro id
    rw [mem_ids_keptOf, List.mem_dedup]
  rw [← List.length_map (·.auditId), perm.length_eq]

/-- Whether a report stands before another in a listing: it has the later instant, or the same one
and the smaller id. -/
def AuditReport.Newer (r r' : AuditReport) : Prop :=
  r'.timestamp.Earlier r.timestamp ∨ r.timestamp = r'.timestamp ∧ r.auditId < r'.auditId

namespace AuditSummary

theorem standsBefore_iff (a b : AuditSummary) :
    standsBefore a b = true ↔ b.createdAt < a.createdAt ∨ a.createdAt = b.createdAt ∧
      a.auditId ≤ b.auditId := by
  rw [standsBefore, Ordering.isLE_then_iff_or]
  rw [compare_lt_iff_lt, compare_eq_iff_eq, eq_comm, Ordering.isLE_iff_ne_gt, ← ne_eq,
    compare_le_iff_le]

private theorem standsBefore_trans (a b c : AuditSummary) (first : standsBefore a b)
    (second : standsBefore b c) :
    standsBefore a c := by
  rw [standsBefore_iff] at first second ⊢
  rcases first with later | ⟨same, ids⟩
  · rcases second with later' | ⟨same', -⟩
    · exact .inl (lt_trans later' later)
    · exact .inl (same' ▸ later)
  · rcases second with later' | ⟨same', ids'⟩
    · exact .inl (same ▸ later')
    · exact .inr ⟨same.trans same', le_trans ids ids'⟩

private theorem standsBefore_total (a b : AuditSummary) :
    (standsBefore a b || standsBefore b a) = true := by
  rw [Bool.or_eq_true, standsBefore_iff, standsBefore_iff]
  rcases lt_trichotomy a.createdAt b.createdAt with earlier | same | later
  · exact .inr (.inl earlier)
  · rcases le_total a.auditId b.auditId with ids | ids
    · exact .inl (.inr ⟨same, ids⟩)
    · exact .inr (.inr ⟨same.symm, ids⟩)
  · exact .inl (.inl later)

end AuditSummary

private theorem Instant.earlier_trichotomy (t t' : Instant) :
    t.Earlier t' ∨ t = t' ∨ t'.Earlier t := by
  obtain ⟨seconds, nanos⟩ := t
  obtain ⟨seconds', nanos'⟩ := t'
  simp only [Earlier, Instant.mk.injEq]
  omega

/-- A report whose row is found in the order of its instant. -/
structure AuditReport.IsDated (r : AuditReport) : Prop extends r.IsProper where
  shortYear : r.timestamp.HasShortYear

private theorem AuditReport.newer_of_standsBefore {r r' : AuditReport} (dated : r.IsDated)
    (dated' : r'.IsDated)
    (differ : r.auditId ≠ r'.auditId)
    (first : AuditSummary.standsBefore (.ofReport r) (.ofReport r')) : r.Newer r' := by
  rcases (AuditSummary.standsBefore_iff _ _).mp first with text | ⟨text, ids⟩
  · change r'.timestamp.toOffsetText < r.timestamp.toOffsetText at text
    rcases Instant.earlier_trichotomy r.timestamp r'.timestamp with earlier | same | later
    · have wrong :=
        Instant.toOffsetText_lt dated.timestamp dated'.timestamp dated.shortYear
          dated'.shortYear earlier
      exact absurd text (lt_asymm wrong)
    · rw [same] at text
      exact absurd text (lt_irrefl _)
    · exact .inl later
  · change r.timestamp.toOffsetText = r'.timestamp.toOffsetText at text
    change r.auditId ≤ r'.auditId at ids
    rcases Instant.earlier_trichotomy r.timestamp r'.timestamp with earlier | same | later
    · have wrong :=
        Instant.toOffsetText_lt dated.timestamp dated'.timestamp dated.shortYear
          dated'.shortYear earlier
      rw [text] at wrong
      exact absurd wrong (lt_irrefl _)
    · exact .inr ⟨same, lt_of_le_of_ne ids differ⟩
    · exact .inl later

/-- Reports in the order of their rows in a listing. -/
def listedOrder (reports : List AuditReport) : List AuditReport :=
  reports.mergeSort fun r r' => AuditSummary.standsBefore (.ofReport r) (.ofReport r')

private theorem map_listedOrder (reports : List AuditReport) :
    (listedOrder reports).map AuditSummary.ofReport =
      (reports.map AuditSummary.ofReport).mergeSort AuditSummary.standsBefore :=
  List.map_mergeSort fun _ _ _ _ => rfl

private theorem pairwise_newer_listedOrder {reports : List AuditReport}
    (distinct : (reports.map (·.auditId)).Nodup)
    (dated : ∀ r ∈ reports, r.IsDated) : (listedOrder reports).Pairwise AuditReport.Newer := by
  have perm : (listedOrder reports).Perm reports := List.mergeSort_perm _ _
  have trans (a b c : AuditReport) :=
    AuditSummary.standsBefore_trans (.ofReport a) (.ofReport b) (.ofReport c)
  have total (a b : AuditReport) := AuditSummary.standsBefore_total (.ofReport a) (.ofReport b)
  have sorted : (listedOrder reports).Pairwise fun r r' =>
    AuditSummary.standsBefore (.ofReport r) (.ofReport r') :=
    List.pairwise_mergeSort trans total reports
  have distinct' : ((listedOrder reports).map (·.auditId)).Nodup :=
    (perm.map (·.auditId)).nodup_iff.mpr distinct
  have differ : (listedOrder reports).Pairwise fun r r' => r.auditId ≠ r'.auditId :=
    List.pairwise_map.mp distinct'
  refine (sorted.and differ).imp_of_mem ?_
  rintro r r' member member' ⟨first, other⟩
  exact AuditReport.newer_of_standsBefore (dated r (perm.subset member))
    (dated r' (perm.subset member')) other first

namespace ReportStore

/-- A report given to a store, directly or by the log. -/
inductive Call where
  | save (r : AuditReport)
  | record (r : AuditReport) (now : Instant)

def Call.report : Call → AuditReport
  | .save r => r
  | .record r _ => r

def Call.run (s : ReportStore) : Call → ReportStore
  | .save r => s.save r
  | .record r now => (Sink.store.record r now ⟨[], [], "", s⟩).2.store

def after (calls : List Call) : ReportStore :=
  calls.foldl Call.run .empty

private theorem rows_after (calls : List Call) :
    (after calls).rows = (keptOf (calls.map (·.report))).map StoreRow.ofReport := by
  induction calls using List.reverseRecOn with
  | nil => rfl
  | append_singleton calls call ih =>
    have step (s : ReportStore) : call.run s = s.save call.report := by
      cases call <;> rfl
    rw [after, List.foldl_concat, step, List.map_append, List.map_singleton, keptOf_concat,
      putFirst, List.map_cons, save]
    change StoreRow.ofReport call.report :: (after calls).rows.filter
      (·.summary.auditId ≠ call.report.auditId) = _
    rw [ih, List.filter_map]
    congr 1

variable {s : ReportStore} {saved : List AuditReport}

private theorem row?_eq_lastSaved? (rows : s.rows = (keptOf saved).map StoreRow.ofReport)
    (id : String) :
    s.row? id = (lastSaved? saved id).map StoreRow.ofReport := by
  have found : (keptOf saved).find? (·.auditId = id) = lastSaved? saved id := by
    refine Option.ext fun r => ?_
    constructor
    · intro first
      have named : r.auditId = id := by simpa using List.find?_some first
      rw [← named, ← mem_keptOf]
      exact List.mem_of_find?_eq_some first
    · intro last
      have named := (auditId_of_lastSaved? last).1
      have member : r ∈ keptOf saved := by rw [mem_keptOf, named, last]
      have some_ : ((keptOf saved).find? (·.auditId = id)).isSome := by
        rw [List.find?_isSome]
        exact ⟨r, member, decide_eq_true named⟩
      obtain ⟨r', first⟩ := Option.isSome_iff_exists.mp some_
      have named' : r'.auditId = id := by simpa using List.find?_some first
      have last' : lastSaved? saved r'.auditId = some r' :=
        mem_keptOf.mp (List.mem_of_find?_eq_some first)
      rw [named', last] at last'
      rw [first, Option.some.inj last']
  rw [row?, rows, List.find?_map, ← found]
  rfl

private theorem get_eq_lastSaved? (rows : s.rows = (keptOf saved).map StoreRow.ofReport)
    (proper : ∀ r ∈ saved, r.IsProper) (id : String) :
    s.get id = .ok ((lastSaved? saved id).map AuditReport.restored) := by
  have found := row?_eq_lastSaved? rows id
  cases last : lastSaved? saved id with
  | none =>
    rw [last] at found
    simp only [get, found, Option.map_none]
  | some r =>
    rw [last] at found
    exact get_of_row?_ofReport found (proper r (auditId_of_lastSaved? last).2)

private theorem summaries_mergeSort (rows : s.rows = (keptOf saved).map StoreRow.ofReport) :
    (s.rows.map (·.summary)).mergeSort AuditSummary.standsBefore =
      (listedOrder (keptOf saved)).map AuditSummary.ofReport := by
  rw [map_listedOrder, rows, List.map_map]
  rfl

end ReportStore

private theorem AuditSummary.signedWord_eq {n : Nat} (fits : n < 1 <<< 64) :
    signedWord n = if n < 1 <<< 63 then (n : Int) else (n : Int) - (1 <<< 64 : Nat) := by
  have word : ((1 <<< 64 : Nat) : Int) = 18446744073709551616 := rfl
  unfold signedWord Int.bmod
  rw [word]
  split
  · rw [if_pos (by omega)]
    omega
  · rw [if_neg (by omega)]
    omega

theorem reread_sampleReport : ∀ x ∈ sampleReport.reals, reread x = x := by
  have bits : ∀ x ∈ sampleReport.reals, (reread x).toBits = x.toBits := by decide
  exact fun x member => Float.toBits_inj.mp (bits x member)

private theorem isDated_sampleReport : sampleReport.IsDated :=
  ⟨isProper_sampleReport, by decide, by decide⟩

/-- A report whose score is a double that the reader takes for its neighbour below. -/
def driftingReport : AuditReport :=
  { sampleReport with overallScore := 94.08230906077605 }

theorem isDated_driftingReport : driftingReport.IsDated := by
  have finite : ∀ x ∈ driftingReport.reals, x.isFinite = true := by decide
  have sample := isProper_sampleReport
  have range : driftingReport.InRange :=
    ⟨⟨sample.findings, sample.contributions_increase⟩, sample.contractInfo,
    sample.lines_fit, sample.counts, sample.contributions_fit, sample.static_fits,
    sample.duration_fits⟩
  exact ⟨⟨range, finite, sample.timestamp⟩, isDated_sampleReport.shortYear⟩

namespace ReportStore

/-- What a store serves after reports were saved in it. -/
structure Serves (s : ReportStore) (saved : List AuditReport) : Prop where
  /-- Under an id is the last report saved there, with its doubles as their texts are read. -/
  get : ∀ id, s.get id = .ok ((lastSaved? saved id).map AuditReport.restored)
  /-- It is just the report that was saved when the texts of its doubles are read as they are. -/
  get_exact : ∀ id r, lastSaved? saved id = some r → (∀ x ∈ r.reals, reread x = x) →
    s.get id = .ok (some r)
  /-- Listings show the last report of each id, the newest first. -/
  list : ∃ latest : List AuditReport, (∀ r, r ∈ latest ↔ lastSaved? saved r.auditId = some r) ∧
    (latest.map (·.auditId)).Nodup ∧ latest.Pairwise AuditReport.Newer ∧
    ∀ limit < 1 <<< 64, s.list (AuditSummary.signedWord limit) =
      (if limit < 1 <<< 63 then latest.take limit else latest).map AuditSummary.ofReport
  /-- A listing has as many rows as its limit or as there are ids. -/
  length_list : ∀ limit < 1 <<< 63, (s.list (AuditSummary.signedWord limit)).length =
    min limit (saved.map (·.auditId)).dedup.length

theorem serves_after (calls : List Call) (dated : ∀ c ∈ calls, c.report.IsDated) :
    (after calls).Serves (calls.map (·.report)) := by
  have rows := rows_after calls
  have given : ∀ r ∈ calls.map (·.report), r.IsDated := by
    simpa using dated
  have kept (r : AuditReport) (member : r ∈ keptOf (calls.map (·.report))) : r.IsDated :=
    given r (auditId_of_lastSaved? (mem_keptOf.mp member)).2
  have perm : (listedOrder (keptOf (calls.map (·.report)))).Perm (keptOf (calls.map (·.report))) :=
    List.mergeSort_perm _ _
  have got := get_eq_lastSaved? rows fun r member => (given r member).toIsProper
  have listed (limit : Nat) (fits : limit < 1 <<< 64) :
    (after calls).list (AuditSummary.signedWord limit) =
      (if limit < 1 <<< 63 then (listedOrder (keptOf (calls.map (·.report)))).take limit
        else listedOrder (keptOf (calls.map (·.report)))).map AuditSummary.ofReport := by
    rw [list, summaries_mergeSort rows, AuditSummary.signedWord_eq fits]
    split
    · rw [if_neg (by omega), Int.toNat_natCast, List.map_take]
    · rw [if_pos (by omega)]
  refine ⟨got, fun id r last same => ?_, ⟨_, fun r => ?_, ?_, ?_, listed⟩, fun limit small => ?_⟩
  · rw [got, last, Option.map_some, AuditReport.restored_eq_self same]
  · rw [perm.mem_iff, mem_keptOf]
  · exact (perm.map (·.auditId)).nodup_iff.mpr (keptOf_nodup _)
  · exact pairwise_newer_listedOrder (keptOf_nodup _) kept
  · rw [listed limit (by omega), if_pos small, List.length_map, List.length_take, perm.length_eq,
      length_keptOf]

theorem serves_after_sampleReport :
    (∀ c ∈ [Call.save sampleReport], c.report.IsDated) ∧
      (after [.save sampleReport]).get "audit-1" = .ok (some sampleReport) ∧
      (after [.save sampleReport]).get "audit-2" = .ok none := by
  have dated : ∀ c ∈ [Call.save sampleReport], c.report.IsDated :=
    List.forall_mem_singleton.mpr isDated_sampleReport
  have serves := serves_after [.save sampleReport] dated
  exact ⟨dated, serves.get_exact _ _ rfl reread_sampleReport, serves.get _⟩

/-- What is read again is not always what was saved. -/
theorem get_driftingReport :
    ∃ r, ((empty.save driftingReport).get "audit-1") = .ok (some r) ∧
      r.overallScore.toBits ≠ driftingReport.overallScore.toBits := by
  have given : ∀ r ∈ [Call.save driftingReport].map (·.report), r.IsProper :=
    List.forall_mem_singleton.mpr isDated_driftingReport.toIsProper
  have got := get_eq_lastSaved? (rows_after [.save driftingReport]) given "audit-1"
  refine ⟨driftingReport.restored, got, ?_⟩
  change (reread 94.08230906077605).toBits ≠ (94.08230906077605 : Float).toBits
  decide

end ReportStore

end AuditPanel
