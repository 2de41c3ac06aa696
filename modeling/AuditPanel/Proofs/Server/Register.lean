import AuditPanel.Proofs.Audit.Credit
import AuditPanel.Proofs.Audit.FailedRecord
import AuditPanel.Proofs.Audit.OrderedReport
import AuditPanel.Proofs.Audit.Outcome
import AuditPanel.Proofs.Report.Store
import AuditPanel.Proofs.Server.Disclosure

/-!
The server keeps its store in step with what it answers. Each request for an audit leaves one report
under the id of the audit, however the audit ends, and nothing else touches the store; so the ids
that were given out are the ids of its rows, and what a row was saved with is what a look at it
shows ever after, its doubles as their texts are read.
-/

set_option autoImplicit false

namespace AuditPanel.Server

open Json (reread)

inductive AuditRequest where
  | source (q : SourceRequest)
  | address (q : AddressRequest)

namespace Request

def path (r : Request) : List Char :=
  (r.target.toList.takeWhile (· != '#')).takeWhile (· != '?')

def query (r : Request) : List Char :=
  ((r.target.toList.takeWhile (· != '#')).dropWhile (· != '?')).drop 1

/-- The audit that a request asks for in a body that can be used. -/
def asked? (r : Request) : Option AuditRequest :=
  if r.method = "POST" then
    match resourceAt? r.path with
    | some .audits => (accept sourceShape SourceRequest.ofJson? r).toOption.map .source
    | some .addressAudits => (accept addressShape AddressRequest.ofJson? r).toOption.map .address
    | _ => none
  else none

/-- Whether the path of a request names the report of an audit. -/
def Names (r : Request) (id : String) : Prop :=
  ∃ segment, resourceAt? r.path = some (.audit segment) ∧
    textOfBytes? (percentDecode segment) = some id

end Request

namespace AuditRequest

variable {a : Auditor} {o : Occasion} {s : AuditorState}

def run (a : Auditor) (o : Occasion) (s : AuditorState) :
    AuditRequest → Ending AuditReport × AuditorState
  | .source q => a.runSource o q.source q.options s
  | .address q => a.runAddress o q.address q.effectiveChain q.options s

def chain : AuditRequest → Option String
  | .source q => q.options.chain
  | .address q => some q.effectiveChain

def place : AuditRequest → Option String
  | .source _ => none
  | .address q => some q.address

/-- The report that is kept of an audit; none if it crashes. -/
def report? (a : Auditor) (o : Occasion) (s : AuditorState) (q : AuditRequest) :
    Option AuditReport :=
  match (q.run a o s).1 with
  | .ok r => some r
  | .error e => some (Auditor.failedReport o e q.chain q.place)
  | .crashed => none

private theorem report?_eq_none_iff {q : AuditRequest} :
    q.report? a o s = none ↔ (q.run a o s).1 = .crashed := by
  unfold report?
  split <;> simp [*]

private theorem runsInOrder_run (held : Auditor.HoldsOrdered s) (q : AuditRequest) :
    Auditor.RunsInOrder o (q.run a o s) := by
  cases q with
  | source q => exact Auditor.runsInOrder_runSource held a o q.source q.options
  | address q => exact Auditor.runsInOrder_runAddress held a o q.address q.effectiveChain q.options

private theorem records_run (q : AuditRequest) : (q.run a o s).2.records = s.records := by
  cases q with
  | source q => exact Auditor.records_runSource a o q.source q.options s
  | address q => exact Auditor.records_runAddress a o q.address q.effectiveChain q.options s

private theorem inOrder_of_report? (held : Auditor.HoldsOrdered s) {q : AuditRequest}
    {r : AuditReport} (kept : q.report? a o s = some r) :
    r.IsOrdered ∧ r.auditId = o.auditId ∧ r.timestamp = o.time := by
  unfold report? at kept
  split at kept
  · next r' completed =>
    cases kept
    exact (q.runsInOrder_run held).report r completed
  · next e _ =>
    cases kept
    have ordered := (AuditReport.failedReport_inRange o e q.chain q.place).toIsOrdered
    exact ⟨ordered, rfl, rfl⟩
  · cases kept

private theorem report?_ne_none_of_isTimely (timely : a.IsTimely o)
    (lifetime : ∀ c ∈ s.cache, a.settings.cacheTtl = some c.lifetime) (q : AuditRequest) :
    q.report? a o s ≠ none := by
  rw [ne_eq, report?_eq_none_iff]
  cases q with
  | source q =>
    exact (Auditor.runSource_runs a o q.source q.options s).ne_crashed_of_isTimely timely lifetime
  | address q =>
    rcases Auditor.runAddress_cases a o q.address q.effectiveChain q.options s with
      ⟨-, told, -⟩ | ⟨source, size, -, run⟩
    · exact told
    · rw [AuditRequest.run, run, Ending.map_eq_crashed_iff]
      exact (Auditor.runSource_runs a o source _ _).ne_crashed_of_isTimely timely lifetime

end AuditRequest

/-- What a client is told of an audit and what is kept of it: its report, or its failure. -/
inductive Answers : Response → AuditReport → Prop
  | completed (r : AuditReport) : Answers (.success r.toJson) r
  | failed (o : Occasion) (e : Failure) (chain address : Option String) :
    Answers (responseTo e) (Auditor.failedReport o e chain address)

private theorem Answers.of_status {response : Response} {r : AuditReport}
    (answers : Answers response r)
    (success : response.status = 200) : response = .success r.toJson := by
  cases answers with
  | completed => rfl
  | failed o e chain address =>
    unfold responseTo at success
    split at success <;> cases success

section Step

variable {a : Auditor} {o : Occasion} {r : Request} {s : AuditorState} {q : AuditRequest}

/-- The state after an audit of which a report is kept, or none. -/
def logged (a : Auditor) (o : Occasion) (report? : Option AuditReport) (s : AuditorState) :
    AuditorState :=
  report?.elim s fun report => Auditor.record a o report s

private theorem finish_eq (a : Auditor) (o : Occasion) (s : AuditorState) (q : AuditRequest) :
    Auditor.finish a o q.chain q.place (q.run a o s) =
      ((q.run a o s).1, logged a o (q.report? a o s) (q.run a o s).2) := by
  unfold AuditRequest.report?
  rcases q.run a o s with ⟨_ | _ | _, _⟩ <;> rfl

private theorem handle_eq (method : r.method ≠ "OPTIONS") :
    handle a o r s =
      match resourceAt? r.path with
      | none => (some (.bare 404), s)
      | some resource => handleOn a o r resource r.query s := by
  unfold handle
  rw [if_neg method]
  rfl

private theorem handle_of_asked (asked : r.asked? = some q) (a : Auditor) (o : Occasion)
    (s : AuditorState) :
    handle a o r s =
      (reportResponse (q.run a o s).1, logged a o (q.report? a o s) (q.run a o s).2) := by
  unfold Request.asked? at asked
  split at asked
  · next post =>
    have start := handle_eq (a := a) (o := o) (s := s) (by rw [post]; decide : r.method ≠ "OPTIONS")
    split at asked
    · next resource =>
      cases accepted : accept sourceShape SourceRequest.ofJson? r with
      | error response => simp [accepted, Except.toOption] at asked
      | ok given =>
        simp only [accepted, Except.toOption, Option.map_some, Option.some.injEq] at asked
        subst asked
        simp only [start, resource, handleOn, post, auditSource, accepted]
        exact congrArg (fun ending => (reportResponse ending.1, ending.2))
          (finish_eq a o s (.source given))
    · next resource =>
      cases accepted : accept addressShape AddressRequest.ofJson? r with
      | error response => simp [accepted, Except.toOption] at asked
      | ok given =>
        simp only [accepted, Except.toOption, Option.map_some, Option.some.injEq] at asked
        subst asked
        simp only [start, resource, handleOn, post, auditAddress, accepted]
        exact congrArg (fun ending => (reportResponse ending.1, ending.2))
          (finish_eq a o s (.address given))
    · cases asked
  · cases asked

private theorem handle_of_not_asked (other : r.asked? = none) (a : Auditor) (o : Occasion)
    (s : AuditorState) : ∃ response, handle a o r s = (some response, s) := by
  unfold Request.asked? at other
  by_cases options : r.method = "OPTIONS"
  · exact ⟨_, if_pos options⟩
  rw [handle_eq options]
  cases named : resourceAt? r.path with
  | none => exact ⟨_, rfl⟩
  | some resource =>
    simp only [named] at other
    change ∃ response, handleOn a o r resource r.query s = (some response, s)
    unfold handleOn
    split
    · next post =>
      rw [if_pos post] at other
      unfold auditSource
      cases accepted : accept sourceShape SourceRequest.ofJson? r with
      | error response => exact ⟨response, rfl⟩
      | ok given => simp [accepted, Except.toOption] at other
    · next post =>
      rw [if_pos post] at other
      unfold auditAddress
      cases accepted : accept addressShape AddressRequest.ofJson? r with
      | error response => exact ⟨response, rfl⟩
      | ok given => simp [accepted, Except.toOption] at other
    · exact ⟨_, rfl⟩
    · exact ⟨_, rfl⟩
    · exact ⟨_, rfl⟩

private theorem answers_handle (asked : r.asked? = some q) {report : AuditReport}
    (kept : q.report? a o s = some report) :
    ∃ response, (handle a o r s).1 = some response ∧ Answers response report := by
  rw [handle_of_asked asked]
  unfold AuditRequest.report? at kept
  split at kept
  · next completed =>
    cases kept
    exact ⟨_, by rw [completed]; rfl, .completed report⟩
  · next e failed =>
    cases kept
    exact ⟨_, by rw [failed]; rfl, .failed o e q.chain q.place⟩
  · cases kept

private theorem store_handle (stored : .store ∈ a.sinks) (asked : r.asked? = some q)
    {report : AuditReport} (kept : q.report? a o s = some report) :
    (handle a o r s).2.records.store = s.records.store.save report := by
  rw [handle_of_asked asked, kept]
  have received := (Sink.received_handOver a.sinks report o.time (q.run a o s).2.records).store
  rw [if_pos stored] at received
  exact received.trans (by rw [q.records_run])

private theorem records_handle (unkept : (r.asked?.bind fun q => q.report? a o s) = none) :
    (handle a o r s).2.records = s.records := by
  cases asked : r.asked? with
  | none =>
    obtain ⟨response, unmoved⟩ := handle_of_not_asked asked a o s
    rw [unmoved]
  | some q =>
    rw [asked, Option.bind_some] at unkept
    rw [handle_of_asked asked, unkept]
    exact q.records_run

private theorem holdsOrdered_handle (held : Auditor.HoldsOrdered s) :
    Auditor.HoldsOrdered (handle a o r s).2 := by
  cases asked : r.asked? with
  | none =>
    obtain ⟨response, unmoved⟩ := handle_of_not_asked asked a o s
    rwa [unmoved]
  | some q =>
    rw [handle_of_asked asked]
    have after := (q.runsInOrder_run (a := a) (o := o) held).holds
    cases q.report? a o s with
    | none => exact after
    | some report => exact after

private theorem lifetime_handle (lifetime : ∀ c ∈ s.cache, a.settings.cacheTtl = some c.lifetime) :
    ∀ c ∈ (handle a o r s).2.cache, a.settings.cacheTtl = some c.lifetime := by
  cases asked : r.asked? with
  | none =>
    obtain ⟨response, unmoved⟩ := handle_of_not_asked asked a o s
    rwa [unmoved]
  | some q =>
    have finished : (handle a o r s).2.cache = (q.run a o s).2.cache := by
      rw [handle_of_asked asked, ← Auditor.cache_finish o q.chain q.place, finish_eq]
    rw [finished]
    cases q with
    | source q =>
      have kept := (Auditor.Audits.source ⟨o, q.source, q.options⟩ s).lifetime lifetime
      rwa [SourceAudit.cache_run] at kept
    | address q =>
      have kept :=
        (Auditor.Audits.address o q.address q.effectiveChain q.options s).lifetime lifetime
      rwa [Auditor.auditAddress, Auditor.cache_finish] at kept

end Step

/-- The state of a server after requests, each with the id and time that an audit of it takes. -/
def stateAfter (a : Auditor) (past : List (Occasion × Request)) : AuditorState :=
  past.foldl (fun s x => (handle a x.1 x.2 s).2) (.initial a.settings)

/-- The response to a request that comes after others; none if it crashes. -/
def responseAfter (a : Auditor) (past : List (Occasion × Request)) (o : Occasion) (r : Request) :
    Option Response :=
  (handle a o r (stateAfter a past)).1

/-- The report that is kept of the audit that a request asks for after others: none if it asks for
no audit, or the audit crashes. -/
def reportAfter? (a : Auditor) (past : List (Occasion × Request)) (o : Occasion) (r : Request) :
    Option AuditReport :=
  r.asked?.bind fun q => q.report? a o (stateAfter a past)

def storeAfter (a : Auditor) (past : List (Occasion × Request)) : ReportStore :=
  (stateAfter a past).records.store

/-- The reports that are kept of audits, in the order of the requests, from a state on. -/
def reportsFrom (a : Auditor) (s : AuditorState) : List (Occasion × Request) → List AuditReport
  | [] => []
  | (o, r) :: rest =>
    (r.asked?.bind fun q => q.report? a o s).toList ++ reportsFrom a (handle a o r s).2 rest

def reportsAfter (a : Auditor) (past : List (Occasion × Request)) : List AuditReport :=
  reportsFrom a (.initial a.settings) past

/-- The ids that audits were given. -/
def issued (past : List (Occasion × Request)) : List String :=
  past.filterMap fun x => x.2.asked?.map fun _ => x.1.auditId

section Run

variable {a : Auditor} {past before between : List (Occasion × Request)} {o : Occasion}
  {r : Request} {q : AuditRequest} {report : AuditReport}

theorem stateAfter_concat (a : Auditor) (past : List (Occasion × Request)) (o : Occasion)
    (r : Request) : stateAfter a (past ++ [(o, r)]) = (handle a o r (stateAfter a past)).2 := by
  rw [stateAfter, List.foldl_concat]
  rfl

private theorem reportsAfter_concat (a : Auditor) (past : List (Occasion × Request)) (o : Occasion)
    (r : Request) :
    reportsAfter a (past ++ [(o, r)]) = reportsAfter a past ++
      (reportAfter? a past o r).toList := by
  unfold reportsAfter reportAfter? stateAfter
  generalize AuditorState.initial a.settings = s
  induction past generalizing s with
  | nil => simp [reportsFrom]
  | cons x past ih =>
    obtain ⟨o', r'⟩ := x
    rw [List.cons_append, reportsFrom, reportsFrom, ih, List.foldl_cons, List.append_assoc]

private theorem issued_concat (past : List (Occasion × Request)) (o : Occasion) (r : Request) :
    issued (past ++ [(o, r)]) = issued past ++ (r.asked?.map fun _ => o.auditId).toList := by
  cases asked : r.asked? <;> simp [issued, asked]

private theorem nodup_issued (fresh : (issued (past ++ [(o, r)])).Nodup) : (issued past).Nodup := by
  rw [issued_concat] at fresh
  exact (List.nodup_append.mp fresh).1

private theorem notMem_issued (fresh : (issued (past ++ [(o, r)])).Nodup)
    (asked : r.asked? = some q) :
    o.auditId ∉ issued past := by
  rw [issued_concat, asked, Option.map_some, Option.toList_some] at fresh
  exact fun member => (List.nodup_append.mp fresh).2.2 _ member _ (List.mem_singleton_self _) rfl

private theorem holdsOrdered_stateAfter (a : Auditor) (past : List (Occasion × Request)) :
    Auditor.HoldsOrdered (stateAfter a past) := by
  induction past using List.reverseRecOn with
  | nil => exact Auditor.holdsOrdered_initial a.settings
  | append_singleton past x ih =>
    rw [stateAfter_concat]
    exact holdsOrdered_handle ih

private theorem lifetime_stateAfter (a : Auditor) (past : List (Occasion × Request)) :
    ∀ c ∈ (stateAfter a past).cache, a.settings.cacheTtl = some c.lifetime := by
  induction past using List.reverseRecOn with
  | nil => exact fun c held => Auditor.lifetime_initial held
  | append_singleton past x ih =>
    rw [stateAfter_concat]
    exact lifetime_handle ih

private theorem exists_asked_of_reportAfter? (kept : reportAfter? a past o r = some report) :
    ∃ q, r.asked? = some q ∧ q.report? a o (stateAfter a past) = some report :=
  Option.bind_eq_some_iff.mp kept

private theorem inOrder_of_reportAfter? (kept : reportAfter? a past o r = some report) :
    report.IsOrdered ∧ report.auditId = o.auditId ∧ report.timestamp = o.time := by
  obtain ⟨q, -, kept⟩ := exists_asked_of_reportAfter? kept
  exact AuditRequest.inOrder_of_report? (holdsOrdered_stateAfter a past) kept

private theorem storeAfter_concat_of_kept (stored : .store ∈ a.sinks)
    (kept : reportAfter? a past o r = some report) :
    storeAfter a (past ++ [(o, r)]) = (storeAfter a past).save report := by
  obtain ⟨q, asked, kept⟩ := exists_asked_of_reportAfter? kept
  rw [storeAfter, stateAfter_concat, store_handle stored asked kept]
  rfl

private theorem storeAfter_concat_of_unkept (unkept : reportAfter? a past o r = none) :
    storeAfter a (past ++ [(o, r)]) = storeAfter a past := by
  rw [storeAfter, stateAfter_concat, records_handle unkept]
  rfl

private theorem auditIds_reportsAfter_sublist (a : Auditor) (past : List (Occasion × Request)) :
    List.Sublist ((reportsAfter a past).map (·.auditId)) (issued past) := by
  induction past using List.reverseRecOn with
  | nil => exact .slnil
  | append_singleton past x ih =>
    obtain ⟨o, r⟩ := x
    rw [reportsAfter_concat, issued_concat, List.map_append]
    refine ih.append ?_
    cases kept : reportAfter? a past o r with
    | none => exact List.nil_sublist _
    | some report =>
      obtain ⟨q, asked, -⟩ := exists_asked_of_reportAfter? kept
      rw [asked, Option.toList_some, List.map_singleton, (inOrder_of_reportAfter? kept).2.1]
      exact List.Sublist.refl _

private theorem auditIds_reportsAfter_of_isTimely (timely : ∀ x ∈ past, a.IsTimely x.1) :
    (reportsAfter a past).map (·.auditId) = issued past := by
  induction past using List.reverseRecOn with
  | nil => rfl
  | append_singleton past x ih =>
    obtain ⟨o, r⟩ := x
    obtain ⟨earlier, last⟩ := List.forall_mem_append.mp timely
    rw [reportsAfter_concat, issued_concat, List.map_append, ih earlier]
    congr 1
    cases asked : r.asked? with
    | none => simp [reportAfter?, asked]
    | some q =>
      have told := q.report?_ne_none_of_isTimely (last _ (List.mem_singleton_self _))
        (lifetime_stateAfter a past)
      obtain ⟨report, kept⟩ := Option.ne_none_iff_exists'.mp told
      have kept : reportAfter? a past o r = some report := by
        rw [reportAfter?, asked, Option.bind_some, kept]
      simp [kept, (inOrder_of_reportAfter? kept).2.1]

private theorem rows_storeAfter (stored : .store ∈ a.sinks) (fresh : (issued past).Nodup) :
    (storeAfter a past).rows = ((reportsAfter a past).map StoreRow.ofReport).reverse := by
  induction past using List.reverseRecOn with
  | nil => rfl
  | append_singleton past x ih =>
    obtain ⟨o, r⟩ := x
    have rows := ih (nodup_issued fresh)
    rw [reportsAfter_concat, List.map_append, List.reverse_append, ← rows]
    cases kept : reportAfter? a past o r with
    | none =>
      rw [storeAfter_concat_of_unkept kept]
      rfl
    | some report =>
      have new : report.auditId ∉ (storeAfter a past).ids := by
        obtain ⟨q, asked, -⟩ := exists_asked_of_reportAfter? kept
        rw [ReportStore.ids, rows, List.map_reverse, List.mem_reverse, List.map_map,
          (inOrder_of_reportAfter? kept).2.1]
        exact fun member =>
          notMem_issued fresh asked ((auditIds_reportsAfter_sublist a past).mem member)
      rw [storeAfter_concat_of_kept stored kept, ReportStore.rows_save new]
      rfl

private theorem ids_storeAfter (stored : .store ∈ a.sinks) (fresh : (issued past).Nodup) :
    (storeAfter a past).ids = ((reportsAfter a past).map (·.auditId)).reverse := by
  rw [ReportStore.ids, rows_storeAfter stored fresh, List.map_reverse, List.map_map]
  rfl

private theorem row?_storeAfter (stored : .store ∈ a.sinks)
    (kept : reportAfter? a before o r = some report)
    (fresh : (issued (before ++ (o, r) :: between)).Nodup) :
    (storeAfter a (before ++ (o, r) :: between)).row? o.auditId = some (.ofReport report) := by
  induction between using List.reverseRecOn with
  | nil =>
    rw [storeAfter_concat_of_kept stored kept, ReportStore.row?_save,
      if_pos (inOrder_of_reportAfter? kept).2.1]
  | append_singleton between x ih =>
    obtain ⟨o', r'⟩ := x
    rw [← List.cons_append, ← List.append_assoc] at fresh ⊢
    have row := ih (nodup_issued fresh)
    cases kept' : reportAfter? a (before ++ (o, r) :: between) o' r' with
    | none => rwa [storeAfter_concat_of_unkept kept']
    | some report' =>
      obtain ⟨q, asked, -⟩ := exists_asked_of_reportAfter? kept
      obtain ⟨q', asked', -⟩ := exists_asked_of_reportAfter? kept'
      have given : o.auditId ∈ issued (before ++ (o, r) :: between) := by simp [issued, asked]
      have other : report'.auditId ≠ o.auditId := by
        rw [(inOrder_of_reportAfter? kept').2.1]
        exact fun same => notMem_issued fresh asked' (same ▸ given)
      rw [storeAfter_concat_of_kept stored kept', ReportStore.row?_save, if_neg other, row]

end Run

section Looks

variable {a : Auditor} {o : Occasion} {r : Request} {s : AuditorState}

private theorem handle_get (get : r.method = "GET") {resource : Resource}
    (named : resourceAt? r.path = some resource) :
    (handle a o r s).1 = some (look resource r.query s) := by
  rw [handle_eq (by rw [get]; decide), named]
  simp only [handleOn, get]

private theorem handle_head (head : r.method = "HEAD") {resource : Resource}
    (named : resourceAt? r.path = some resource) :
    (handle a o r s).1 = some { look resource r.query s with body := none } := by
  rw [handle_eq (by rw [head]; decide), named]
  simp only [handleOn, head]

private theorem look_of_row? {segment : List Char} {id : String}
    (decoded : textOfBytes? (percentDecode segment) = some id) {report : AuditReport}
    (found : s.records.store.row? id = some (.ofReport report)) (proper : report.IsProper)
    (query : List Char) : look (.audit segment) query s = .success report.restored.toJson := by
  simp only [look, Server.report, decoded, ReportStore.get_of_row?_ofReport found proper]

private theorem mem_ids_of_look {segment query : List Char}
    (success : (look (.audit segment) query s).status = 200) :
    ∃ id ∈ s.records.store.ids, textOfBytes? (percentDecode segment) = some id := by
  simp only [look, Server.report] at success
  split at success
  · cases success
  · next id decoded =>
    refine ⟨id, ?_, decoded⟩
    by_contra absent
    have missing := ReportStore.row?_eq_none_iff.mpr absent
    simp only [ReportStore.get, missing] at success
    cases success

theorem length_list (s : ReportStore) (limit : Nat) :
    (s.list limit).length = min limit s.rows.length := by
  have natural : ¬(limit : Int) < 0 := by omega
  simp [ReportStore.list, natural]

private theorem look_of_listRequest? {query : List Char} {q : ListRequest}
    (read : listRequest? query = some q) :
    look .audits query s = listingOf (s.records.store.list q.effectiveLimit) := by
  simp only [look, listing, read]
  rfl

end Looks

/-- What a server keeps of the requests so far, and what the next one does and finds. -/
structure StaysInStep (a : Auditor) (past : List (Occasion × Request)) (o : Occasion)
    (r : Request) :
    Prop where
  /-- The store has the reports that are kept, each under the id that its audit was given. -/
  rows : (storeAfter a past).rows = ((reportsAfter a past).map StoreRow.ofReport).reverse ∧
    List.Sublist ((reportsAfter a past).map (·.auditId)) (issued past)
  /-- While the clock can hold the times that audits need, there is one for each audit asked for. -/
  counted : (∀ x ∈ past, a.IsTimely x.1) → (storeAfter a past).rows.length = (issued past).length
  /-- A request for an audit adds one report under its id, and that or its failure is what the
  client is told. -/
  added : ∀ report, reportAfter? a past o r = some report → report.auditId = o.auditId ∧
    (storeAfter a (past ++ [(o, r)])).rows = .ofReport report :: (storeAfter a past).rows ∧
    ∃ response, responseAfter a past o r = some response ∧ Answers response report
  /-- Or it crashes, if the clock cannot hold a time that it needs: then the client is told nothing
  and the store stays as it is. -/
  crashed : ∀ q, r.asked? = some q → reportAfter? a past o r = none → ¬a.IsTimely o ∧
    responseAfter a past o r = none ∧ storeAfter a (past ++ [(o, r)]) = storeAfter a past
  /-- Any other request is answered and leaves everything as it is. -/
  unmoved : r.asked? = none → responseAfter a past o r ≠ none ∧
    stateAfter a (past ++ [(o, r)]) = stateAfter a past
  /-- A look at an audit shows the report that was kept of it, with its doubles as their texts are
  read. If they are read as they are and the audit succeeded, it shows just what the client was
  told. -/
  kept : ∀ before o₀ r₀ between report, past = before ++ (o₀, r₀) :: between →
    reportAfter? a before o₀ r₀ = some report → o₀.time.IsProper → report.Fits →
    (∀ x ∈ report.reals, x.isFinite = true) → r.method = "GET" → r.Names o₀.auditId →
    responseAfter a past o r = some (.success report.restored.toJson) ∧
      ((∀ x ∈ report.reals, reread x = x) → ∀ told, responseAfter a before o₀ r₀ = some told →
        told.status = 200 → responseAfter a past o r = some told)
  /-- A look at a report succeeds only under an id that was given to an audit of which one is
  kept. -/
  unissued : r.method = "GET" ∨ r.method = "HEAD" → ∀ segment,
    resourceAt? r.path = some (.audit segment) →
    ∀ response, responseAfter a past o r = some response → response.status = 200 →
    ∃ report ∈ reportsAfter a past, report.auditId ∈ issued past ∧ r.Names report.auditId
  /-- A listing has as many rows as were asked for, from one to two hundred, or as there are
  reports. -/
  listed : r.method = "GET" → resourceAt? r.path = some .audits →
    ∀ q, listRequest? r.query = some q →
    ∃ audits, responseAfter a past o r = some (listingOf audits) ∧
      audits.length = min (max 1 (min (q.limit.getD 20) 200)) (storeAfter a past).rows.length

/-- While no id comes twice, a server that logs to its store keeps it in step with its answers. -/
theorem stays_in_step (a : Auditor) (stored : .store ∈ a.sinks)
    (past : List (Occasion × Request)) (o : Occasion) (r : Request)
    (fresh : (issued (past ++ [(o, r)])).Nodup) : StaysInStep a past o r where
  rows := ⟨rows_storeAfter stored (nodup_issued fresh), auditIds_reportsAfter_sublist a past⟩
  counted := by
    intro timely
    have ids := congrArg List.length (ids_storeAfter stored (nodup_issued fresh))
    rwa [auditIds_reportsAfter_of_isTimely timely, List.length_reverse, ReportStore.ids,
      List.length_map] at ids
  added := by
    intro report kept
    obtain ⟨q, asked, run⟩ := exists_asked_of_reportAfter? kept
    have rows := rows_storeAfter stored fresh
    rw [reportsAfter_concat, kept, List.map_append, List.reverse_append,
      ← rows_storeAfter stored (nodup_issued fresh)] at rows
    exact ⟨(inOrder_of_reportAfter? kept).2.1, rows, answers_handle asked run⟩
  crashed := by
    intro q asked unkept
    have run : q.report? a o (stateAfter a past) = none := by
      rwa [reportAfter?, asked, Option.bind_some] at unkept
    refine ⟨fun timely => ?_, ?_, storeAfter_concat_of_unkept unkept⟩
    · exact q.report?_ne_none_of_isTimely timely (lifetime_stateAfter a past) run
    · rw [responseAfter, handle_of_asked asked, AuditRequest.report?_eq_none_iff.mp run]
      rfl
  unmoved := by
    intro other
    obtain ⟨response, unmoved⟩ := handle_of_not_asked other a o (stateAfter a past)
    rw [responseAfter, stateAfter_concat, unmoved]
    exact ⟨Option.some_ne_none response, rfl⟩
  kept := by
    rintro before o₀ r₀ between report rfl kept dated fits finite get ⟨segment, resource, decoded⟩
    obtain ⟨ordered, -, time⟩ := inOrder_of_reportAfter? kept
    have proper : report.IsProper := ⟨⟨ordered, fits⟩, finite, by rwa [time]⟩
    have row := row?_storeAfter stored kept (nodup_issued fresh)
    have shown : responseAfter a (before ++ (o₀, r₀) :: between) o r =
        some (.success report.restored.toJson) := by
      rw [responseAfter, handle_get get resource]
      exact congrArg some (look_of_row? decoded row proper r.query)
    refine ⟨shown, fun same told answer success => ?_⟩
    obtain ⟨q, asked, run⟩ := exists_asked_of_reportAfter? kept
    obtain ⟨response, answered, answers⟩ := answers_handle asked run
    obtain rfl : response = told := Option.some.inj (answered.symm.trans answer)
    rw [shown, answers.of_status success, AuditReport.restored_eq_self same]
  unissued := by
    intro method segment resource response answered success
    have found : (look (.audit segment) r.query (stateAfter a past)).status = 200 := by
      rcases method with get | head
      · rw [responseAfter, handle_get get resource] at answered
        cases answered
        exact success
      · rw [responseAfter, handle_head head resource] at answered
        cases answered
        exact success
    obtain ⟨id, member, decoded⟩ := mem_ids_of_look found
    change id ∈ (storeAfter a past).ids at member
    rw [ids_storeAfter stored (nodup_issued fresh), List.mem_reverse] at member
    have given := (auditIds_reportsAfter_sublist a past).mem member
    obtain ⟨report, kept, rfl⟩ := List.mem_map.mp member
    exact ⟨report, kept, given, segment, resource, decoded⟩
  listed := by
    intro get resource q read
    refine ⟨(storeAfter a past).list q.effectiveLimit, ?_, ?_⟩
    · rw [responseAfter, handle_get get resource, look_of_listRequest? read]
      rfl
    · rw [length_list]
      rfl

/-- An engine that fetches the code of one instruction, whose source is not known, from every
address. -/
def sourceless : Auditor :=
  { keyless "" with fetcher := some fun _ _ => .ok ⟨none, "0x00", "0", 0⟩ }

def zeroAddress : String := "0x0000000000000000000000000000000000000000"

def addressRequest : Request :=
  ⟨"POST", "/api/audits/address", true,
    "\x7b\"address\":\"0x0000000000000000000000000000000000000000\"\x7d"⟩

def reportLook : Request :=
  ⟨"GET", "/api/audits/1", false, ""⟩

private theorem accept_addressRequest :
    accept addressShape AddressRequest.ofJson? addressRequest =
      .ok ⟨zeroAddress, none, .standard⟩ := by
  have short : ¬bodyLimit < addressRequest.body.utf8ByteSize := by decide
  have shape : addressShape addressRequest.body.toList =
    .ok (.ofMembers [("address", .string zeroAddress)], []) := rfl
  have request : AddressRequest.ofJson? (.ofMembers [("address", .string zeroAddress)]) =
      some ⟨zeroAddress, none, .standard⟩ := by
    rw [AddressRequest.ofJson?, Json.slots?_ofMembers (by decide)]
    rfl
  have read : requestIn addressShape AddressRequest.ofJson? addressRequest.body =
      .ok ⟨zeroAddress, none, .standard⟩ := by
    simp only [requestIn, shape, bind, Except.bind, request]
  have declared : addressRequest.isJson = true := rfl
  simp only [accept, declared, Bool.not_true, Bool.false_eq_true, if_false, if_neg short, read]

private theorem asked?_addressRequest :
    addressRequest.asked? = some (.address ⟨zeroAddress, none, .standard⟩) := by
  have post : addressRequest.method = "POST" := rfl
  have named : resourceAt? addressRequest.path = some .addressAudits := rfl
  simp only [Request.asked?, if_pos post, named, accept_addressRequest, Except.toOption,
    Option.map_some]

def oneInstruction (o : Occasion) (summary : String) (recommendations : List String) :
    AuditReport :=
  { AuditReport.bare o.auditId .bytecodeOnly Auditor.bytecodeOnlyScore .medium o.time with
    contractInfo := { ContractInfo.empty with name := zeroAddress, bytecodeSize := some 1 }
    summary := summary
    recommendations := recommendations
    chain := some defaultChain
    address := some zeroAddress }

private theorem run_sourceless (o : Occasion) (s : AuditorState) : ∃ summary recommendations,
    ((AuditRequest.address ⟨zeroAddress, none, .standard⟩).run sourceless o s).1 =
      .ok (oneInstruction o summary recommendations) := by
  have valid : isValidAddress zeroAddress = true := rfl
  have scanned : Bytecode.scan "0x00" = .ok ⟨1, []⟩ := by decide +kernel
  simp only [AuditRequest.run, Auditor.runAddress, valid, sourceless, Auditor.runFetched,
    Auditor.bytecodeReport, scanned, bind, Except.bind, Bool.not_true, Bool.false_eq_true, if_false]
  exact ⟨_, _, rfl⟩

private theorem stored_sourceless (o : Occasion) (summary : String)
    (recommendations : List String) :
    (oneInstruction o summary recommendations).Fits ∧
      (∀ x ∈ (oneInstruction o summary recommendations).reals, x.isFinite = true ∧
        reread x = x) := by
  have doubles : (oneInstruction o summary recommendations).reals = [60.0, 0.0] := rfl
  constructor
  · have bare :=
      (AuditReport.inRange_bare o.auditId .bytecodeOnly Auditor.bytecodeOnlyScore .medium
        o.time).toFits
    have size : ∀ n ∈ some 1, n < 1 <<< 64 := by decide
    obtain ⟨functions, modifiers, events, stateVariables, payable, complexity, lines, -⟩ :=
      bare.contractInfo
    exact ⟨⟨functions, modifiers, events, stateVariables, payable, complexity, lines, size⟩,
      bare.lines_fit, bare.counts, bare.contributions_fit, bare.static_fits, bare.duration_fits⟩
  · rw [doubles]
    have bits : ∀ x ∈ [(60.0 : Float), 0.0], x.isFinite = true ∧ (reread x).toBits = x.toBits := by
      decide
    exact fun x member => (bits x member).imp_right Float.toBits_inj.mp

theorem stays_in_step_sourceless :
    .store ∈ sourceless.sinks ∧
      (issued ([(⟨"1", ⟨0, 0⟩⟩, addressRequest)] ++ [(⟨"2", ⟨0, 0⟩⟩, reportLook)])).Nodup ∧
      (storeAfter sourceless [(⟨"1", ⟨0, 0⟩⟩, addressRequest)]).rows.length = 1 ∧
      ∃ told, responseAfter sourceless [] ⟨"1", ⟨0, 0⟩⟩ addressRequest = some told ∧
        told.status = 200 ∧
        responseAfter sourceless [(⟨"1", ⟨0, 0⟩⟩, addressRequest)] ⟨"2", ⟨0, 0⟩⟩ reportLook =
          some told := by
  have stored : .store ∈ sourceless.sinks := List.mem_singleton_self _
  have other : reportLook.asked? = none := rfl
  have ids : issued ([(⟨"1", ⟨0, 0⟩⟩, addressRequest)] ++ [(⟨"2", ⟨0, 0⟩⟩, reportLook)]) =
      ["1"] := by
    simp [issued, asked?_addressRequest, other]
  have fresh :
      (issued ([(⟨"1", ⟨0, 0⟩⟩, addressRequest)] ++ [(⟨"2", ⟨0, 0⟩⟩, reportLook)])).Nodup := by
    rw [ids]
    exact List.nodup_singleton _
  have step :=
    stays_in_step sourceless stored [(⟨"1", ⟨0, 0⟩⟩, addressRequest)] ⟨"2", ⟨0, 0⟩⟩ reportLook fresh
  have timely : ∀ x ∈ [((⟨"1", ⟨0, 0⟩⟩ : Occasion), addressRequest)], sourceless.IsTimely x.1 :=
    List.forall_mem_singleton.mpr (by decide)
  have count : (issued [(⟨"1", ⟨0, 0⟩⟩, addressRequest)]).length = 1 := by
    simp [issued, asked?_addressRequest]
  obtain ⟨summary, recommendations, run⟩ := run_sourceless ⟨"1", ⟨0, 0⟩⟩ (stateAfter sourceless [])
  have kept : reportAfter? sourceless [] ⟨"1", ⟨0, 0⟩⟩ addressRequest =
      some (oneInstruction ⟨"1", ⟨0, 0⟩⟩ summary recommendations) := by
    rw [reportAfter?, asked?_addressRequest, Option.bind_some, AuditRequest.report?, run]
  have told : responseAfter sourceless [] ⟨"1", ⟨0, 0⟩⟩ addressRequest =
      some (.success (oneInstruction ⟨"1", ⟨0, 0⟩⟩ summary recommendations).toJson) := by
    rw [responseAfter, handle_of_asked asked?_addressRequest, run]
    rfl
  have named : reportLook.Names "1" := ⟨"1".toList, rfl, percentDecode_one⟩
  obtain ⟨fits, doubles⟩ := stored_sourceless ⟨"1", ⟨0, 0⟩⟩ summary recommendations
  have dated : (⟨0, 0⟩ : Instant).IsProper := ⟨by decide, by decide, by decide⟩
  have shown := step.kept [] ⟨"1", ⟨0, 0⟩⟩ addressRequest [] _ rfl kept dated fits
    (fun x member => (doubles x member).1) rfl named
  exact ⟨stored, fresh, (step.counted timely).trans count, _, told, rfl,
    shown.2 (fun x member => (doubles x member).2) _ told rfl⟩

/-- A reply whose score is read as its neighbour, and that one as the next. -/
def driftingReply : String :=
  "\x7b\"codeQuality\":2.2589813941974212e-07\x7d"

def driftingReview : Review :=
  .normalize driftingReply.toList .security

/-- An engine all of whose reviewers give this reply. -/
def drifting : Auditor :=
  { keyless "" with panel := ⟨fun _ _ _ => .answer 0 driftingReply, fun _ _ => .zero⟩ }

private theorem asked?_auditRequest :
    auditRequest.asked? = some (.source ⟨emptyContract, onlySecurity⟩) := by
  have post : auditRequest.method = "POST" := rfl
  have named : resourceAt? auditRequest.path = some .audits := rfl
  simp only [Request.asked?, if_pos post, named, accept_auditRequest, Except.toOption,
    Option.map_some]

private theorem driftingReview_drifts : driftingReview.findings = [] ∧
    ∃ x, (Consensus.mergeQuality [driftingReview]).score = some x ∧ x.isFinite = true ∧
      (reread x).toBits ≠ x.toBits := by
  have declared : driftingReview.findings.isEmpty ∧
    (Consensus.mergeQuality [driftingReview]).score.map
      (fun x => (x.isFinite, decide ((reread x).toBits ≠ x.toBits))) = some (true, true) := by
        decide +kernel
  obtain ⟨x, score, known⟩ := Option.map_eq_some_iff.mp declared.2
  obtain ⟨finite, drifts⟩ := Prod.mk.inj known
  exact ⟨List.isEmpty_iff.mp declared.1, x, score, finite, of_decide_eq_true drifts⟩

private theorem view_driftingReview {time : Instant} {c : Source.Characteristics}
    {rules : Consensus.ScoringRules} {view : Consensus.Aggregate}
    (aggregated : Consensus.aggregate [.succeeded driftingReview 0 time] [] c rules = .ok view) :
    view.findings = [] ∧ view.lowConfidence = [] ∧
      view.codeQuality = Consensus.mergeQuality [driftingReview] ∧
      view.confidenceScore = Consensus.coverageScore 1 1 [] ∧ ∀ m ∈ view.contributions,
        m.2 = 0 := by
  have order : Consensus.inPanelOrder [.succeeded driftingReview 0 time] =
      [.succeeded driftingReview 0 time] :=
    List.mergeSort_singleton _
  have reviews : Consensus.reviewsOf [.succeeded driftingReview 0 time] = [driftingReview] := by
    rw [Consensus.reviewsOf, order]
    rfl
  have quiet := driftingReview_drifts.1
  obtain ⟨kept, low⟩ := Consensus.aggregate_findings_eq_nil aggregated
    (by rw [reviews]; exact List.forall_mem_singleton.mpr quiet)
  obtain ⟨quality, confidence⟩ := Consensus.aggregate_quality aggregated
  rw [reviews] at quality
  rw [reviews, kept] at confidence
  refine ⟨kept, low, quality, confidence, fun m member => ?_⟩
  have single (x : String × Nat) : ([x].map (·.1)).Nodup := List.nodup_singleton _
  rw [Consensus.aggregate_contributions aggregated, order, List.map_singleton,
    Consensus.mem_lastByName (single _), List.mem_singleton] at member
  rw [member]
  exact List.length_eq_zero_iff.mpr quiet

private theorem results_drifting {o : Occasion} {p : Auditor.Preparation}
    (chosen : p.reviewers = [.security]) :
    (Session.run (Auditor.sessionBrief drifting emptyContract onlySecurity p o.time)
      drifting.panel .none p.reviewers).results = [.succeeded driftingReview 0 o.time] := by
  rw [chosen]
  refine Session.run_results_singleton ?_
  rw [Session.ownResult?_eq List.count_singleton_self]
  rfl

private theorem exists_view_drifting {o : Occasion} (timely : drifting.IsTimely o) :
    ∃ p view elapsed,
    (Auditor.runSource drifting o emptyContract onlySecurity (.initial drifting.settings)).1 =
        .ok (Auditor.completedReport drifting.settings o onlySecurity p view elapsed) ∧
      Consensus.aggregate [.succeeded driftingReview 0 o.time] [] p.characteristics
        drifting.settings.scoring = .ok view ∧
      elapsed ≤ drifting.settings.globalTimeout ∧ p.analysis.findings = [] ∧
      p.analysis.contractInfo = ⟨"A", ["A"], 0, 0, 0, 0, 0, 1, 1, none⟩ := by
  obtain ⟨p, prepared, chosen, unflagged, info⟩ := exists_prepare_emptyContract ""
  have prepared : Auditor.prepare drifting.settings emptyContract onlySecurity = .ok p := prepared
  have answered : Consensus.reviewsOf [.succeeded driftingReview 0 o.time] ≠ [] := by
    rw [Consensus.reviewsOf, Consensus.inPanelOrder, List.mergeSort_singleton]
    exact List.cons_ne_nil _ _
  obtain ⟨view, aggregated⟩ :=
    Consensus.aggregate_completes [] p.characteristics drifting.settings.scoring answered
  have missed := Auditor.cachedView?_initial drifting o emptyContract onlySecurity
  have results := results_drifting (o := o) chosen
  obtain ⟨elapsed, consulted⟩ := Auditor.consult_completes prepared missed timely
    (fun _ held => Auditor.lifetime_initial held)
    (by rw [unflagged]; exact (congrArg (Consensus.aggregate · [] _ _) results).trans aggregated)
  refine ⟨p, view, elapsed, ?_, aggregated, Auditor.elapsed_consult_le prepared consulted,
    unflagged, info⟩
  rw [Auditor.runSource_of_prepare prepared, consulted]
  rfl

private theorem runSource_drifting {o : Occasion} (timely : drifting.IsTimely o) : ∃ r,
    (Auditor.runSource drifting o emptyContract onlySecurity (.initial drifting.settings)).1 =
      .ok r ∧ r.Fits ∧
      (∀ x ∈ r.reals, x.isFinite = true) ∧ ∃ x, r.codeQuality.score = some x ∧
        (reread x).toBits ≠ x.toBits := by
  obtain ⟨p, view, elapsed, run, aggregated, late, unflagged, info⟩ := exists_view_drifting timely
  obtain ⟨kept, low, quality, confidence, credit⟩ := view_driftingReview aggregated
  obtain ⟨-, x, score, finite, drifts⟩ := driftingReview_drifts
  have final : Auditor.finalFindings view [] = [] := by
    rw [Auditor.finalFindings, kept, low]
    change Consensus.sortFindings (Consensus.merged []) = []
    rw [Consensus.merged_nil, Consensus.sortFindings_nil]
  refine ⟨Auditor.completedReport drifting.settings o onlySecurity p view elapsed, run, ?_, ?_, x,
    ?_, drifts⟩
  · have zero : 0 < 1 <<< 64 := by decide
    constructor <;> simp only [Auditor.completedReport, unflagged, final, info]
    · exact ⟨zero, zero, zero, zero, zero, by decide, by decide, by decide⟩
    · exact List.forall_mem_nil _
    · exact ⟨zero, zero, zero, zero⟩
    · intro m member
      rw [credit m member]
      exact zero
    · exact zero
    · exact Nat.lt_of_le_of_lt late (by decide)
  · have scores :
      ∀ y ∈ [Consensus.reportScore [] drifting.settings.scoring.penalties,
        Consensus.coverageScore 1 1 []], y.isFinite = true := by decide +kernel
    simp only [AuditReport.reals, Auditor.completedReport, unflagged, final, quality, confidence,
      CodeQuality.reals, score]
    simpa [finite] using scores
  · simp only [Auditor.completedReport, quality, score]

/-- The client is told of one report, and a look at the audit shows another. -/
theorem look_drifting_ne_answer : ∃ r : AuditReport, (∀ x ∈ r.reals, x.isFinite = true) ∧
    responseAfter drifting [] ⟨"1", ⟨0, 0⟩⟩ auditRequest = some (.success r.toJson) ∧
    responseAfter drifting [(⟨"1", ⟨0, 0⟩⟩, auditRequest)] ⟨"2", ⟨0, 0⟩⟩ reportLook ≠
      some (.success r.toJson) := by
  have timely : drifting.IsTimely ⟨"1", ⟨0, 0⟩⟩ := by decide
  obtain ⟨r, run, fits, finite, x, score, drifts⟩ := runSource_drifting timely
  have kept : reportAfter? drifting [] ⟨"1", ⟨0, 0⟩⟩ auditRequest = some r := by
    have ran : ((AuditRequest.source ⟨emptyContract, onlySecurity⟩).run drifting ⟨"1", ⟨0, 0⟩⟩
        (stateAfter drifting [])).1 = .ok r := run
    rw [reportAfter?, asked?_auditRequest, Option.bind_some, AuditRequest.report?, ran]
  have told : responseAfter drifting [] ⟨"1", ⟨0, 0⟩⟩ auditRequest = some (.success r.toJson) := by
    rw [responseAfter, handle_of_asked asked?_auditRequest]
    exact congrArg reportResponse run
  obtain ⟨ordered, -, time⟩ := inOrder_of_reportAfter? kept
  have dated : r.timestamp.IsProper := by
    rw [time]
    exact ⟨by decide, by decide, by decide⟩
  have proper : r.IsProper := ⟨⟨ordered, fits⟩, finite, dated⟩
  have fresh : (issued [(⟨"1", ⟨0, 0⟩⟩, auditRequest)]).Nodup := by
    simp [issued, asked?_auditRequest]
  have row : (storeAfter drifting ([] ++ (⟨"1", ⟨0, 0⟩⟩, auditRequest) :: [])).row? "1" =
      some (.ofReport r) :=
    row?_storeAfter (List.mem_singleton_self _) kept fresh
  have shown : responseAfter drifting [(⟨"1", ⟨0, 0⟩⟩, auditRequest)] ⟨"2", ⟨0, 0⟩⟩ reportLook =
      some (.success r.restored.toJson) := by
    have resource : resourceAt? reportLook.path = some (.audit "1".toList) := rfl
    rw [responseAfter, handle_get rfl resource]
    exact congrArg some (look_of_row? percentDecode_one row proper reportLook.query)
  refine ⟨r, finite, told, fun same => drifts ?_⟩
  rw [shown] at same
  have records : r.restored.toJson = r.toJson :=
    Option.some.inj (congrArg Response.body (Option.some.inj same))
  have restored : AuditReport.ofJson? r.restored.toJson = some r.restored :=
    AuditReport.ofJson?_toJson (proper.toInRange.mapReals reread) dated
  rw [records, AuditReport.ofJson?_toJson proper.toInRange dated] at restored
  have scores := congrArg (·.codeQuality.score) (Option.some.inj restored)
  simp only [AuditReport.restored, AuditReport.mapReals, CodeQuality.mapReals, score,
    Option.map_some, Option.some.injEq] at scores
  rw [← scores]

end AuditPanel.Server
