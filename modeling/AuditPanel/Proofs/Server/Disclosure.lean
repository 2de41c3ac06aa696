import AuditPanel.Proofs.Audit.Wordless
import AuditPanel.Proofs.Panel.Isolation
import AuditPanel.Server.Router

/-!
What clients of the server learn of the words in which reviewers fail. An audit that fails for them
is answered with one text for all, but its record keeps the words, and what the store holds is
shown: in the listing and in the report.
-/

set_option autoImplicit false

namespace AuditPanel.Server

def listingOf (audits : List AuditSummary) : Response :=
  .success
    (.ofMembers [("audits", .array (audits.map AuditSummary.toJson)),
      ("total", .nat audits.length)])

/-- Two responses that show one report or one listing, but for the words in which failed audits are
told. -/
inductive DifferInWords : Response → Response → Prop
  | report {r r' : AuditReport} (same : r.wordless = r'.wordless) :
    DifferInWords (.success r.toJson) (.success r'.toJson)
  | listing {l l' : List AuditSummary} (same : l.map AuditSummary.wordless = l'.map .wordless) :
    DifferInWords (listingOf l) (listingOf l')

/-- A request with its response, if it has one. -/
structure Exchange where
  request : Request
  response : Option Response

/-- Two exchanges on one request that are the same, unless the request only looks at what is
stored. -/
structure Exchange.Alike (x x' : Exchange) : Prop where
  request : x.request = x'.request
  response : x.response = x'.response ∨ x.request.method = "GET" ∧
    ∃ y y', x.response = some y ∧ x'.response = some y' ∧ DifferInWords y y'

/-- The exchanges on requests that come one after the other, each with its id and time. -/
def serve (a : Auditor) : AuditorState → List (Occasion × Request) → List Exchange
  | _, [] => []
  | s, (o, r) :: rest =>
    let (response, s) := handle a o r s
    ⟨r, response⟩ :: serve a s rest

variable {a : Auditor} {panel' : Panel} {s s' : AuditorState}

private theorem reportResponse_alike {ending ending' : Ending AuditReport}
    (h : EndAlike ending ending') :
    reportResponse ending = reportResponse ending' := by
  cases h with
  | same => rfl
  | silent kind kind' =>
    have blameless {e : Failure} (kind : e.kind = .noSuccessfulAnalysis) : responseTo e =
        .error 500 genericFailure := by
      rw [responseTo, kind]
      rfl
    simp only [reportResponse, blameless kind, blameless kind']

private theorem auditSource_alike (panels : a.panel.wordless = panel'.wordless)
    (states : s.Alike s') (o : Occasion) (r : Request) :
    (auditSource a o r s).1 = (auditSource { a with panel := panel' } o r s').1 ∧
      (auditSource a o r s).2.Alike (auditSource { a with panel := panel' } o r s').2 := by
  unfold auditSource
  cases accept sourceShape SourceRequest.ofJson? r with
  | error response => exact ⟨rfl, states⟩
  | ok request =>
    obtain ⟨ending, after⟩ := Auditor.finish_alike panel' o request.options.chain none
      (Auditor.runSource_alike panels states o request.source request.options)
    exact ⟨reportResponse_alike ending, after⟩

private theorem auditAddress_alike (panels : a.panel.wordless = panel'.wordless)
    (states : s.Alike s') (o : Occasion) (r : Request) :
    (auditAddress a o r s).1 = (auditAddress { a with panel := panel' } o r s').1 ∧
      (auditAddress a o r s).2.Alike (auditAddress { a with panel := panel' } o r s').2 := by
  unfold auditAddress
  cases accept addressShape AddressRequest.ofJson? r with
  | error response => exact ⟨rfl, states⟩
  | ok request =>
    obtain ⟨ending, after⟩ :=
      Auditor.finish_alike panel' o (some request.effectiveChain) (some request.address)
        (Auditor.runAddress_alike panels states o request.address request.effectiveChain
          request.options)
    exact ⟨reportResponse_alike ending, after⟩

private theorem listing_alike (states : s.Alike s') (query : List Char) :
    listing query s = listing query s' ∨ DifferInWords (listing query s) (listing query s') := by
  unfold listing
  cases listRequest? query with
  | none => exact .inl rfl
  | some request => exact .inr (.listing (states.store.list request.effectiveLimit))

/-- The response to a request for a report, by what the store gives. -/
def reportFound : Except Failure (Option AuditReport) → Response
  | .ok (some r) => .success r.toJson
  | .ok none => .error 404 "Audit not found"
  | .error e => responseTo e

private theorem reportFound_alike {x x' : Except Failure (Option AuditReport)}
    (given : x.map (·.map AuditReport.wordless) = x'.map (·.map AuditReport.wordless)) :
    reportFound x = reportFound x' ∨ DifferInWords (reportFound x) (reportFound x') := by
  rcases x with e | _ | r <;> rcases x' with e' | _ | r' <;>
    simp only [Except.map, Option.map_none, Option.map_some, Except.ok.injEq, Except.error.injEq,
      Option.some.injEq, reduceCtorEq] at given
  · exact .inl (congrArg responseTo given)
  · exact .inl rfl
  · exact .inr (.report given)

private theorem report_alike (states : s.Alike s') (id : List Char) :
    report id s = report id s' ∨ DifferInWords (report id s) (report id s') := by
  unfold report
  cases textOfBytes? (percentDecode id) with
  | none => exact .inl rfl
  | some id => exact reportFound_alike (states.store.get id)

private theorem look_alike (states : s.Alike s') (resource : Resource) (query : List Char) :
    look resource query s = look resource query s' ∨
      DifferInWords (look resource query s) (look resource query s') := by
  cases resource with
  | health => exact .inl rfl
  | audits => exact listing_alike states query
  | addressAudits => exact .inl rfl
  | audit id => exact report_alike states id

private theorem status_look (states : s.Alike s') (resource : Resource) (query : List Char) :
    (look resource query s).status = (look resource query s').status := by
  rcases look_alike states resource query with same | differ
  · rw [same]
  · generalize look resource query s = response at differ
    generalize look resource query s' = response' at differ
    cases differ <;> rfl

private theorem handleOn_alike (panels : a.panel.wordless = panel'.wordless) (states : s.Alike s')
    (o : Occasion) (r : Request) (resource : Resource) (query : List Char) :
    Exchange.Alike ⟨r, (handleOn a o r resource query s).1⟩
        ⟨r, (handleOn { a with panel := panel' } o r resource query s').1⟩ ∧
      (handleOn a o r resource query s).2.Alike
        (handleOn { a with panel := panel' } o r resource query s').2 := by
  have status := status_look states resource query
  unfold handleOn
  split
  · obtain ⟨response, after⟩ := auditSource_alike panels states o r
    exact ⟨⟨rfl, .inl response⟩, after⟩
  · obtain ⟨response, after⟩ := auditAddress_alike panels states o r
    exact ⟨⟨rfl, .inl response⟩, after⟩
  · next get =>
    refine ⟨⟨rfl, ?_⟩, states⟩
    rcases look_alike states _ query with same | differ
    · exact .inl (congrArg some same)
    · exact .inr ⟨get, _, _, rfl, rfl, differ⟩
  · refine ⟨⟨rfl, .inl ?_⟩, states⟩
    dsimp only
    rw [status]
  · exact ⟨⟨rfl, .inl rfl⟩, states⟩

private theorem handle_alike (panels : a.panel.wordless = panel'.wordless) (states : s.Alike s')
    (o : Occasion) (r : Request) :
    Exchange.Alike ⟨r, (handle a o r s).1⟩ ⟨r, (handle { a with panel := panel' } o r s').1⟩ ∧
      (handle a o r s).2.Alike (handle { a with panel := panel' } o r s').2 := by
  unfold handle
  dsimp only
  split
  · exact ⟨⟨rfl, .inl rfl⟩, states⟩
  · split
    · exact ⟨⟨rfl, .inl rfl⟩, states⟩
    · exact handleOn_alike panels states o r _ _

private theorem serve_alike (panels : a.panel.wordless = panel'.wordless) (states : s.Alike s')
    (requests : List (Occasion × Request)) :
    List.Forall₂ Exchange.Alike (serve a s requests)
      (serve { a with panel := panel' } s' requests) := by
  induction requests generalizing s s' with
  | nil => exact .nil
  | cons next rest ih =>
    obtain ⟨o, r⟩ := next
    obtain ⟨exchange, after⟩ := handle_alike panels states o r
    exact .cons exchange (ih after)

/-- Two servers that start with nothing, whose reviewers differ only in the words in which they
fail, answer the same to the same requests at the same times under the same ids, except that the
words are shown in what is stored of audits that failed. -/
theorem serve_initial_alike (a : Auditor) (panel' : Panel)
    (panels : a.panel.wordless = panel'.wordless)
    (requests : List (Occasion × Request)) :
    List.Forall₂ Exchange.Alike (serve a (.initial a.settings) requests)
      (serve { a with panel := panel' } (.initial a.settings) requests) := by
  have start : (AuditorState.initial a.settings).Alike (.initial a.settings) :=
    ⟨rfl, rfl, rfl, .nil⟩
  exact serve_alike panels start requests

open Auditor
  (IsRefused cachedView? failedReport get_auditSource_failed prepare_cases prepare_ok runSource
    runSource_silent sessionBrief sessionResults sessionResults_of_session? session?_eq_run)

/-- An engine with a store whose reviewers refuse at once for want of a key, in the given words. -/
def keyless (words : String) : Auditor :=
  { settings := { Settings.standard with cacheTtl := none }
    book := ⟨none, 100⟩
    panel := ⟨fun _ _ _ => .refusal 0 ⟨.authentication, words⟩, fun _ _ => .zero⟩
    fetcher := none
    sinks := [.store] }

def emptyContract : String := "contract A \x7b\x7d"

/-- Options under which the security reviewer alone is asked. -/
def onlySecurity : AuditOptions := ⟨none, .fast, some ["security"]⟩

/-- A request for an audit of the source with these options. -/
def auditRequest : Request :=
  ⟨"POST", "/api/audits", true,
    "\x7b\"contractCode\":\"contract A \x7b\x7d\",\"options\":\x7b\"agents\":[\"security\"]\x7d\x7d"⟩

/-- An audit of the source with these options, and a look at its report. -/
def auditThenLook : List (Occasion × Request) :=
  [(⟨"1", ⟨0, 0⟩⟩, auditRequest), (⟨"2", ⟨0, 0⟩⟩, ⟨"GET", "/api/audits/1", false, ""⟩)]

theorem serve_initial_alike_keyless :
    (keyless "key sk-1 refused").panel.wordless = (keyless "key sk-2 refused").panel.wordless ∧
      List.Forall₂ Exchange.Alike
        (serve (keyless "key sk-1 refused") (.initial (keyless "key sk-1 refused").settings)
          auditThenLook)
        (serve (keyless "key sk-2 refused") (.initial (keyless "key sk-2 refused").settings)
          auditThenLook) :=
  ⟨rfl, serve_initial_alike (keyless "key sk-1 refused") (keyless "key sk-2 refused").panel rfl
    auditThenLook⟩

/-- What is recorded of a reviewer that refuses for want of a key. -/
def keylessResult (words : String) (time : Instant) : ReviewResult :=
  .failed .security
    (String.ofList (Text.truncateError (Failure.message ⟨.authentication, words⟩).toList)) 0 time

private theorem isAccepted_keyless (words : String) :
    ¬IsRefused (keyless words).settings emptyContract := by
  have blank : Text.isAllBlank emptyContract.toList = false := rfl
  have declares : Source.hasDeclaration emptyContract.toList = true := rfl
  have short : ¬(keyless "").settings.maxSourceBytes < emptyContract.utf8ByteSize := by decide
  rintro (refused | long | undeclared)
  · rw [blank] at refused
    cases refused
  · exact short long
  · rw [declares] at undeclared
    cases undeclared

theorem exists_prepare_emptyContract (words : String) : ∃ p,
    Auditor.prepare (keyless words).settings emptyContract onlySecurity = .ok p ∧
      p.reviewers = [.security] ∧
      p.analysis.findings = [] ∧
        p.analysis.contractInfo = ⟨"A", ["A"], 0, 0, 0, 0, 0, 1, 1, none⟩ := by
  rcases prepare_cases (keyless words).settings emptyContract onlySecurity with ⟨refused, -⟩ |
    ⟨-, p, prepared⟩
  · exact absurd refused (isAccepted_keyless words)
  obtain ⟨-, analysed, -, reviewers, -⟩ := prepare_ok prepared
  have outline : (Source.analyze emptyContract.toList).toOption.map
    (fun a => (a.findings.isEmpty, a.contractInfo)) =
      some (true, ⟨"A", ["A"], 0, 0, 0, 0, 0, 1, 1, none⟩) := rfl
  rw [analysed] at outline
  obtain ⟨quiet, info⟩ := Prod.mk.inj (Option.some.inj outline)
  have named : (onlySecurity.agents.getD []).filterMap Reviewer.parse? = [.security] := rfl
  rw [Review.selectPanel, Review.requestedPanel, named, List.mergeSort_singleton] at reviewers
  exact ⟨p, prepared, reviewers, List.isEmpty_iff.mp quiet, info⟩

private theorem sessionResults_keyless (words : String) {o : Occasion}
    (timely : Clock.CanHold o.millis (keyless words).settings.globalTimeout) :
    sessionResults (keyless words) o emptyContract onlySecurity .none =
      [keylessResult words o.time] := by
  obtain ⟨p, prepared, chosen, -⟩ := exists_prepare_emptyContract words
  rw [sessionResults_of_session? (session?_eq_run prepared timely _), chosen]
  refine Session.run_results_singleton ?_
  rw [Session.ownResult?_eq List.count_singleton_self]
  rfl

private theorem runSource_keyless (words : String) {o : Occasion}
    (timely : Clock.CanHold o.millis (keyless words).settings.globalTimeout) :
    (runSource (keyless words) o emptyContract onlySecurity (.initial (keyless words).settings)).1 =
      .error (Consensus.noneSucceeded [keylessResult words o.time]) := by
  have results : sessionResults (keyless words) o emptyContract onlySecurity
      (AuditorState.initial (keyless words).settings).made = [keylessResult words o.time] :=
    sessionResults_keyless words timely
  have order : Consensus.inPanelOrder [keylessResult words o.time] = [keylessResult words o.time] :=
    List.mergeSort_singleton _
  have silent : Consensus.reviewsOf [keylessResult words o.time] = [] := by
    rw [Consensus.reviewsOf, order]
    rfl
  have missed : cachedView? (keyless words) o emptyContract onlySecurity
      (.initial (keyless words).settings) = none :=
    Auditor.cachedView?_of_cache_eq_none rfl
  have failed := runSource_silent (isAccepted_keyless words) missed timely
    (by rw [results, silent])
  rwa [results, order] at failed

theorem accept_auditRequest :
    accept sourceShape SourceRequest.ofJson? auditRequest = .ok ⟨emptyContract, onlySecurity⟩ := by
  have short : ¬bodyLimit < auditRequest.body.utf8ByteSize := by decide
  have shape : sourceShape auditRequest.body.toList =
      .ok (.ofMembers [("options", .ofMembers [("agents", .strings ["security"])]),
        ("contractCode", .string emptyContract)], []) := rfl
  have options : AuditOptions.ofJson? (.ofMembers [("agents", .strings ["security"])]) =
      some onlySecurity := by
    rw [AuditOptions.ofJson?, Json.slots?_ofMembers (by decide)]
    rfl
  have request :
    SourceRequest.ofJson? (.ofMembers [("options", .ofMembers [("agents", .strings ["security"])]),
      ("contractCode", .string emptyContract)]) = some ⟨emptyContract, onlySecurity⟩ := by
    rw [SourceRequest.ofJson?, Json.slots?_ofMembers (by decide)]
    change (AuditOptions.ofJson? (.ofMembers [("agents", .strings ["security"])])).bind
      (fun options => some (SourceRequest.mk emptyContract options)) = _
    rw [options, Option.bind_some]
  have read : requestIn sourceShape SourceRequest.ofJson? auditRequest.body =
      .ok ⟨emptyContract, onlySecurity⟩ := by
    simp only [requestIn, shape, bind, Except.bind, request]
  have declared : auditRequest.isJson = true := rfl
  simp only [accept, declared, Bool.not_true, Bool.false_eq_true, if_false, if_neg short, read]

theorem percentDecode_one : textOfBytes? (percentDecode "1".toList) = some "1" := by
  decide +kernel

private theorem serve_keyless (words : String) :
    (serve (keyless words) (.initial (keyless words).settings) auditThenLook)[1]?.bind
      (·.response) = some (.success
        (failedReport ⟨"1", ⟨0, 0⟩⟩ (Consensus.noneSucceeded [keylessResult words ⟨0, 0⟩]) none
          none).toJson) := by
  have dated : Instant.ofText? (⟨0, 0⟩ : Instant).toText = some ⟨0, 0⟩ := rfl
  have timely : Clock.CanHold (⟨0, 0⟩ : Instant).millis (keyless "").settings.globalTimeout := by
    decide
  have stored := get_auditSource_failed (a := keyless words) List.mem_cons_self
    (runSource_keyless words (o := ⟨"1", ⟨0, 0⟩⟩) timely) dated
  have audited :
    (handle (keyless words) ⟨"1", ⟨0, 0⟩⟩ auditRequest (.initial (keyless words).settings)).2 =
      ((keyless words).auditSource ⟨"1", ⟨0, 0⟩⟩ emptyContract onlySecurity
        (.initial (keyless words).settings)).2 := by
    change (auditSource (keyless words) ⟨"1", ⟨0, 0⟩⟩ auditRequest
      (.initial (keyless words).settings)).2 = _
    rw [auditSource, accept_auditRequest]
  have looked (s : AuditorState) :
    (handle (keyless words) ⟨"2", ⟨0, 0⟩⟩ ⟨"GET", "/api/audits/1", false, ""⟩ s).1 =
      some (report "1".toList s) := rfl
  change (handle (keyless words) ⟨"2", ⟨0, 0⟩⟩ ⟨"GET", "/api/audits/1", false, ""⟩
    (handle (keyless words) ⟨"1", ⟨0, 0⟩⟩ auditRequest (.initial (keyless words).settings)).2).1 = _
  rw [looked, audited]
  unfold report
  rw [percentDecode_one]
  dsimp only
  rw [stored]
  rfl

/-- The words of a refusal come back to a client that looks at the report of the audit that
failed. -/
theorem serve_shows_words :
    (keyless "key sk-1 refused").panel.wordless = (keyless "key sk-2 refused").panel.wordless ∧
      serve (keyless "key sk-1 refused") (.initial (keyless "key sk-1 refused").settings)
        auditThenLook ≠
        serve (keyless "key sk-2 refused") (.initial (keyless "key sk-2 refused").settings)
          auditThenLook := by
  refine ⟨rfl, fun same => ?_⟩
  have shown := congrArg (fun exchanges => exchanges[1]?.bind (·.response)) same
  rw [serve_keyless, serve_keyless] at shown
  have records := congrArg (fun response => response.bind (·.body)) shown
  have errors := AuditReport.error_eq_of_toJson_eq (Option.some.inj records)
  exact absurd errors (by decide)

end AuditPanel.Server
