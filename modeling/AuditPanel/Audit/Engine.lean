import AuditPanel.Audit.Cache
import AuditPanel.Bytecode
import AuditPanel.Chain.Basic
import AuditPanel.Consensus.Aggregate
import AuditPanel.Panel.Session
import AuditPanel.Report.Log
import AuditPanel.Review.Selection
import AuditPanel.Source.Analysis

/-!
The audit engine: validation, static analysis, the panel's session, consensus and the report. Every
audit that starts leaves one report in the log, whether it succeeds or fails.
-/

set_option autoImplicit false

namespace AuditPanel

open Consensus (Aggregate)

/-- What an engine works with. Reports go to the sinks; without a fetcher only sources can be
audited. -/
structure Auditor where
  settings : Settings
  book : Prompt.Book
  panel : Panel
  fetcher : Option (String → String → Except Failure FetchedContract)
  sinks : List Sink

/-- What an engine keeps between audits: cached views, how many requests and fetches were made, and
the log. -/
structure AuditorState where
  cache : Option (Cache Aggregate)
  made : Requests
  fetches : Nat
  records : Records

/-- One audit among others: its id and the instant at which it starts. -/
structure Occasion where
  auditId : String
  time : Instant
  deriving Repr, DecidableEq, Inhabited

namespace Occasion

def millis (o : Occasion) : Nat :=
  o.time.millis

end Occasion

namespace AuditorState

def initial (settings : Settings) : AuditorState :=
  ⟨settings.cacheTtl.map .empty, .none, 0, .empty⟩

end AuditorState

namespace Auditor

def bytecodeOnlyScore : Float := 60.0

def invalid (detail : String) : Failure :=
  ⟨.invalidInput, detail⟩

def tooLong (size limit : Nat) : Failure :=
  invalid s!"Contract source is {size} bytes, limit is {limit}"

def validate (settings : Settings) (source : String) : Except Failure Unit :=
  let text := source.toList
  if Text.isAllBlank text then .error (invalid "Contract source is empty")
  else if settings.maxSourceBytes < source.utf8ByteSize then
    .error (tooLong source.utf8ByteSize settings.maxSourceBytes)
  else if !Source.hasDeclaration text then .error
    (invalid "No contract, interface or library declaration found")
  else .ok ()

/-- The findings of a report: those that the panel kept, and all static ones. Static findings under
the confidence floor come with the scores that the panel gave them. -/
def finalFindings (a : Aggregate) (staticFindings : List Finding) : List Finding :=
  Consensus.sortFindings <|
    (Consensus.mergeFindings
      (a.findings ++ a.lowConfidence.filter Finding.isStatic ++ staticFindings)).map (·.2)

/-- What is known about a source before the panel sits. -/
structure Preparation where
  analysis : Source.Analysis
  characteristics : Source.Characteristics
  reviewers : List Reviewer
  key : String

def prepare (settings : Settings) (source : String) (options : AuditOptions) :
    Except Failure Preparation := do
  validate settings source
  let text := source.toList
  let analysis ← Source.analyze text
  let characteristics := analysis.characteristics text
  let reviewers := Review.selectPanel characteristics options.agents settings.maxConcurrentAgents
  .ok ⟨analysis, characteristics, reviewers, analysisKey source reviewers options.mode
    options.chain⟩

def sessionBrief (a : Auditor) (source : String) (options : AuditOptions) (p : Preparation)
    (time : Instant) :
    Session.Brief :=
  { settings := a.settings
    book := a.book
    mode := options.mode
    context :=
      { source := source
        contractInfo := p.analysis.contractInfo
        staticFindings := p.analysis.findings
        chain := options.chain
        analysisMode := options.mode.name }
    timestamp := time }

/-- The cache with the view of a panel of which every reviewer gave a report, and whether the clock
could hold the end of its life. -/
def remember (cache : Option (Cache Aggregate)) (now : Nat) (key : String) (view : Aggregate) :
    Bool × Option (Cache Aggregate) :=
  match cache with
  | some c =>
    if view.failed.isEmpty then
      let (stored, c) := c.tryPut now key view
      (stored, some c)
    else (true, some c)
  | none => (true, none)

/-- The state after a session, and the panel's view as it is made of the session's results. -/
def conclude (a : Auditor) (o : Occasion) (p : Preparation) (session : Session.Outcome)
    (s : AuditorState) : Ending (Aggregate × Nat) × AuditorState :=
  let s := { s with made := session.made }
  match Consensus.aggregate session.results p.analysis.findings p.characteristics
    a.settings.scoring with
  | .error e => (.error e, s)
  | .ok view =>
    match remember s.cache (o.millis + session.elapsed) p.key view with
    | (true, cache) => (.ok (view, session.elapsed), { s with cache := cache })
    | (false, cache) => (.crashed, { s with cache := cache })

/-- The panel's view of a prepared source, from the cache or from a session, and the time that it
took. -/
def consult (a : Auditor) (o : Occasion) (source : String) (options : AuditOptions)
    (p : Preparation) (s : AuditorState) : Ending (Aggregate × Nat) × AuditorState :=
  match s.cache.bind fun c => c.get? o.millis p.key with
  | some view => (.ok (view, 0), s)
  | none =>
    let s := { s with cache := s.cache.map fun c => c.afterGet o.millis p.key }
    match Session.hold (sessionBrief a source options p o.time) a.panel s.made p.reviewers with
    | none => (.crashed, s)
    | some session => conclude a o p session s

def completedReport (settings : Settings) (o : Occasion) (options : AuditOptions) (p : Preparation)
    (view : Aggregate) (elapsed : Nat) : AuditReport :=
  let findings := finalFindings view p.analysis.findings
  let score := Consensus.reportScore findings settings.scoring.penalties
  { auditId := o.auditId
    status := .completed
    contractInfo := p.analysis.contractInfo
    findings := findings
    overallScore := score
    riskLevel := Consensus.riskLevel score findings settings.scoring.thresholds
    confidenceScore := view.confidenceScore
    counts := .ofFindings findings
    summary := view.summary
    recommendations := view.recommendations
    gasOptimizations := view.gasOptimizations
    codeQuality := view.codeQuality
    contributions := view.contributions
    staticFindingCount := p.analysis.findings.length
    chain := options.chain
    address := none
    error := none
    executionTime := elapsed
    timestamp := o.time }

/-- The audit of a source without the log. -/
def runSource (a : Auditor) (o : Occasion) (source : String) (options : AuditOptions)
    (s : AuditorState) : Ending AuditReport × AuditorState :=
  match prepare a.settings source options with
  | .error e => (.error e, s)
  | .ok p =>
    let (taken, s) := consult a o source options p s
    (taken.map fun (view, elapsed) => completedReport a.settings o options p view elapsed, s)

def badAddress (address : String) : Failure :=
  invalid ("'" ++ address ++ "' is not a valid address (expected 0x followed by 40 hex digits)")

def adviceOn (f : Bytecode.Flagged) : String :=
  s!"Review {f.opcode} usage ({f.count} occurrence(s)): {f.risk}"

/-- The report of a contract without source: its bytecode is scanned, and no reviewer is asked. -/
def bytecodeReport (o : Occasion) (address : String) (fetched : FetchedContract) :
    Except Failure AuditReport := do
  let scan ← Bytecode.scan fetched.bytecode
  if scan.isEmpty then .error (invalid ("No contract code deployed at " ++ address))
  else
    let flags := scan.flagged.length
    let summary :=
      s!"Source code is not available. Bytecode-only scan of {scan.codeSize} bytes flagged "
      ++ s!"{flags} opcode type(s). Balance: {fetched.balance} wei, "
      ++ s!"transactions: {fetched.txCount}."
    .ok
      { AuditReport.bare o.auditId .bytecodeOnly bytecodeOnlyScore .medium o.time with
        contractInfo :=
          { ContractInfo.empty with name := address, bytecodeSize := some scan.codeSize }
        summary := summary
        recommendations :=
          "Verify the contract source on a block explorer to enable a full multi-agent audit"
            :: scan.flagged.map adviceOn }

def codeSize? (bytecode : String) : Option Nat :=
  match Bytecode.scan bytecode with
  | .ok scan => some scan.codeSize
  | .error _ => none

def runFetched (a : Auditor) (o : Occasion) (address chain : String) (options : AuditOptions)
    (fetched : FetchedContract) (s : AuditorState) : Ending AuditReport × AuditorState :=
  let place (r : AuditReport) : AuditReport :=
    { r with chain := some chain, address := some address }
  match fetched.source with
  | none => ((Ending.ofExcept (bytecodeReport o address fetched)).map place, s)
  | some source =>
    let (outcome, s) := runSource a o source { options with chain := some chain } s
    let sized (r : AuditReport) : AuditReport :=
      { r with contractInfo := { r.contractInfo with bytecodeSize := codeSize? fetched.bytecode } }
    (outcome.map fun r => place (sized r), s)

def runAddress (a : Auditor) (o : Occasion) (address chain : String) (options : AuditOptions)
    (s : AuditorState) : Ending AuditReport × AuditorState :=
  if !isValidAddress address then (.error (badAddress address), s)
  else
    match a.fetcher with
    | none => (.error ⟨.config, "No contract fetcher configured"⟩, s)
    | some fetch =>
      let s := { s with fetches := s.fetches + 1 }
      match fetch address chain with
      | .error e => (.error e, s)
      | .ok fetched => runFetched a o address chain options fetched s

def failedReport (o : Occasion) (e : Failure) (chain address : Option String) : AuditReport :=
  { AuditReport.failed o.auditId e.message 0 o.time with chain := chain, address := address }

/-- The state after a report was handed to the log. Failing sinks do not touch the audit. -/
def record (a : Auditor) (o : Occasion) (r : AuditReport) (s : AuditorState) : AuditorState :=
  { s with records := (Sink.handOver r o.time s.records a.sinks).2 }

/-- The end of an audit: its report goes to the log, or the report of its failure. A crash leaves
the log alone. -/
def finish (a : Auditor) (o : Occasion) (chain address : Option String)
    (run : Ending AuditReport × AuditorState) : Ending AuditReport × AuditorState :=
  match run with
  | (.ok r, s) => (.ok r, record a o r s)
  | (.error e, s) => (.error e, record a o (failedReport o e chain address) s)
  | (.crashed, s) => (.crashed, s)

def auditSource (a : Auditor) (o : Occasion) (source : String) (options : AuditOptions)
    (s : AuditorState) : Ending AuditReport × AuditorState :=
  finish a o options.chain none (runSource a o source options s)

/-- The audit of a deployed contract: of its source where it is known, of its bytecode elsewhere. -/
def auditAddress (a : Auditor) (o : Occasion) (address chain : String) (options : AuditOptions)
    (s : AuditorState) : Ending AuditReport × AuditorState :=
  finish a o (some chain) (some address) (runAddress a o address chain options s)

end Auditor

end AuditPanel
