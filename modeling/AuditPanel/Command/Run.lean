import AuditPanel.Audit.Engine
import AuditPanel.Backend.Reviewers
import AuditPanel.Chain.Fetcher
import AuditPanel.Command.Line
import AuditPanel.Config.Reader
import AuditPanel.Report.Outline

/-!
What commands do: they read the configuration, wire an engine from it, and print a report or end
with a failure.
-/

set_option autoImplicit false

namespace AuditPanel

/-- What a command runs in: the files below the working directory, the environment, the way to
remote services, the id and the start of its audit, and where it can listen. -/
structure Surroundings where
  files : Directory
  environment : Config.Environment
  transport : Http.Transport
  occasion : Occasion
  canListen : String → Bool

/-- How a command ended: what it prints, its failure or a crash, and the text that goes to the end
of the audit trail if there is one. -/
structure CommandResult where
  outcome : Ending String
  trail : Option (String × String)

namespace CommandResult

/-- The exit status of a program that crashed. -/
def crashCode : Nat := 101

def exitCode (r : CommandResult) : Nat :=
  match r.outcome with
  | .ok _ => 0
  | .error e => e.kind.exitCode
  | .crashed => crashCode

/-- A command that ended before it had a trail. -/
def early (e : Failure) : CommandResult :=
  ⟨.error e, none⟩

end CommandResult

namespace Command

def fileFailure (detail : String) : Failure :=
  ⟨.io, detail⟩

/-- The configuration of a command line: that of its file, or one that says nothing. -/
def configOf (w : Surroundings) : Option String → Except Failure Config
  | some path => Config.ofFile w.files path
  | none => .ok .empty

def modeOf (word : String) : Except Failure AnalysisMode :=
  match AnalysisMode.parse word with
  | .ok mode => .ok mode
  | .error message => .error ⟨.invalidInput, message⟩

/-- The path of the audit trail of a configuration, which it has to be possible to open. -/
def trailOf (w : Surroundings) (c : Config) : Except Failure (Option String) :=
  match c.storage.bind (·.auditLog) with
  | none => .ok none
  | some path =>
    if (w.files.place? path.toList).isSome then .ok (some path)
      else .error (fileFailure ("cannot open " ++ path))

/-- An engine and the path of its audit trail. -/
structure Wiring where
  auditor : Auditor
  trail : Option String

/-- The engine of a configuration, with sinks in front of the trail. -/
def wire (w : Surroundings) (c : Config) (asked : BackendSection) (sinks : List Sink) :
    Except Failure Wiring := do
  let provider ← Backend.Provider.configured w.environment
    (c.llm.getD ⟨none, none, none, none⟩) asked
  let settings ← c.settings
  let trail ← trailOf w c
  .ok
    { auditor :=
        { settings := settings
          book := ⟨settings.promptsDir.map w.files.sub, settings.maxPromptSourceChars⟩
          panel := provider.panel w.transport
          fetcher := some (chainFetcher (c.chainEndpoints w.environment) w.transport)
          sinks := sinks ++ trail.toList.map fun _ => .trail }
      trail := trail }

/-- A report as it is printed: its record, or its outline. -/
def printed (isJson : Bool) (r : AuditReport) : String :=
  if isJson then r.toJson.indented ++ "\n" else String.join (r.outline.map (· ++ "\n"))

def reported (isJson : Bool) (trail : Option String) (run : Ending AuditReport × AuditorState) :
    CommandResult :=
  ⟨run.1.map (printed isJson), trail.map fun path => (path, run.2.records.trail)⟩

def sourceOf (w : Surroundings) (path : String) : Except Failure String :=
  match w.files.read? path.toList with
  | some source => .ok source
  | none => .error (fileFailure ("cannot read " ++ path))

def runAudit (w : Surroundings) (config : Option String) (a : AuditCommand) : CommandResult :=
  let prepared : Except Failure (Wiring × String × AuditOptions) := do
    let c ← configOf w config
    let source ← sourceOf w a.file
    let mode ← modeOf a.mode
    let wiring ← wire w c a.backend []
    .ok (wiring, source, ⟨a.chain, mode, a.agents⟩)
  match prepared with
  | .error e => .early e
  | .ok (wiring, source, options) =>
    reported a.isJson wiring.trail
      (wiring.auditor.auditSource w.occasion source options (.initial wiring.auditor.settings))

def runAddress (w : Surroundings) (config : Option String) (a : AddressCommand) : CommandResult :=
  let prepared : Except Failure (Wiring × AuditOptions) := do
    let c ← configOf w config
    let mode ← modeOf a.mode
    let wiring ← wire w c a.backend []
    .ok (wiring, ⟨some a.chain, mode, none⟩)
  match prepared with
  | .error e => .early e
  | .ok (wiring, options) =>
    reported a.isJson wiring.trail
      (wiring.auditor.auditAddress w.occasion a.address a.chain options
        (.initial wiring.auditor.settings))

def storeMark : String := "SQLite format 3"

/-- Opening the store at a path: it is made with the directories above it, an empty file is a new
store, and other files have to be one already. -/
def openStore (files : Directory) (path : String) : Except Failure Unit :=
  let p := path.toList
  if path.isEmpty || path == ":memory:" then .ok ()
  else if files.hasDirectory p then
    .error ⟨.database, "Failed to open database: unable to open database file: " ++ path⟩
  else if (files.place? p).isNone then .error
    (fileFailure ("cannot make the directories of " ++ path))
  else
    match files.read? p with
    | some content =>
      if content.isEmpty || storeMark.toList.isPrefixOf content.toList then .ok ()
      else .error ⟨.database, "Failed to enable WAL: file is not a database"⟩
    | none => .ok ()

def usualHost : String := "0.0.0.0"

/-- The port of the service where none is asked for. -/
def usualPort : Nat := 8080

/-- The path of the store where none is asked for. -/
def usualStore : String := "./data/chainaudit.db"

def storePath (s : ServeCommand) (c : Config) : String :=
  let database := s.database.orElse fun _ => c.storage.bind (·.database)
  database.getD usualStore

def listenAddress (s : ServeCommand) (c : Config) : String :=
  let host := s.host.orElse fun _ => c.server.bind (·.host)
  let port := s.port.orElse fun _ => c.server.bind (·.port)
  host.getD usualHost ++ ":" ++ toString (port.getD usualPort)

def runServe (w : Surroundings) (config : Option String) (s : ServeCommand) : CommandResult :=
  let prepared : Except Failure (Wiring × String) := do
    let c ← configOf w config
    openStore w.files (storePath s c)
    let wiring ← wire w c s.backend [.store]
    .ok (wiring, listenAddress s c)
  match prepared with
  | .error e => .early e
  | .ok (wiring, place) =>
    let outcome : Ending String :=
      if w.canListen place then .ok "" else .error (fileFailure ("cannot listen on " ++ place))
    ⟨outcome, wiring.trail.map fun path => (path, "")⟩

def runValidate (w : Surroundings) (file : String) : CommandResult :=
  let outcome : Except Failure String := do
    let c ← Config.ofFile w.files file
    let _ ← c.settings
    .ok ("Configuration is valid: " ++ file ++ "\n")
  ⟨.ofExcept outcome, none⟩

end Command

def Command.asked : Command → BackendSection
  | .audit a => a.backend
  | .address a => a.backend
  | .serve s => s.backend
  | .validate _ => ⟨none, none, none, none⟩

namespace CommandLine

/-- The variables of the environment that a command line with a configuration can look up. -/
def variableNames (line : CommandLine) (c : Config) : List String :=
  let keys :=
    [line.command.asked.apiKey, c.llm.bind (·.apiKey)] ++ (c.chains.getD []).map (·.2.explorerKey)
  ["anthropic", "openai"].filterMap Backend.keyVariable? ++
    keys.filterMap (·.bind Config.reference?)

/-- The files that a command line names, apart from those that its configuration names. -/
def files (line : CommandLine) : List String :=
  let source := match line.command with
    | .audit a => [a.file]
    | _ => []
  line.config.toList ++ source

/-- The files that a command line with a configuration names through it. -/
def filesOfConfig (line : CommandLine) (c : Config) : List String :=
  let trail := c.storage.bind (·.auditLog)
  match line.command with
  | .serve s => trail.toList ++ [Command.storePath s c]
  | .validate _ => []
  | _ => trail.toList

end CommandLine

def CommandLine.run (w : Surroundings) (line : CommandLine) : CommandResult :=
  match line.command with
  | .audit a => Command.runAudit w line.config a
  | .address a => Command.runAddress w line.config a
  | .serve s => Command.runServe w line.config s
  | .validate file => Command.runValidate w file

end AuditPanel
