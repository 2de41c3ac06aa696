import AuditPanel.Audit.Engine
import AuditPanel.Server.Address
import AuditPanel.Server.Request

/-!
The server: requests for audits and for what the store holds. Clients are told what was wrong with
their input, and of other failures only that there was one.
-/

set_option autoImplicit false

namespace AuditPanel.Server

/-- A request: method, path with query, whether the body is declared to be JSON, and the body. -/
structure Request where
  method : String
  target : String
  isJson : Bool
  body : String
  deriving Repr, DecidableEq, Inhabited

/-- A response: status and, where there is one, a JSON body. -/
structure Response where
  status : Nat
  body : Option Json
  deriving Inhabited

namespace Response

def success (v : Json) : Response :=
  ⟨200, some v⟩

def error (status : Nat) (text : String) : Response :=
  ⟨status, some (.ofMembers [("error", .string text)])⟩

def bare (status : Nat) : Response :=
  ⟨status, none⟩

end Response

def genericFailure : String := "Audit analysis failed"

def responseTo (e : Failure) : Response :=
  if e.kind = .invalidInput then .error 400 e.message else .error 500 genericFailure

def refusal : BodyFault → Response
  | .malformed => .bare 400
  | .mismatched => .bare 422

def bodyLimit : Nat := 2 * 1024 * 1024

/-- The request in a body that is declared to be JSON and not too long. -/
def accept {α : Type} (shape : ShapeReader) (ofJson? : Json → Option α) (r : Request) :
    Except Response α :=
  if !r.isJson then .error (.bare 415)
  else if bodyLimit < r.body.utf8ByteSize then .error (.bare 413)
  else
    match requestIn shape ofJson? r.body with
    | .ok a => .ok a
    | .error fault => .error (refusal fault)

/-- The response to an audit as it ended. A crash takes the connection with it, and there is
none. -/
def reportResponse : Ending AuditReport → Option Response
  | .ok report => some (.success report.toJson)
  | .error e => some (responseTo e)
  | .crashed => none

def auditSource (a : Auditor) (o : Occasion) (r : Request) (s : AuditorState) :
    Option Response × AuditorState :=
  match accept sourceShape SourceRequest.ofJson? r with
  | .error response => (some response, s)
  | .ok request =>
    let (outcome, s) := a.auditSource o request.source request.options s
    (reportResponse outcome, s)

def auditAddress (a : Auditor) (o : Occasion) (r : Request) (s : AuditorState) :
    Option Response × AuditorState :=
  match accept addressShape AddressRequest.ofJson? r with
  | .error response => (some response, s)
  | .ok request =>
    let (outcome, s) := a.auditAddress o request.address request.effectiveChain request.options s
    (reportResponse outcome, s)

/-- The request for a listing that a query makes. The limit may be given once. -/
def listRequest? (query : List Char) : Option ListRequest :=
  match (queryPairs query).filter fun p => p.1 = "limit".toUTF8.toList with
  | [] => some ⟨none⟩
  | [(_, value)] => (wordOf? value).map fun n => ⟨some n⟩
  | _ => none

def listing (query : List Char) (s : AuditorState) : Response :=
  match listRequest? query with
  | none => .bare 400
  | some request =>
    let audits := s.records.store.list request.effectiveLimit
    .success
      (.ofMembers [("audits", .array (audits.map AuditSummary.toJson)),
        ("total", .nat audits.length)])

def report (id : List Char) (s : AuditorState) : Response :=
  match textOfBytes? (percentDecode id) with
  | none => .bare 400
  | some id =>
    match s.records.store.get id with
    | .ok (some r) => .success r.toJson
    | .ok none => .error 404 "Audit not found"
    | .error e => responseTo e

def health : Response :=
  .success
    (.ofMembers [("status", .string "healthy"), ("service", .string "chainaudit"),
      ("version", .string "1.0.0")])

/-- What a path names. -/
inductive Resource where
  | health
  | audits
  | addressAudits
  | audit (id : List Char)
  deriving Repr, DecidableEq

def resourceAt? (path : List Char) : Option Resource :=
  match (pathSegments? path).map fun segments => segments.map String.ofList with
  | some ["api", "health"] => some .health
  | some ["api", "audits"] => some .audits
  | some ["api", "audits", "address"] => some .addressAudits
  | some ["api", "audits", id] => if id.isEmpty then none else some (.audit id.toList)
  | _ => none

def look (resource : Resource) (query : List Char) (s : AuditorState) : Response :=
  match resource with
  | .health => health
  | .audits => listing query s
  | .addressAudits => .bare 405
  | .audit id => report id s

def handleOn (a : Auditor) (o : Occasion) (r : Request) (resource : Resource) (query : List Char)
    (s : AuditorState) : Option Response × AuditorState :=
  match r.method, resource with
  | "POST", .audits => auditSource a o r s
  | "POST", .addressAudits => auditAddress a o r s
  | "GET", _ => (some (look resource query s), s)
  | "HEAD", _ => (some { look resource query s with body := none }, s)
  | _, _ => (some (.bare 405), s)

/-- The response to a request, unless it crashes, and the state after it. An audit that it starts
takes the given occasion. -/
def handle (a : Auditor) (o : Occasion) (r : Request) (s : AuditorState) :
    Option Response × AuditorState :=
  let target := r.target.toList.takeWhile (· != '#')
  let path := target.takeWhile (· != '?')
  let query := (target.dropWhile (· != '?')).drop 1
  if r.method = "OPTIONS" then (some (.bare 200), s)
  else
    match resourceAt? path with
    | none => (some (.bare 404), s)
    | some resource => handleOn a o r resource query s

end AuditPanel.Server
