import AuditPanel.Audit.Settings
import AuditPanel.Server.Body

/-!
What clients ask of the server: audits of sources and of addresses, and listings.
-/

set_option autoImplicit false

namespace AuditPanel.Server

/-- The chain of an address when none is named. -/
def defaultChain : String := "ethereum"

/-- A request to audit a source. -/
structure SourceRequest where
  source : String
  options : AuditOptions
  deriving Repr, DecidableEq, Inhabited

namespace SourceRequest

def ofJson? (v : Json) : Option SourceRequest := do
  match ← v.slots? ["contractCode", "options"] with
  | [s1, s2] =>
    some
      { source := ← s1.required? Json.asString?
        options := ← s2.orDefault? .standard AuditOptions.ofJson? }
  | _ => none

end SourceRequest

/-- A request to audit an address. -/
structure AddressRequest where
  address : String
  chain : Option String
  options : AuditOptions
  deriving Repr, DecidableEq, Inhabited

namespace AddressRequest

def ofJson? (v : Json) : Option AddressRequest := do
  match ← v.slots? ["address", "chain", "options"] with
  | [s1, s2, s3] =>
    some
      { address := ← s1.required? Json.asString?
        chain := ← s2.optional? Json.asString?
        options := ← s3.orDefault? .standard AuditOptions.ofJson? }
  | _ => none

/-- The chain that a request means: its own one, or that of its options, or the usual one. -/
def effectiveChain (r : AddressRequest) : String :=
  (r.chain.orElse fun _ => r.options.chain).getD defaultChain

end AddressRequest

def defaultListLimit : Nat := 20

def maxListLimit : Nat := 200

/-- A request for a listing. -/
structure ListRequest where
  limit : Option Nat
  deriving Repr, DecidableEq, Inhabited

namespace ListRequest

def ofJson? (v : Json) : Option ListRequest := do
  match ← v.slots? ["limit"] with
  | [s1] => some { limit := ← s1.optional? Json.asNat? }
  | _ => none

/-- The number of audits that a listing shows, from one to the most. -/
def effectiveLimit (r : ListRequest) : Nat :=
  max 1 (min (r.limit.getD defaultListLimit) maxListLimit)

end ListRequest

def optionsShape : ShapeReader :=
  recordShape [
    ⟨"chain", .defaulted, optionShape textShape⟩,
    ⟨"analysisMode", .defaulted, wordShape [AnalysisMode.fast.name, AnalysisMode.deep.name]⟩,
    ⟨"agents", .defaulted, optionShape (listShape textShape)⟩]

def sourceShape : ShapeReader :=
  recordShape [⟨"contractCode", .required, textShape⟩, ⟨"options", .defaulted, optionsShape⟩]

def addressShape : ShapeReader :=
  recordShape [⟨"address", .required, textShape⟩, ⟨"chain", .optional, optionShape textShape⟩,
    ⟨"options", .defaulted, optionsShape⟩]

def requestIn {α : Type} (shape : ShapeReader) (ofJson? : Json → Option α) (body : String) :
    Except BodyFault α := do
  let (v, _) ← shape body.toList
  match ofJson? v with
  | some request => .ok request
  | none => .error .mismatched

end AuditPanel.Server
