import AuditPanel.Audit.Settings
import AuditPanel.Digest
import AuditPanel.Text.LowerCase
import AuditPanel.Time.Instant

/-!
A cache of the panel's views: entries live for a fixed time and are never replaced while they live.
Times are in milliseconds.
-/

set_option autoImplicit false

namespace AuditPanel

/-- A cached value with its key and the end of its life. -/
structure CacheEntry (α : Type) where
  key : String
  value : α
  expiry : Nat
  deriving Inhabited

/-- A cache whose entries live for `lifetime`; no two entries have the same key. -/
structure Cache (α : Type) where
  lifetime : Nat
  entries : List (CacheEntry α)
  deriving Inhabited

namespace Cache

variable {α : Type}

def empty (lifetime : Nat) : Cache α :=
  ⟨lifetime, []⟩

def size (c : Cache α) : Nat :=
  c.entries.length

def isEmpty (c : Cache α) : Bool :=
  c.entries.isEmpty

def get? (c : Cache α) (now : Nat) (key : String) : Option α :=
  (c.entries.find? fun e => e.key == key && now < e.expiry).map (·.value)

/-- The cache after a look at a key: if no living value is found there, a dead one goes. -/
def afterGet (c : Cache α) (now : Nat) (key : String) : Cache α :=
  match c.get? now key with
  | some _ => c
  | none => { c with entries := c.entries.filter fun e => e.key != key || now < e.expiry }

def purge (c : Cache α) (now : Nat) : Cache α :=
  { c with entries := c.entries.filter fun e => now < e.expiry }

/-- The cache with dead entries gone and a value under a key, unless a value lives there already. -/
def put (c : Cache α) (now : Nat) (key : String) (value : α) : Cache α :=
  let c := c.purge now
  if c.entries.any (·.key == key) then c
  else { c with entries := ⟨key, value, now + c.lifetime⟩ :: c.entries }

/-- The cache after a value was put under a key, and whether that went well: when the clock cannot
hold the end of its life, dead entries go, and then it crashes. -/
def tryPut (c : Cache α) (now : Nat) (key : String) (value : α) : Bool × Cache α :=
  if Clock.CanHold now c.lifetime then (true, c.put now key value) else (false, c.purge now)

end Cache

/-- What decides about the answers of a panel, in one text: the source, the reviewers, the mode and
the chain in lower case for ASCII letters, each part ended by a null character, with a mark in front
of a chain that is given. -/
def analysisKeyText (source : String) (reviewers : List Reviewer) (mode : AnalysisMode)
    (chain : Option String) :
    String :=
  let names := String.join (reviewers.map fun r => r.name ++ ",")
  let tail := match chain with
    | some name => "\x01" ++ String.ofList (Text.toAsciiLower name.toList)
    | none => ""
  source ++ "\x00" ++ names ++ "\x00" ++ mode.name ++ "\x00" ++ tail

def analysisKey (source : String) (reviewers : List Reviewer) (mode : AnalysisMode)
    (chain : Option String) :
    String :=
  Digest.hex (analysisKeyText source reviewers mode chain).toUTF8

end AuditPanel
