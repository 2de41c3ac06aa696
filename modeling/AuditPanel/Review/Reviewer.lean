import AuditPanel.Finding.Severity

/-!
Reviewers: the specialised roles on the panel.
-/

set_option autoImplicit false

namespace AuditPanel

/-- A specialised reviewer. -/
inductive Reviewer where
  | security
  | quality
  | economics
  | defi
  | crossChain
  | mev
  deriving Repr, DecidableEq, Inhabited

namespace Reviewer

def all : List Reviewer :=
  [.security, .quality, .economics, .defi, .crossChain, .mev]

def name : Reviewer → String
  | .security => "security"
  | .quality => "quality"
  | .economics => "economics"
  | .defi => "defi"
  | .crossChain => "crossChain"
  | .mev => "mev"

/-- The place in reports and in the order of a panel, the lowest first. -/
def priority : Reviewer → Nat
  | .security => 0
  | .defi => 1
  | .mev => 2
  | .crossChain => 3
  | .quality => 4
  | .economics => 5

def fold (s : String) : String :=
  String.ofList (Text.toAsciiLower (s.toList.filter Char.isAlphanum))

/-- The reviewer that a name means, whatever its case and separators. -/
def parse? (s : String) : Option Reviewer :=
  match fold s with
  | "security" => some .security
  | "quality" => some .quality
  | "codequality" => some .quality
  | "economics" => some .economics
  | "economic" => some .economics
  | "tokenomics" => some .economics
  | "defi" => some .defi
  | "crosschain" => some .crossChain
  | "bridge" => some .crossChain
  | "mev" => some .mev
  | _ => none

/-- The share of a reviewer's score in the panel's score when none is configured. -/
def defaultWeight : Reviewer → Float
  | .security => 0.35
  | .defi => 0.25
  | .quality => 0.15
  | .economics => 0.10
  | .crossChain => 0.08
  | .mev => 0.07

def ofName? (s : String) : Option Reviewer :=
  all.find? (·.name = s)

def ofJson? (v : Json) : Option Reviewer :=
  v.asName?.bind ofName?

def toJson (r : Reviewer) : Json :=
  .string r.name

end Reviewer

end AuditPanel
