import AuditPanel.Finding.Severity
import AuditPanel.Text.Search

/-!
The table of vulnerability rules. A rule fits a line when one of its signatures occurs there and
none of the signature's excluded words does.
-/

set_option autoImplicit false

namespace AuditPanel.Source

open AuditPanel.Text

/-- A textual sign of a vulnerability on one line. -/
structure Signature where
  occurs : List Char → Bool
  confidence : Confidence
  excluded : List String

/-- A category of vulnerability with its fixed texts and severity. -/
structure Rule where
  category : String
  name : String
  severity : Severity
  description : String
  impact : String
  recommendation : String
  signatures : List Signature

/-- A literal, blanks or none, and a character of a set. -/
def wordThen (word : String) (marks : List Char) (s : List Char) : Bool :=
  match after? word s with
  | some rest =>
    match trimStart rest with
    | c :: _ => marks.contains c
    | [] => false
  | none => false

/-- A call with a braced value option: `.call`, an opening brace, `value` and a colon. -/
def callWithValue (s : List Char) : Bool :=
  match ((after? ".call" s).map trimStart).bind (after? "\x7b") with
  | some rest => wordThen "value" [':'] (trimStart rest)
  | none => false

/-- Whether a word character comes first after blanks. -/
def wordFollows (s : List Char) : Bool :=
  match trimStart s with
  | c :: _ => isWordChar c
  | [] => false

/-- A compound assignment after a word character or a closing bracket, with a word character on its
right. -/
def compoundAssignment (s : List Char) : Bool :=
  match afterChar? (fun c => isWordChar c || c == ']' || c == ')') s with
  | none => false
  | some rest =>
    match trimStart rest with
    | op :: '=' :: tail => (op == '+' || op == '-' || op == '*') && wordFollows tail
    | _ => false

/-- An assignment of a sum or product whose left operand is a word with dots and brackets. -/
def sumAssigned (s : List Char) : Bool :=
  match (after? "=" s).map trimStart with
  | none => false
  | some rest =>
    match afterChar? isWordChar rest with
    | none => false
    | some rest =>
      match trimStart
          (rest.dropWhile fun c => isWordChar c || c == '.' || c == '[' || c == ']') with
      | op :: tail => (op == '+' || op == '*') && wordFollows tail
      | [] => false

/-- Names of privileged functions, and beginnings of such names. -/
def isPrivilegedName (word : List Char) : Bool :=
  let setter := match after? "set" word with
    | some (c :: _) => c.isUpper
    | _ => false
  setter || (after? "mint" word).isSome || (after? "upgradeTo" word).isSome
    || ["transferOwnership", "changeOwner", "initialize", "pause", "unpause", "destroy",
      "kill"].contains (String.ofList word)

/-- Whether `word` stands at a position as a word of its own. -/
def standsAlone (word : String) (before : Option Char) (s : List Char) : Bool :=
  !isWordAt before && match after? word s with
    | some rest => endsWord rest
    | none => false

/-- Whether one of the words stands somewhere in a text that follows the character `before`. -/
def anyStandsAlone (ws : List String) (before : Char) (s : List Char) : Bool :=
  anyPosition (fun c rest => ws.any fun w => standsAlone w c rest) (some before) s

/-- A header of a privileged function that can be called from outside. -/
def privilegedHeader (before : Option Char) (s : List Char) : Bool :=
  if isWordAt before then false
  else
    match (after? "function" s).bind afterBlanks? with
    | none => false
    | some rest =>
      if isPrivilegedName (rest.takeWhile isWordChar) then
        match after? "(" (trimStart (rest.dropWhile isWordChar)) with
        | none => false
        | some rest =>
          match splitAtChar? ')' rest with
          | none => false
          | some (_, rest) =>
            anyStandsAlone ["public", "external"] ')'
              (rest.takeWhile fun c => c != '\x7b' && c != ';')
      else false

def isTargetChar (c : Char) : Bool :=
  isWordChar c || c == '.' || c == '[' || c == ']' || c == '(' || c == ')'

/-- Whether a low-level call or send starts at some position before the end of the target. -/
def callInTarget : List Char → Bool
  | [] => false
  | c :: rest =>
    wordThen ".call" ['(', '\x7b'] (c :: rest) || wordThen ".send" ['(', '\x7b'] (c :: rest)
      || (isTargetChar c && callInTarget rest)

/-- A line that starts with a target and a low-level call or send on it. -/
def bareCall (line : List Char) : Bool :=
  match afterChar? isNameStart (trimStart line) with
  | none => false
  | some rest => callInTarget rest

/-- Whether `p` holds at some position of a line. -/
def somewhere (p : List Char → Bool) (line : List Char) : Bool :=
  holdsSomewhere (fun _ rest => p rest) line

/-- Whether a word stands somewhere in a line as a word of its own. -/
def hasWord (word : String) (line : List Char) : Bool :=
  holdsSomewhere (standsAlone word) line

/-- Whether a word that does not continue one stands before an opening parenthesis. -/
def callOf (word : String) (before : Option Char) (s : List Char) : Bool :=
  !isWordAt before && wordThen word ['('] s

def ruleTable : List Rule := [
  { category := "reentrancy"
    name := "Reentrancy via external call with value"
    severity := .high
    description := "External call transfers value before the function has finished updating state."
    impact := "A malicious receiver can re-enter and drain funds before balances are updated."
    recommendation :=
      "Apply checks-effects-interactions and guard the function with a reentrancy lock."
    signatures :=
      [⟨somewhere callWithValue, .high, []⟩, ⟨somewhere (wordThen ".call.value" ['(']), .high, []⟩]
        },
  { category := "integer-overflow"
    name := "Unchecked arithmetic"
    severity := .medium
    description := "Arithmetic on integers without overflow protection."
    impact := "Values can wrap around and corrupt balances or accounting."
    recommendation := "Use Solidity 0.8+ checked arithmetic or a SafeMath library."
    signatures := [
      ⟨somewhere compoundAssignment, .low, ["SafeMath", ".add(", ".sub(", ".mul("]⟩,
      ⟨somewhere sumAssigned, .low, ["SafeMath", "for (", "for(", "constant"]⟩] },
  { category := "access-control"
    name := "Privileged function without access restriction"
    severity := .high
    description :=
      "A state-changing privileged function is publicly callable without an access modifier."
    impact := "Any account may call administrative functionality."
    recommendation := "Restrict the function with an ownership or role-based modifier."
    signatures := [
      ⟨holdsSomewhere privilegedHeader, .medium,
        ["onlyOwner", "onlyRole", "onlyAdmin", "onlyGovernance", "initializer", " view", " pure"]⟩]
          },
  { category := "unchecked-call"
    name := "Unchecked low-level call"
    severity := .medium
    description := "Return value of a low-level call or send is ignored."
    impact := "Failed transfers go unnoticed and leave the contract in an inconsistent state."
    recommendation := "Check the returned success flag or use a safe transfer helper."
    signatures := [⟨bareCall, .medium, ["=", "require", "if ", "if(", "return", "assert"]⟩] },
  { category := "timestamp-dependence"
    name := "Block timestamp dependence"
    severity := .low
    description := "Logic depends on the block timestamp, which validators can influence slightly."
    impact := "Time-based conditions may be nudged by block producers."
    recommendation := "Avoid using block.timestamp for randomness or tight time windows."
    signatures := [⟨hasWord "block.timestamp", .medium, []⟩, ⟨hasWord "now", .low, []⟩] },
  { category := "tx-origin"
    name := "Authorization through tx.origin"
    severity := .high
    description := "tx.origin is used for authorization."
    impact := "A phishing contract can act on behalf of the original sender."
    recommendation := "Use msg.sender for authorization checks."
    signatures := [⟨hasWord "tx.origin", .high, ["msg.sender"]⟩] },
  { category := "delegatecall"
    name := "Delegatecall to external code"
    severity := .high
    description := "delegatecall executes external code in this contract's storage context."
    impact := "An untrusted target can overwrite storage or take ownership."
    recommendation := "Only delegatecall to trusted, immutable implementations."
    signatures := [⟨somewhere (wordThen ".delegatecall" ['(']), .high, []⟩] },
  { category := "selfdestruct"
    name := "Self-destruct capability"
    severity := .critical
    description := "The contract can be destroyed and its balance sent elsewhere."
    impact := "Loss of contract code and funds if reachable by an attacker."
    recommendation := "Remove selfdestruct or gate it behind strict multi-party authorization."
    signatures := [
      ⟨holdsSomewhere (fun c s => callOf "selfdestruct" c s || callOf "suicide" c s), .high, []⟩] }]

def categorySeverity? (category : String) : Option Severity :=
  (ruleTable.find? (·.category = category)).map (·.severity)

def Signature.fits (s : Signature) (line : List Char) : Bool :=
  s.occurs line && !s.excluded.any (contains · line)

/-- The confidence of the first signature of a rule that fits a line. -/
def Rule.hit? (r : Rule) (line : List Char) : Option Confidence :=
  (r.signatures.find? (·.fits line)).map (·.confidence)

end AuditPanel.Source
