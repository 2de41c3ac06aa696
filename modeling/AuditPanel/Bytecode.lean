import AuditPanel.Failure
import AuditPanel.Json.Printer
import AuditPanel.Json.Reader
import AuditPanel.Json.Decode
import AuditPanel.Text.Search

/-!
A scan of deployed bytecode for opcodes that matter to an auditor. Data that push instructions carry
is passed over.
-/

set_option autoImplicit false

namespace AuditPanel.Bytecode

open AuditPanel.Text

/-- An opcode that the scan reports, and why it matters. -/
structure Opcode where
  byte : UInt8
  name : String
  risk : String
  deriving Repr, DecidableEq

def flaggedOpcodes : List Opcode := [
  ⟨0xff, "SELFDESTRUCT", "contract can be destroyed and its balance forcibly sent"⟩,
  ⟨0xf4, "DELEGATECALL", "executes external code in this contract's storage context"⟩,
  ⟨0xf2, "CALLCODE", "deprecated delegate-style call with storage context risks"⟩,
  ⟨0xf0, "CREATE", "deploys new contracts at runtime"⟩,
  ⟨0xf5, "CREATE2", "deploys contracts at deterministic addresses, enabling metamorphic code"⟩,
  ⟨0x3c, "EXTCODECOPY", "copies and may inspect or depend on other contracts' code"⟩,
  ⟨0x32, "ORIGIN", "reads tx.origin, commonly misused for authorization"⟩]

/-- A reported opcode with the number of its instructions. -/
structure Flagged where
  opcode : String
  count : Nat
  risk : String
  deriving Repr, DecidableEq

/-- The result of a scan. -/
structure Scan where
  codeSize : Nat
  flagged : List Flagged
  deriving Repr, DecidableEq, Inhabited

namespace Scan

def isEmpty (s : Scan) : Bool :=
  s.codeSize = 0

def count (s : Scan) (opcode : String) : Nat :=
  match s.flagged.find? (·.opcode = opcode) with
  | some f => f.count
  | none => 0

def toJson (s : Scan) : Json :=
  .ofMembers [
    ("codeSize", .nat s.codeSize),
    ("flagged", .array (s.flagged.map fun f =>
      .ofMembers [("opcode", .string f.opcode), ("count", .nat f.count),
        ("risk", .string f.risk)]))]

end Scan

/-- The number of data bytes that an instruction carries. -/
def pushWidth (op : UInt8) : Nat :=
  if 0x60 ≤ op ∧ op ≤ 0x7f then op.toNat - 0x5f else 0

/-- The opcodes of the instructions of a code in order, where `skip` bytes of data come first, onto
the reversed opcodes so far. -/
def opcodesFrom : Nat → List UInt8 → List UInt8 → List UInt8
  | _, out, [] => out.reverse
  | 0, out, op :: rest => opcodesFrom (pushWidth op) (op :: out) rest
  | skip + 1, out, _ :: rest => opcodesFrom skip out rest

def opcodes (code : List UInt8) : List UInt8 :=
  opcodesFrom 0 [] code

def scanCode (code : List UInt8) : Scan :=
  let ops := opcodes code
  { codeSize := code.length
    flagged := flaggedOpcodes.filterMap fun o =>
      let n := ops.count o.byte
      if n = 0 then none else some ⟨o.name, n, o.risk⟩ }

/-- A character below 256 as it is shown in messages: between single quotes, with control and
invisible characters escaped. -/
def shownByte (n : Nat) : String :=
  let c := Char.ofNat n
  if n = 0 then "'\\0'"
  else if c = '\t' then "'\\t'"
  else if c = '\r' then "'\\r'"
  else if c = '\n' then "'\\n'"
  else if c = '\'' then "'\\''"
  else if c = '\\' then "'\\\\'"
  else if n < 0x20 || (0x7f ≤ n && n ≤ 0xa0) || n = 0xad then
    "'\\u\x7b" ++ String.ofList (Nat.toDigits 16 n) ++ "\x7d'"
  else "'" ++ String.singleton c ++ "'"

def badHex (detail : String) : Failure :=
  ⟨.invalidInput, "Invalid bytecode hex: " ++ detail⟩

/-- The bytes that pairs of hexadecimal digits write, from an offset on, onto the reversed bytes so
far. -/
def pairsFrom : Nat → List UInt8 → List UInt8 → Except Failure (List UInt8)
  | offset, out, a :: b :: rest =>
    match Json.hexValue? (Char.ofNat a.toNat), Json.hexValue? (Char.ofNat b.toNat) with
    | none, _ => .error (badHex s!"Invalid character {shownByte a.toNat} at position {offset}")
    | some _, none =>
      .error (badHex s!"Invalid character {shownByte b.toNat} at position {offset + 1}")
    | some x, some y => pairsFrom (offset + 2) (UInt8.ofNat (16 * x + y) :: out) rest
  | _, out, _ => .ok out.reverse

/-- The bytes that a hexadecimal text writes. An odd number of bytes is reported before any bad
digit. -/
def decodeHex (text : List Char) : Except Failure (List UInt8) :=
  let bytes := (String.ofList text).toUTF8.toList
  if bytes.length % 2 = 1 then .error (badHex "Odd number of digits") else pairsFrom 0 [] bytes

/-- The digits of a hexadecimal text without blanks around it and without its mark. -/
def digitsOf (text : List Char) : List Char :=
  match trim text with
  | '0' :: 'x' :: rest => rest
  | '0' :: 'X' :: rest => rest
  | rest => rest

def scan (text : String) : Except Failure Scan :=
  (decodeHex (digitsOf text.toList)).map scanCode

end AuditPanel.Bytecode
