import AuditPanel.Json.Reader
import AuditPanel.Text.Lines

/-!
Paths and queries: percent signs stand in front of the two hexadecimal digits of a byte, and in a
query a plus sign is a blank.
-/

set_option autoImplicit false

namespace AuditPanel.Server

/-- The bytes that a text writes with percent signs. A percent sign without two digits stands for
itself. -/
def percentDecode : List Char → List UInt8
  | '%' :: a :: b :: rest =>
    match Json.hexValue? a, Json.hexValue? b with
    | some x, some y => UInt8.ofNat (16 * x + y) :: percentDecode rest
    | _, _ => '%'.toUInt8 :: percentDecode (a :: b :: rest)
  | c :: rest => (String.singleton c).toUTF8.toList ++ percentDecode rest
  | [] => []
  termination_by s => s.length

def textOfBytes? (bytes : List UInt8) : Option String :=
  String.fromUTF8? (ByteArray.mk bytes.toArray)

def queryDecode (s : List Char) : List UInt8 :=
  percentDecode (s.map fun c => if c = '+' then ' ' else c)

/-- The pairs of a query: name and value, where a missing value is empty. Empty pairs are passed
over. -/
def queryPairs (query : List Char) : List (List UInt8 × List UInt8) :=
  ((Text.piecesBetween (· == '&') query).filter (!·.isEmpty)).map fun pair =>
    (queryDecode (pair.takeWhile (· != '=')), queryDecode ((pair.dropWhile (· != '=')).drop 1))

/-- A natural number of 64 bits in decimal digits, with a plus sign or without. -/
def wordOf? (bytes : List UInt8) : Option Nat :=
  let digits := match bytes with
    | 43 :: rest => rest
    | rest => rest
  let isDigit (b : UInt8) : Bool := 48 ≤ b && b ≤ 57
  if digits.isEmpty || !digits.all isDigit then none
  else
    let n := digits.foldl (fun n b => 10 * n + (b.toNat - 48)) 0
    if n < 1 <<< 64 then some n else none

/-- A path cut at its slashes, without the empty piece in front of the first one; none if no slash
starts it. -/
def pathSegments? (path : List Char) : Option (List (List Char)) :=
  match path with
  | '/' :: rest => some (Text.piecesBetween (· == '/') rest)
  | _ => none

end AuditPanel.Server
