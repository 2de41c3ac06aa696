import AuditPanel.Decimal.Reader
import AuditPanel.Json.Reader
import AuditPanel.Yaml.Value

/-!
What a plain scalar means: null, a truth value, a number or a text.
-/

set_option autoImplicit false

namespace AuditPanel.Yaml

/-- Whether a text is a zero before further digits, with a sign or without: a text, not a number. -/
def isZeroPadded (s : List Char) : Bool :=
  let digits := match s with
    | '-' :: rest => rest
    | '+' :: rest => rest
    | rest => rest
  1 < digits.length && digits.head? == some '0' && digits.all Char.isDigit

/-- The natural number that all of a text writes to a radix of at most 16. -/
def radixValue? (radix : Nat) (s : List Char) : Option Nat :=
  if s.isEmpty then none
  else
    s.foldlM
      (fun n c => (Json.hexValue? c).bind fun d => if d < radix then some (radix * n + d) else none)
        0

/-- The radix that the mark at the front of a number sets, and the digits behind the mark. -/
def radixMark? : List Char → Option (Nat × List Char)
  | '0' :: 'x' :: rest => some (16, rest)
  | '0' :: 'o' :: rest => some (8, rest)
  | '0' :: 'b' :: rest => some (2, rest)
  | _ => none

/-- The magnitude of a number behind its sign; `whole` is the text with the sign. -/
def magnitude? (whole s : List Char) : Option Nat :=
  match radixMark? s with
  | some (radix, digits) => radixValue? radix digits
  | none => if isZeroPadded whole then none else radixValue? 10 s

/-- The whole number of at most `bits` bits that a text writes, without a sign bit unless the number
is negative. -/
def wholeNumber? (bits : Nat) (s : List Char) : Option Int :=
  match s with
  | '-' :: rest => ((magnitude? s rest).filter (· ≤ 1 <<< (bits - 1))).map fun n => -(n : Int)
  | '+' :: rest => ((magnitude? s rest).filter (· < 1 <<< bits)).map Int.ofNat
  | _ => ((magnitude? s s).filter (· < 1 <<< bits)).map Int.ofNat

def double? (s : List Char) : Option Float :=
  let (isPlus, rest) := match s with
    | '+' :: rest => (true, rest)
    | rest => (false, rest)
  if isPlus && (rest.head? == some '-' || rest.head? == some '+') then none
  else
    let word := String.ofList rest
    let whole := String.ofList s
    if [".inf", ".Inf", ".INF"].contains word then some (1.0 / 0.0)
    else if ["-.inf", "-.Inf", "-.INF"].contains whole then some (-1.0 / 0.0)
    else if [".nan", ".NaN", ".NAN"].contains whole then some (0.0 / 0.0)
    else (Decimal.read? rest).filter Float.isFinite

def isNullWord (s : String) : Bool :=
  ["null", "Null", "NULL", "~"].contains s

def truthValue? (s : String) : Option Bool :=
  if ["true", "True", "TRUE"].contains s then some true
  else if ["false", "False", "FALSE"].contains s then some false
  else none

/-- The meaning of a plain scalar; none for a whole number that fits 128 bits but not 64. -/
def ofPlain? (text : String) : Option Yaml :=
  let s := text.toList
  if s.isEmpty || isNullWord text then some .null
  else
    match truthValue? text, wholeNumber? 64 s, wholeNumber? 128 s with
    | some b, _, _ => some (.bool b)
    | none, some n, _ => some (.integer n)
    | none, none, some _ => none
    | none, none, none =>
      match if isZeroPadded s then none else double? s with
      | some x => some (.real x)
      | none => some (.string text)

end AuditPanel.Yaml
