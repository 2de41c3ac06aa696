import AuditPanel.Decimal.Reader
import AuditPanel.Json.Value

/-!
A strict reader of JSON text: no comments, no trailing commas, no leading zeros, no raw control
characters and no lone surrogates. Containers nest to a given depth, and a number beyond the range
of doubles is refused.

Each step takes the text at its front and returns what it read with the text after it.
-/

set_option autoImplicit false

namespace AuditPanel.Json

def isSpace (c : Char) : Bool :=
  c == ' ' || c == '\n' || c == '\r' || c == '\t'

def skipSpace (s : List Char) : List Char :=
  s.dropWhile isSpace

def hexValue? (c : Char) : Option Nat :=
  if '0' ≤ c ∧ c ≤ '9' then some (c.toNat - '0'.toNat)
  else if 'a' ≤ c ∧ c ≤ 'f' then some (c.toNat - 'a'.toNat + 10)
  else if 'A' ≤ c ∧ c ≤ 'F' then some (c.toNat - 'A'.toNat + 10)
  else none

def simpleEscape? : Char → Option Char
  | '"' => some '"'
  | '\\' => some '\\'
  | '/' => some '/'
  | 'b' => some '\x08'
  | 'f' => some '\x0c'
  | 'n' => some '\n'
  | 'r' => some '\r'
  | 't' => some '\t'
  | _ => none

/-- Where the reader of a string stands: in plain text, after a backslash, inside the hexadecimal
digits of a unit, or after a high surrogate that waits for the backslash or the mark of its low
one. -/
inductive TextState where
  | plain
  | escape
  | unit (high : Option Nat) (left : Nat) (value : Nat)
  | lowEscape (high : Nat)
  | lowMark (high : Nat)

def isHighSurrogate (n : Nat) : Bool :=
  0xD800 ≤ n && n < 0xDC00

def isLowSurrogate (n : Nat) : Bool :=
  0xDC00 ≤ n && n < 0xE000

/-- What a complete unit does: it adds a character, waits for a low surrogate, or is refused. -/
def closeUnit (high : Option Nat) (value : Nat) (out : List Char) :
    Option (TextState × List Char) :=
  match high with
  | none =>
    if isHighSurrogate value then some (.lowEscape value, out)
    else if isLowSurrogate value then none
    else some (.plain, Char.ofNat value :: out)
  | some h =>
    if isLowSurrogate value then
      some (.plain, Char.ofNat (0x10000 + (h - 0xD800) * 0x400 + (value - 0xDC00)) :: out)
    else none

/-- One character inside a string, other than its closing quote: the next state and the reversed
text so far. -/
def textStep (state : TextState) (out : List Char) (c : Char) : Option (TextState × List Char) :=
  match state with
  | .plain =>
    if c = '\\' then some (.escape, out)
    else if c.toNat < 0x20 then none
    else some (.plain, c :: out)
  | .escape =>
    if c = 'u' then some (.unit none 3 0, out)
    else (simpleEscape? c).map fun d => (.plain, d :: out)
  | .unit high left value =>
    match hexValue? c with
    | none => none
    | some d =>
      match left with
      | 0 => closeUnit high (16 * value + d) out
      | left + 1 => some (.unit high left (16 * value + d), out)
  | .lowEscape h => if c = '\\' then some (.lowMark h, out) else none
  | .lowMark h => if c = 'u' then some (.unit (some h) 3 0, out) else none

def TextState.isPlain : TextState → Bool
  | .plain => true
  | _ => false

def readText : TextState → List Char → List Char → Option (List Char × List Char)
  | _, _, [] => none
  | state, out, c :: rest =>
    if c = '"' && state.isPlain then some (out.reverse, rest)
    else
      match textStep state out c with
      | none => none
      | some (state, out) => readText state out rest

def readString (s : List Char) : Option (String × List Char) :=
  (readText .plain [] s).map fun (text, rest) => (String.ofList text, rest)

def wordBound : Nat := 1 <<< 64

/-- Digits taken into a significand while it fits 64 bits, and the digits left over. -/
def takeDigits : Nat → List Char → Nat × List Char
  | n, [] => (n, [])
  | n, c :: rest =>
    let next := 10 * n + (c.toNat - '0'.toNat)
    if next < wordBound then takeDigits next rest else (n, c :: rest)

def tenTo (n : Nat) : Float :=
  Float.ofScientific 1 false n

/-- A significand scaled by a power of ten in one or two operations, each rounded; none beyond the
range of doubles. -/
def scale? (significand : Nat) (exponent : Int) : Option Float :=
  let f := Float.ofNat significand
  if significand = 0 then some f
  else if 308 < exponent then none
  else if 0 ≤ exponent then
    let x := f * tenTo exponent.toNat
    if x.isInf then none else some x
  else if -308 ≤ exponent then some (f / tenTo (-exponent).toNat)
  else if -616 ≤ exponent then some (f / tenTo 308 / tenTo (-exponent - 308).toNat)
  else some 0.0

/-- The greatest exponent that is still counted. -/
def exponentBound : Nat := 1 <<< 31 - 1

/-- The double with the given sign, significand and exponent, where `mark` is the exponent part of
the text: whether it is negative and its digits. -/
def realOf? (negative : Bool) (significand : Nat) (exponent : Int)
    (mark : Option (Bool × List Char)) : Option Float :=
  let magnitude :=
    match mark with
    | none => scale? significand exponent
    | some (down, digits) =>
      let n := Decimal.digitsValue digits
      if exponentBound < n then
        if significand = 0 || down then some 0.0 else none
      else scale? significand (if down then exponent - n else exponent + n)
  magnitude.map fun x => if negative then -x else x

/-- The exponent part of a number, if there is one; refused when it has no digit. -/
def readExponent : List Char → Option (Option (Bool × List Char) × List Char)
  | [] => some (none, [])
  | c :: rest =>
    if c = 'e' ∨ c = 'E' then
      let (down, rest) := Decimal.signed rest
      let (digits, rest) := Decimal.digitRun rest
      if digits.isEmpty then none else some (some (down, digits), rest)
    else some (none, c :: rest)

/-- The whole number with a sign, if it fits 64 bits; minus zero and larger negative ones become
doubles. -/
def wholeNumber (negative : Bool) (n : Nat) : Json :=
  if negative then
    if n = 0 ∨ 1 <<< 63 < n then .real (-Float.ofNat n) else .integer (-(n : Int))
  else .integer n

def readMagnitude (negative : Bool) (s : List Char) : Option (Json × List Char) :=
  let (whole, rest) := Decimal.digitRun s
  if whole.isEmpty || (whole.head? == some '0' && 1 < whole.length) then none
  else
    let (n, left) := takeDigits 0 whole
    match rest with
    | '.' :: rest =>
      let (fraction, rest) := Decimal.digitRun rest
      if fraction.isEmpty then none
      else
        let (n, unused) := takeDigits n fraction
        let exponent : Int := (left.length : Int) - ((fraction.length : Int) - unused.length)
        match readExponent rest with
        | none => none
        | some (mark, rest) => (realOf? negative n exponent mark).map fun x => (.real x, rest)
    | rest =>
      match readExponent rest with
      | none => none
      | some (none, rest) =>
        if left.isEmpty then some (wholeNumber negative n, rest)
        else (realOf? negative n left.length none).map fun x => (.real x, rest)
      | some (mark, rest) => (realOf? negative n left.length mark).map fun x => (.real x, rest)

/-- The elements of an array from its first element on, with the elements so far reversed. -/
def readElements (item : List Char → Option (Json × List Char)) :
    Nat → List Json → List Char → Option (Json × List Char)
  | 0, _, _ => none
  | fuel + 1, out, s =>
    match item s with
    | none => none
    | some (v, rest) =>
      match skipSpace rest with
      | ',' :: rest => readElements item fuel (v :: out) rest
      | ']' :: rest => some (.array (v :: out).reverse, rest)
      | _ => none

/-- The members of an object from its first member on, with the members so far reversed. -/
def readMembers (item : List Char → Option (Json × List Char)) :
    Nat → List (String × Json) → List Char → Option (Json × List Char)
  | 0, _, _ => none
  | fuel + 1, out, s =>
    match skipSpace s with
    | '"' :: rest =>
      match readString rest with
      | none => none
      | some (key, rest) =>
        match skipSpace rest with
        | ':' :: rest =>
          match item rest with
          | none => none
          | some (v, rest) =>
            match skipSpace rest with
            | ',' :: rest => readMembers item fuel ((key, v) :: out) rest
            | '\x7d' :: rest => some (ofMembers ((key, v) :: out).reverse, rest)
            | _ => none
        | _ => none
    | _ => none

def readScalar (s : List Char) : Option (Json × List Char) :=
  match s with
  | '"' :: rest => (readString rest).map fun (text, rest) => (.string text, rest)
  | '-' :: rest => readMagnitude true rest
  | 't' :: 'r' :: 'u' :: 'e' :: rest => some (.bool true, rest)
  | 'f' :: 'a' :: 'l' :: 's' :: 'e' :: rest => some (.bool false, rest)
  | 'n' :: 'u' :: 'l' :: 'l' :: rest => some (.null, rest)
  | rest => readMagnitude false rest

/-- A value with at most `depth` containers around one another, each of at most `fuel` items. -/
def readValue (fuel : Nat) : Nat → List Char → Option (Json × List Char)
  | 0, s =>
    match skipSpace s with
    | '[' :: _ => none
    | '\x7b' :: _ => none
    | rest => readScalar rest
  | depth + 1, s =>
    match skipSpace s with
    | '[' :: rest =>
      match skipSpace rest with
      | ']' :: rest => some (.array [], rest)
      | rest => readElements (readValue fuel depth) fuel [] rest
    | '\x7b' :: rest =>
      match skipSpace rest with
      | '\x7d' :: rest => some (.object [], rest)
      | rest => readMembers (readValue fuel depth) fuel [] rest
    | rest => readScalar rest

/-- The depth to which containers nest in a reviewer's text, a stored record or a reply. -/
def defaultDepth : Nat := 127

def readWithin (depth : Nat) (s : List Char) : Option Json :=
  match readValue (s.length + 1) depth s with
  | none => none
  | some (v, rest) => if (skipSpace rest).isEmpty then some v else none

def read? (s : List Char) : Option Json :=
  readWithin defaultDepth s

end AuditPanel.Json
