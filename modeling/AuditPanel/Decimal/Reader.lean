import AuditPanel.Text.Lines

/-!
Reading doubles from decimal text: correctly rounded for plain text, and by one scaling of a 64-bit
significand for numbers inside records.
-/

set_option autoImplicit false

namespace AuditPanel.Decimal

def digitRun (s : List Char) : List Char × List Char :=
  (s.takeWhile Char.isDigit, s.dropWhile Char.isDigit)

def digitsValue (s : List Char) : Nat :=
  s.foldl (fun n c => 10 * n + (c.toNat - '0'.toNat)) 0

/-- The double nearest to `digits · 10 ^ exponent`. Exponents far outside the range of doubles are
decided at once. -/
def nearest (digits : Nat) (exponent : Int) : Float :=
  if digits = 0 then 0.0
  else
    let lead : Int := (Nat.toDigits 10 digits).length + exponent
    if 400 < lead then 1.0 / 0.0
    else if lead < -400 then 0.0
    else Float.ofScientific digits (exponent < 0) exponent.natAbs

/-- An optional sign: whether it is a minus, and the rest. -/
def signed : List Char → Bool × List Char
  | '-' :: rest => (true, rest)
  | '+' :: rest => (false, rest)
  | rest => (false, rest)

/-- The exponent part at the end of a number: nothing, or a mark, an optional sign and digits to the
end. -/
def exponentTail? : List Char → Option Int
  | [] => some 0
  | c :: rest =>
    if c = 'e' ∨ c = 'E' then
      let (negative, rest) := signed rest
      let (digits, rest) := digitRun rest
      if digits.isEmpty || !rest.isEmpty then none
      else
        let n : Int := digitsValue digits
        some (if negative then -n else n)
    else none

/-- The magnitude of a decimal number that takes the whole text: digits with an optional point and
exponent, or one of the words for infinity and for no number in any case. -/
def magnitude? (s : List Char) : Option Float :=
  let word := String.ofList (s.map Char.toLower)
  if word == "inf" || word == "infinity" then some (1.0 / 0.0)
  else if word == "nan" then some (0.0 / 0.0)
  else
    let (whole, rest) := digitRun s
    let (fraction, rest) := match rest with
      | '.' :: rest => digitRun rest
      | _ => ([], rest)
    if whole.isEmpty && fraction.isEmpty then none
    else
      (exponentTail? rest).map fun e =>
        nearest (digitsValue (whole ++ fraction)) (e - fraction.length)

def read? (s : List Char) : Option Float :=
  let (negative, rest) := signed s
  (magnitude? rest).map fun x => if negative then -x else x

end AuditPanel.Decimal
