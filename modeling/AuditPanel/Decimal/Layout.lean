import AuditPanel.Decimal.Shortest

/-!
How the shortest digits of a double are laid out: always positional in running text, with exponents
for very large and very small values in records. Fixed places round the exact binary value, a half
to the even neighbour.
-/

set_option autoImplicit false

namespace AuditPanel.Decimal

/-- The decisions of a decimal layout. Digits stand positionally while the point falls at most
`widest` places to the right of the first digit and at most `deepest` zeros follow it before the
first digit. -/
structure Layout where
  widest : Option Nat
  deepest : Option Nat
  wholeSuffix : String
  infinity : String
  notANumber : String

/-- In records, 16 digits are written before the point and five places open before the first digit;
whole values keep a zero after the point. -/
def recordLayout : Layout := ⟨some 16, some 4, ".0", "inf", "NaN"⟩

/-- In running text every value is positional and whole values have no point. -/
def textLayout : Layout := ⟨none, none, "", "inf", "NaN"⟩

def digitText (n : Nat) : List Char :=
  Nat.toDigits 10 n

def Layout.magnitude (l : Layout) (d : Scientific) : List Char :=
  let digits := digitText d.digits
  let count := digits.length
  -- the number of digits before the point
  let point : Int := count + d.exponent
  let wide := match l.widest with | none => true | some w => point ≤ w
  let deep := match l.deepest with | none => true | some z => -(z : Int) ≤ point
  if 0 ≤ d.exponent && wide then
    digits ++ List.replicate d.exponent.toNat '0' ++ l.wholeSuffix.toList
  else if 0 < point && d.exponent < 0 && wide then
    digits.take point.toNat ++ '.' :: digits.drop point.toNat
  else if point ≤ 0 && deep then
    '0' :: '.' :: List.replicate (-point).toNat '0' ++ digits
  else
    let exponent := (toString (point - 1)).toList
    match digits with
    | [] => []
    | [d0] => d0 :: 'e' :: exponent
    | d0 :: rest => d0 :: '.' :: rest ++ 'e' :: exponent

def Layout.render (l : Layout) (x : Float) : String :=
  match kind x with
  | .notANumber => l.notANumber
  | .infinite negative => (if negative then "-" else "") ++ l.infinity
  | .finite p =>
    let sign := if p.negative then "-" else ""
    if p.significand = 0 then sign ++ "0" ++ l.wholeSuffix
    else sign ++ String.ofList (l.magnitude (shortest p))

/-- The quotient rounded to the nearest whole number, a half to the even neighbour. -/
def roundDiv (num den : Nat) : Nat :=
  let whole := num / den
  let rest := num % den
  if 2 * rest < den then whole
  else if 2 * rest > den then whole + 1
  else if whole % 2 = 0 then whole else whole + 1

/-- The magnitude of a finite double in units of the last of `places` decimal places. -/
def Parts.inPlaces (p : Parts) (places : Nat) : Nat :=
  let (num, den) := powerOfTwo p.exponent
  roundDiv (p.significand * num * powerOfTen places) den

/-- The text of a double with exactly `places` digits after the point. -/
def fixed (places : Nat) (x : Float) : String :=
  match kind x with
  | .notANumber => "NaN"
  | .infinite negative => (if negative then "-" else "") ++ "inf"
  | .finite p =>
    let sign := if p.negative then "-" else ""
    let digits := digitText (p.inPlaces places)
    let padded := List.replicate (places + 1 - digits.length) '0' ++ digits
    let whole := padded.length - places
    let body := if places = 0 then padded else padded.take whole ++ '.' :: padded.drop whole
    sign ++ String.ofList body

end AuditPanel.Decimal
