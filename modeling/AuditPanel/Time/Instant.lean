import AuditPanel.Decimal.Reader
import AuditPanel.Decimal.Layout
import AuditPanel.Text.LowerCase

/-!
Instants in universal time with nanoseconds, and their text: date, `T`, time of day, as many groups
of three fraction digits as needed, and the mark of universal time or a zero offset.

The clock that deadlines and ends of life are taken from counts seconds in a signed word of 64 bits,
and whoever asks it for a time beyond its end crashes. Its readings and delays are in milliseconds.
-/

set_option autoImplicit false

namespace AuditPanel

/-- An instant: seconds since the first of January 1970 and nanoseconds into the second. A second
that is inserted at the end of a minute counts as the nanoseconds from one to two thousand million
of the second before it. -/
structure Instant where
  seconds : Int
  nanos : Nat
  deriving Repr, DecidableEq, Inhabited

namespace Instant

/-- A day of the calendar. -/
structure Date where
  year : Int
  month : Nat
  day : Nat
  deriving Repr, DecidableEq

def isLeap (year : Int) : Bool :=
  Int.emod year 4 == 0 && (Int.emod year 100 != 0 || Int.emod year 400 == 0)

def monthLength (year : Int) : Nat → Nat
  | 2 => if isLeap year then 29 else 28
  | 4 => 30
  | 6 => 30
  | 9 => 30
  | 11 => 30
  | _ => 31

/-- Days from the first of January 1970 to a date. Years are counted from March, in eras of 400. -/
def Date.dayNumber (d : Date) : Int :=
  let y := if d.month ≤ 2 then d.year - 1 else d.year
  let era := Int.fdiv y 400
  let yearOfEra := y - era * 400
  let shifted : Int := if d.month ≤ 2 then d.month + 9 else d.month - 3
  let dayOfYear := (153 * shifted + 2) / 5 + d.day - 1
  let dayOfEra := yearOfEra * 365 + yearOfEra / 4 - yearOfEra / 100 + dayOfYear
  era * 146097 + dayOfEra - 719468

def Date.ofDayNumber (n : Int) : Date :=
  let z := n + 719468
  let era := Int.fdiv z 146097
  let dayOfEra := z - era * 146097
  let yearOfEra := (dayOfEra - dayOfEra / 1460 + dayOfEra / 36524 - dayOfEra / 146096) / 365
  let dayOfYear := dayOfEra - (365 * yearOfEra + yearOfEra / 4 - yearOfEra / 100)
  let shifted := (5 * dayOfYear + 2) / 153
  let day := dayOfYear - (153 * shifted + 2) / 5 + 1
  let month := if shifted < 10 then shifted + 3 else shifted - 9
  let year := yearOfEra + era * 400 + if month ≤ 2 then 1 else 0
  ⟨year, month.toNat, day.toNat⟩

/-- A natural number with at least `width` digits. -/
def padded (width n : Nat) : List Char :=
  let digits := Decimal.digitText n
  List.replicate (width - digits.length) '0' ++ digits

/-- A year: four digits, or a sign and at least four digits outside the years 0 to 9999. -/
def yearText (year : Int) : List Char :=
  if 0 ≤ year ∧ year ≤ 9999 then padded 4 year.toNat
  else (if year < 0 then '-' else '+') :: padded 4 year.natAbs

def fractionText (nanos : Nat) : List Char :=
  if nanos = 0 then []
  else if nanos % 1000000 = 0 then '.' :: padded 3 (nanos / 1000000)
  else if nanos % 1000 = 0 then '.' :: padded 6 (nanos / 1000)
  else '.' :: padded 9 nanos

/-- Date and time of day without a mark of the offset. -/
def localText (t : Instant) : List Char :=
  let days := Int.fdiv t.seconds 86400
  let rest := (t.seconds - days * 86400).toNat
  let date := Date.ofDayNumber days
  let inserted := t.nanos / 1000000000
  yearText date.year ++ '-' :: padded 2 date.month ++ '-' :: padded 2 date.day ++ 'T' ::
    padded 2 (rest / 3600)
    ++ ':' :: padded 2 (rest / 60 % 60) ++ ':' :: padded 2 (rest % 60 + inserted)
    ++ fractionText (t.nanos % 1000000000)

def toText (t : Instant) : String :=
  String.ofList (localText t ++ ['Z'])

/-- The text of an instant with the offset written out. -/
def toOffsetText (t : Instant) : String :=
  String.ofList (localText t ++ "+00:00".toList)

/-- A number of at most `width` digits and at least one. -/
def shortNumber? (width : Nat) (s : List Char) : Option (Nat × List Char) :=
  let digits := (s.take width).takeWhile Char.isDigit
  if digits.isEmpty then none else some (Decimal.digitsValue digits, s.drop digits.length)

/-- A year: four digits at most, or a sign and any number of digits. -/
def year? (s : List Char) : Option (Int × List Char) :=
  match s with
  | '+' :: rest => (shortNumber? rest.length rest).map fun (n, rest) => (Int.ofNat n, rest)
  | '-' :: rest => (shortNumber? rest.length rest).map fun (n, rest) => (-Int.ofNat n, rest)
  | _ => (shortNumber? 4 s).map fun (n, rest) => (Int.ofNat n, rest)

def mark? (c : Char) (s : List Char) : Option (List Char) :=
  match Text.trimStart s with
  | d :: rest => if c = d then some rest else none
  | [] => none

def pair? (s : List Char) : Option (Nat × List Char) :=
  shortNumber? 2 (Text.trimStart s)

/-- The nanoseconds of a fraction: up to nine digits count. -/
def fraction? (s : List Char) : Option (Nat × List Char) :=
  match s with
  | '.' :: rest =>
    let (digits, rest) := Decimal.digitRun rest
    if digits.isEmpty then none
    else
      let taken := digits.take 9
      some (Decimal.digitsValue taken * Decimal.powerOfTen (9 - taken.length), rest)
  | _ => some (0, s)

def twoDigits? : List Char → Option (Nat × List Char)
  | a :: b :: rest =>
    if a.isDigit && b.isDigit then some (Decimal.digitsValue [a, b], rest) else none
  | _ => none

def offsetSign? : List Char → Option (Int × List Char)
  | '+' :: rest => some (1, rest)
  | '-' :: rest => some (-1, rest)
  | '−' :: rest => some (-1, rest)
  | _ => none

/-- An offset in seconds: the mark of universal time, or a sign, hours and minutes. -/
def offset? (s : List Char) : Option (Int × List Char) :=
  match s with
  | 'Z' :: rest => some (0, rest)
  | 'z' :: rest => some (0, rest)
  | _ =>
    if Text.toAsciiLower (s.take 3) = ['u', 't', 'c'] then some (0, s.drop 3)
    else do
      let (sign, rest) ← offsetSign? s
      let (hours, rest) ← twoDigits? rest
      let rest := rest.dropWhile fun c => c == ':' || Text.isBlank c
      let (minutes, rest) ← twoDigits? rest
      if 59 < minutes || 23 < hours then none else some (sign * (hours * 3600 + minutes * 60), rest)

/-- The first and the last year of the calendar. -/
def firstYear : Int := -262143

@[inherit_doc firstYear]
def lastYear : Int := 262142

def isInCalendar (t : Instant) : Bool :=
  let day := Int.fdiv t.seconds 86400
  (Date.mk firstYear 1 1).dayNumber ≤ day && day < (Date.mk (lastYear + 1) 1 1).dayNumber

/-- The instant that a text writes. It lies in the years of the calendar, and so does the date that
is written. -/
def ofText? (text : String) : Option Instant := do
  let (year, rest) ← year? (Text.trimStart text.toList)
  let (month, rest) ← pair? (← mark? '-' rest)
  let (day, rest) ← pair? (← mark? '-' rest)
  let rest ← match rest with
    | c :: rest => if c == 'T' || c == 't' || c == ' ' then some rest else none
    | [] => none
  let (hour, rest) ← pair? rest
  let (minute, rest) ← pair? (← mark? ':' rest)
  let (second, rest) ← pair? (← mark? ':' rest)
  let (nanos, rest) ← fraction? rest
  let (offset, rest) ← offset? (Text.trimStart rest)
  if !Text.isAllBlank rest then none
  else if month = 0 || 12 < month || day = 0 || monthLength year month < day then none
  else if 23 < hour || 59 < minute || 60 < second then none
  else if year < firstYear || lastYear < year then none
  else
    let inserted := second = 60
    let second := if inserted then 59 else second
    let seconds :=
      (Date.mk year month day).dayNumber * 86400 + (hour * 3600 + minute * 60 + second : Nat)
        - offset
    let t : Instant := ⟨seconds, if inserted then nanos + 1000000000 else nanos⟩
    if t.isInCalendar then some t else none

def millis (t : Instant) : Nat :=
  (t.seconds * 1000).toNat + t.nanos / 1000000

end Instant

namespace Clock

/-- The first reading that the clock cannot hold. -/
def limit : Nat := (1 <<< 63) * 1000

/-- Whether the clock can hold the time that comes `delay` after a reading. -/
def CanHold (now delay : Nat) : Prop :=
  now + delay < limit

instance (now delay : Nat) : Decidable (CanHold now delay) :=
  inferInstanceAs (Decidable (now + delay < limit))

end Clock

end AuditPanel
