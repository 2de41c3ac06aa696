import AuditPanel.Proofs.Decimal.Digits
import AuditPanel.Proofs.Text.Search
import AuditPanel.Proofs.Time.Calendar

/-!
The text of an instant. It is read back as the instant, and within the years of four digits the
texts stand in the order of the instants, however many digits their fractions have.
-/

set_option autoImplicit false

namespace AuditPanel.Instant

open Decimal Text

/-- An instant of the calendar, with the nanoseconds of a second or of one inserted at the end of a
minute. -/
structure IsProper (t : Instant) : Prop where
  nanos_lt : t.nanos < 2000000000
  inserted : 1000000000 ≤ t.nanos → t.seconds % 60 = 59
  inCalendar : t.isInCalendar = true

/-- The day of an instant, counted from the first of January 1970. -/
def dayOf (t : Instant) : Int :=
  t.seconds / 86400

def year (t : Instant) : Int :=
  (Date.ofDayNumber t.dayOf).year

private theorem padded_eq {width n : Nat} (fits : n < 10 ^ width) (wide : 0 < width) :
    padded width n = fixedDigits width n :=
  zeros_append_digitText fits wide

private theorem shortNumber?_append {width : Nat} {s rest : List Char} (some_ : s ≠ [])
    (digits : ∀ c ∈ s, c.isDigit)
    (fits : s.length ≤ width) (stop : (rest.take (width - s.length)).takeWhile Char.isDigit = []) :
    shortNumber? width (s ++ rest) = some (digitsValue s, rest) := by
  have taken : ((s ++ rest).take width).takeWhile Char.isDigit = s := by
    rw [List.take_append, List.take_of_length_le fits, List.takeWhile_append_of_pos digits, stop,
      List.append_nil]
  have shown : s.isEmpty = false := by simpa using some_
  simp [shortNumber?, taken, shown]

private theorem trimStart_digits {s : List Char} (some_ : s ≠ []) (digits : ∀ c ∈ s, c.isDigit)
    (rest : List Char) :
    trimStart (s ++ rest) = s ++ rest := by
  obtain ⟨c, after, rfl⟩ := List.exists_cons_of_ne_nil some_
  exact trimStart_cons (isBlank_of_isDigit (digits c List.mem_cons_self)) _

private theorem fixedDigits_ne_nil {width : Nat} (wide : 0 < width) (n : Nat) :
    fixedDigits width n ≠ [] := by
  rw [← List.length_pos_iff, length_fixedDigits]
  exact wide

private theorem pair?_fixedDigits {n : Nat} (fits : n < 100) (rest : List Char) :
    pair? (fixedDigits 2 n ++ rest) = some (n, rest) := by
  have shown := fixedDigits_ne_nil (show 0 < 2 by omega) n
  have digits (c : Char) (member : c ∈ fixedDigits 2 n) : c.isDigit :=
    isDigit_of_mem_fixedDigits member
  rw [pair?, trimStart_digits shown digits, shortNumber?_append shown digits (by simp) (by simp),
    digitsValue_fixedDigits fits]

private theorem mark?_cons {c : Char} (solid : isBlank c = false) (rest : List Char) :
    mark? c (c :: rest) = some rest := by
  simp [mark?, trimStart_cons solid]

private theorem exists_padded_eq (n : Nat) :
    padded 4 n ≠ [] ∧ (∀ c ∈ padded 4 n, c.isDigit) ∧ digitsValue (padded 4 n) = n := by
  rcases Nat.lt_or_ge n (10 ^ 4) with short | long
  · rw [padded_eq short (by omega)]
    exact ⟨fixedDigits_ne_nil (by omega) n, fun c member => isDigit_of_mem_fixedDigits member,
      digitsValue_fixedDigits short⟩
  · have digits : ¬(Nat.toDigits 10 n).length ≤ 4 := by
      rw [Nat.length_toDigits_le_iff (by omega) (by omega)]
      omega
    have bare : padded 4 n = digitText n := by
      change List.replicate (4 - (Nat.toDigits 10 n).length) '0' ++ digitText n = digitText n
      rw [Nat.sub_eq_zero_of_le (by omega), List.replicate_zero, List.nil_append]
    rw [bare]
    exact ⟨digitText_ne_nil n, fun c member => isDigit_of_mem_digitText member,
      digitsValue_digitText n⟩

private theorem year?_append {shown : List Char} (nonempty : shown ≠ [])
    (digits : ∀ c ∈ shown, c.isDigit) (rest : List Char) :
    year? (shown ++ rest) = (shortNumber? 4 (shown ++ rest)).map fun read =>
      (Int.ofNat read.1, read.2) := by
  obtain ⟨c, after, split⟩ := List.exists_cons_of_ne_nil nonempty
  have digit : c.isDigit := digits c (by simp [split])
  have unsigned : c ≠ '+' ∧ c ≠ '-' := by
    constructor <;> rintro rfl <;> simp at digit
  rw [split, List.cons_append, year?]
  · intro s same
    exact unsigned.1 (List.cons.inj same).1
  · intro s same
    exact unsigned.2 (List.cons.inj same).1

private theorem year?_yearText (y : Int) (rest : List Char) :
    year? (yearText y ++ '-' :: rest) = some (y, '-' :: rest) := by
  obtain ⟨shown, digits, value⟩ := exists_padded_eq y.natAbs
  have signed (s : List Char) : shortNumber? (padded 4 y.natAbs ++ '-' :: s).length
    (padded 4 y.natAbs ++ '-' :: s) = some (y.natAbs, '-' :: s) := by
    have number :=
      @shortNumber?_append (padded 4 y.natAbs ++ '-' :: s).length _ ('-' :: s) shown digits
      (by simp) (by simp)
    rwa [value] at number
  unfold yearText
  split
  · next four =>
    have fits : y.toNat < 10 ^ 4 := by omega
    rw [padded_eq fits (by omega)]
    have shown := fixedDigits_ne_nil (show 0 < 4 by omega) y.toNat
    have digits (c : Char) (member : c ∈ fixedDigits 4 y.toNat) : c.isDigit :=
      isDigit_of_mem_fixedDigits member
    have number := @shortNumber?_append 4 _ ('-' :: rest) shown digits (by simp) (by simp)
    rw [digitsValue_fixedDigits fits] at number
    rw [year?_append shown digits, number, Option.map_some]
    change some ((y.toNat : Int), '-' :: rest) = some (y, '-' :: rest)
    rw [Int.toNat_of_nonneg four.1]
  · next long =>
    rw [List.cons_append]
    rcases Int.lt_or_le y 0 with below | above
    · rw [if_pos below, year?, signed rest, Option.map_some]
      change some (-(y.natAbs : Int), '-' :: rest) = some (y, '-' :: rest)
      rw [show -(y.natAbs : Int) = y by omega]
    · rw [if_neg (by omega), year?, signed rest, Option.map_some]
      change some ((y.natAbs : Int), '-' :: rest) = some (y, '-' :: rest)
      rw [show (y.natAbs : Int) = y by omega]

private theorem fraction?_digits {places n : Nat} {c : Char} (wide : 0 < places) (few : places ≤ 9)
    (fits : n < 10 ^ places) (stop : c.isDigit = false) (rest : List Char) :
    fraction? ('.' :: (fixedDigits places n ++ c :: rest)) =
      some (n * 10 ^ (9 - places), c :: rest) := by
  have digits (d : Char) (member : d ∈ fixedDigits places n) : d.isDigit :=
    isDigit_of_mem_fixedDigits member
  have shown : (fixedDigits places n).isEmpty = false := by simpa using fixedDigits_ne_nil wide n
  have taken : (fixedDigits places n).take 9 = fixedDigits places n :=
    List.take_of_length_le (by simpa using few)
  simp only [fraction?, digitRun_append_stop digits stop, shown, Bool.false_eq_true, if_false,
    taken, digitsValue_fixedDigits fits, length_fixedDigits, powerOfTen]
  rfl

private theorem exists_fractionText_eq {n : Nat} (fits : n < 1000000000) (some_ : n ≠ 0) :
    ∃ places digits, 0 < places ∧ places ≤ 9 ∧ digits < 10 ^ places ∧
      digits * 10 ^ (9 - places) = n ∧ fractionText n = '.' :: fixedDigits places digits := by
  unfold fractionText
  rw [if_neg some_]
  split_ifs with millis micros
  · exact ⟨3,
      n / 1000000, by omega, by omega, by omega, by omega, by rw [padded_eq (by omega) (by omega)]⟩
  · exact ⟨6,
      n / 1000, by omega, by omega, by omega, by omega, by rw [padded_eq (by omega) (by omega)]⟩
  · exact ⟨9, n, by omega, by omega, by omega, by omega, by rw [padded_eq (by omega) (by omega)]⟩

private theorem fraction?_fractionText {n : Nat} (fits : n < 1000000000) (rest : List Char) :
    fraction? (fractionText n ++ 'Z' :: rest) = some (n, 'Z' :: rest) := by
  by_cases none : n = 0
  · rw [none]
    rfl
  · obtain ⟨places, digits, wide, few, small, value, text⟩ := exists_fractionText_eq fits none
    rw [text, List.cons_append, fraction?_digits wide few small rfl, value]

def timeOf (t : Instant) : Nat :=
  (t.seconds % 86400).toNat

/-- The second of the minute, an inserted one being the sixtieth. -/
def shownSecond (t : Instant) : Nat :=
  t.timeOf % 60 + t.nanos / 1000000000

private theorem timeOf_lt (t : Instant) : t.timeOf < 86400 := by
  unfold timeOf
  omega

private theorem seconds_eq (t : Instant) : t.dayOf * 86400 + t.timeOf = t.seconds := by
  unfold dayOf timeOf
  omega

private theorem monthLength_le (year : Int) (month : Nat) : monthLength year month ≤ 31 := by
  unfold monthLength
  repeat' split
  all_goals omega

private theorem IsProper.shownSecond_le {t : Instant} (proper : t.IsProper) :
    t.shownSecond ≤ 60 := by
  have range := proper.nanos_lt
  have inserted := proper.inserted
  unfold shownSecond timeOf
  omega

private theorem localText_append {t : Instant} (proper : t.IsProper) (offset : List Char) :
    t.localText ++ offset = yearText t.year ++ '-' ::
      (fixedDigits 2 (Date.ofDayNumber t.dayOf).month ++
      '-' ::
        (fixedDigits 2 (Date.ofDayNumber t.dayOf).day ++ 'T' :: (fixedDigits 2 (t.timeOf / 3600) ++
        ':' :: (fixedDigits 2 (t.timeOf / 60 % 60) ++ ':' :: (fixedDigits 2 t.shownSecond ++
          (fractionText (t.nanos % 1000000000) ++ offset)))))) := by
  have valid := isValid_ofDayNumber t.dayOf
  have month := valid.month_le
  have day := valid.day_le
  have length := monthLength_le (Date.ofDayNumber t.dayOf).year (Date.ofDayNumber t.dayOf).month
  have time := t.timeOf_lt
  have second := proper.shownSecond_le
  have days : Int.fdiv t.seconds 86400 = t.dayOf := Int.fdiv_eq_ediv_of_nonneg _ (by omega)
  have rest : (t.seconds - t.dayOf * 86400).toNat = t.timeOf := by
    have whole := t.seconds_eq
    omega
  unfold localText
  simp only [days, rest, List.append_assoc, List.cons_append]
  change yearText t.year ++ '-' ::
    (padded 2 _ ++ '-' :: (padded 2 _ ++ 'T' :: (padded 2 _ ++ ':' :: (padded 2 _ ++
    ':' :: (padded 2 t.shownSecond ++ _))))) = _
  rw [padded_eq (by omega) (by omega), padded_eq (by omega) (by omega),
    padded_eq (by omega) (by omega), padded_eq (by omega) (by omega),
    padded_eq (by omega) (by omega)]

private theorem trimStart_yearText (y : Int) (rest : List Char) :
    trimStart (yearText y ++ rest) = yearText y ++ rest := by
  unfold yearText
  split
  · obtain ⟨shown, digits, -⟩ := exists_padded_eq y.toNat
    exact trimStart_digits shown digits rest
  · split
    · rfl
    · rfl

private theorem le_year_iff {first : Int} {y : Int} (start : Date.ofDayNumber first = ⟨y, 1, 1⟩)
    (n : Int) :
    y ≤ (Date.ofDayNumber n).year ↔ first ≤ n := by
  constructor
  · intro years
    by_contra early
    have before := before_ofDayNumber (Int.not_le.mp early)
    have month := (isValid_ofDayNumber n).month_pos
    have day := (isValid_ofDayNumber n).day_pos
    rw [start] at before
    unfold Date.Before at before
    simp only at before
    omega
  · intro days
    rcases Int.lt_or_eq_of_le days with later | same
    · have before := before_ofDayNumber later
      rw [start] at before
      unfold Date.Before at before
      simp only at before
      omega
    · rw [← same, start]

private theorem isInCalendar_iff (t : Instant) :
    t.isInCalendar = true ↔ firstYear ≤ t.year ∧ t.year ≤ lastYear := by
  have opening : Date.ofDayNumber (Date.mk firstYear 1 1).dayNumber = ⟨firstYear, 1, 1⟩ := by decide
  have closing : Date.ofDayNumber (Date.mk (lastYear + 1) 1 1).dayNumber =
    ⟨lastYear + 1, 1, 1⟩ := by decide
  have first := le_year_iff opening t.dayOf
  have last := le_year_iff closing t.dayOf
  have days : Int.fdiv t.seconds 86400 = t.dayOf := Int.fdiv_eq_ediv_of_nonneg _ (by omega)
  simp only [isInCalendar, days, Bool.and_eq_true, decide_eq_true_eq]
  unfold year
  omega

private theorem bind_of_eq_some {α β : Type} {o : Option α} {a : α} (read : o = some a)
    (next : α → Option β) :
    (o >>= next) = next a := by
  rw [read]
  rfl

private theorem ofText?_parts {t : Instant} {year : Int} {month day hour minute second nanos : Nat}
    (valid : (Date.mk year month day).IsValid) (years : firstYear ≤ year ∧ year ≤ lastYear)
    (clock : hour ≤ 23 ∧ minute ≤ 59 ∧ second ≤ 60) (nanos_lt : nanos < 1000000000)
    (seconds : (Date.mk year month day).dayNumber * 86400 +
      (hour * 3600 + minute * 60 + if second = 60 then 59 else second : Nat) = t.seconds)
    (inserted : (if second = 60 then nanos + 1000000000 else nanos) = t.nanos)
    (inCalendar : t.isInCalendar = true) :
    ofText?
      (String.ofList (yearText year ++ '-' :: (fixedDigits 2 month ++ '-' :: (fixedDigits 2 day ++
      'T' :: (fixedDigits 2 hour ++ ':' :: (fixedDigits 2 minute ++ ':' :: (fixedDigits 2 second ++
        (fractionText nanos ++ ['Z'])))))))) = some t := by
  obtain ⟨month_pos, month_le, day_pos, day_le⟩ := valid
  have length := monthLength_le year month
  simp only at month_pos month_le day_pos day_le
  have zone : offset? (trimStart ['Z']) = some (0, []) := rfl
  have dash : isBlank '-' = false := by decide
  have colon : isBlank ':' = false := by decide
  rw [ofText?, String.toList_ofList, trimStart_yearText]
  refine (bind_of_eq_some (year?_yearText year _) _).trans ?_
  refine (bind_of_eq_some (mark?_cons dash _) _).trans ?_
  refine (bind_of_eq_some (pair?_fixedDigits (by omega) _) _).trans ?_
  refine (bind_of_eq_some (mark?_cons dash _) _).trans ?_
  refine (bind_of_eq_some (pair?_fixedDigits (by omega) _) _).trans ?_
  refine (bind_of_eq_some (pair?_fixedDigits (by omega) _) _).trans ?_
  refine (bind_of_eq_some (mark?_cons colon _) _).trans ?_
  refine (bind_of_eq_some (pair?_fixedDigits (by omega) _) _).trans ?_
  refine (bind_of_eq_some (mark?_cons colon _) _).trans ?_
  refine (bind_of_eq_some (pair?_fixedDigits (by omega) _) _).trans ?_
  refine (bind_of_eq_some (fraction?_fractionText nanos_lt _) _).trans ?_
  refine (bind_of_eq_some zone _).trans ?_
  have dated : (decide (month = 0) || decide (12 < month) || decide (day = 0) ||
      decide (monthLength year month < day)) = false := by
    simp only [Bool.or_eq_false_iff, decide_eq_false_iff_not]
    omega
  have timed : (decide (23 < hour) || decide (59 < minute) || decide (60 < second)) = false := by
    simp only [Bool.or_eq_false_iff, decide_eq_false_iff_not]
    omega
  have known : (decide (year < firstYear) || decide (lastYear < year)) = false := by
    simp only [Bool.or_eq_false_iff, decide_eq_false_iff_not]
    omega
  dsimp only
  rw [if_neg (by decide), dated, if_neg Bool.false_ne_true, timed, if_neg Bool.false_ne_true, known,
    if_neg Bool.false_ne_true, Int.sub_zero, seconds, inserted, if_pos inCalendar]

theorem ofText?_toText {t : Instant} (proper : t.IsProper) : ofText? t.toText = some t := by
  have time := t.timeOf_lt
  have whole := t.seconds_eq
  have range := proper.nanos_lt
  have inserted := proper.inserted
  have years := (isInCalendar_iff t).mp proper.inCalendar
  have shown : t.shownSecond = 60 ↔ 1000000000 ≤ t.nanos := by
    unfold shownSecond timeOf
    omega
  have second : t.shownSecond = t.timeOf % 60 ∨ t.shownSecond = 60 ∧ t.timeOf % 60 = 59 := by
    unfold shownSecond timeOf
    omega
  rw [toText, localText_append proper]
  refine ofText?_parts (isValid_ofDayNumber t.dayOf) years
    ⟨by omega, by omega, proper.shownSecond_le⟩ (by omega) ?_ ?_
    proper.inCalendar
  · change (Date.ofDayNumber t.dayOf).dayNumber * 86400 + _ = _
    rw [dayNumber_ofDayNumber]
    split_ifs <;> omega
  · split_ifs <;> omega

/-- An instant of the calendar, with the nanoseconds of a second or of one inserted after it. -/
structure IsValid (t : Instant) : Prop where
  nanos_lt : t.nanos < 2000000000
  inCalendar : t.isInCalendar = true

/-- Whether a second is inserted elsewhere than at the end of a minute. -/
def IsMisplaced (t : Instant) : Prop :=
  1000000000 ≤ t.nanos ∧ t.seconds % 60 ≠ 59

instance (t : Instant) : Decidable t.IsMisplaced :=
  inferInstanceAs (Decidable (_ ∧ _))

/-- An instant as its text is read: a second that is inserted within a minute is the next one. -/
def settled (t : Instant) : Instant :=
  if t.IsMisplaced then ⟨t.seconds + 1, t.nanos - 1000000000⟩ else t

theorem IsProper.isValid {t : Instant} (proper : t.IsProper) : t.IsValid :=
  ⟨proper.nanos_lt, proper.inCalendar⟩

theorem settled_eq_self_iff {t : Instant} : t.settled = t ↔ ¬t.IsMisplaced := by
  unfold settled
  split
  · next misplaced =>
    refine iff_of_false (fun same => ?_) (not_not_intro misplaced)
    have seconds : t.seconds + 1 = t.seconds := congrArg Instant.seconds same
    omega
  · next placed => exact iff_of_true rfl placed

private theorem IsMisplaced.dayOf_eq {t : Instant} (misplaced : t.IsMisplaced) :
    (t.seconds + 1) / 86400 = t.dayOf ∧ ((t.seconds + 1) % 86400).toNat = t.timeOf + 1 ∧
      t.timeOf % 60 < 59 := by
  have within := misplaced.2
  unfold dayOf timeOf
  omega

theorem isProper_settled {t : Instant} (valid : t.IsValid) : t.settled.IsProper := by
  unfold settled
  split
  · next misplaced =>
    have day : Int.fdiv (t.seconds + 1) 86400 = Int.fdiv t.seconds 86400 := by
      rw [Int.fdiv_eq_ediv_of_nonneg _ (by decide), Int.fdiv_eq_ediv_of_nonneg _ (by decide)]
      exact misplaced.dayOf_eq.1
    have range := valid.nanos_lt
    refine ⟨by simp only; omega, fun inserted => ?_, ?_⟩
    · simp only at inserted
      omega
    · have inCalendar := valid.inCalendar
      simp only [isInCalendar, day] at inCalendar ⊢
      exact inCalendar
  · next placed =>
    exact ⟨valid.nanos_lt, fun inserted => by_contra fun within => placed ⟨inserted, within⟩,
      valid.inCalendar⟩

theorem toText_settled {t : Instant} (valid : t.IsValid) : t.settled.toText = t.toText := by
  unfold settled
  split
  · next misplaced =>
    obtain ⟨day, time, within⟩ := misplaced.dayOf_eq
    have range := valid.nanos_lt
    have inserted := misplaced.1
    have whole := t.seconds_eq
    have days : Int.fdiv t.seconds 86400 = t.dayOf := Int.fdiv_eq_ediv_of_nonneg _ (by decide)
    have days' : Int.fdiv (t.seconds + 1) 86400 = t.dayOf :=
      (Int.fdiv_eq_ediv_of_nonneg _ (by decide)).trans day
    have rest : (t.seconds - t.dayOf * 86400).toNat = t.timeOf := by omega
    have rest' : (t.seconds + 1 - t.dayOf * 86400).toNat = t.timeOf + 1 := by omega
    have shown : t.nanos / 1000000000 = 1 ∧ (t.nanos - 1000000000) / 1000000000 = 0 := by omega
    have hours : (t.timeOf + 1) / 3600 = t.timeOf / 3600 := by omega
    have minutes : (t.timeOf + 1) / 60 % 60 = t.timeOf / 60 % 60 := by omega
    have seconds : (t.timeOf + 1) % 60 + 0 = t.timeOf % 60 + 1 := by omega
    have fraction : (t.nanos - 1000000000) % 1000000000 = t.nanos % 1000000000 := by omega
    simp only [toText, localText, days, days', rest, rest', shown, hours, minutes, seconds,
      fraction]
  · rfl

theorem ofText?_toText_settled {t : Instant} (valid : t.IsValid) :
    ofText? t.toText = some t.settled := by
  rw [← toText_settled valid, ofText?_toText (isProper_settled valid)]

private theorem fixedDigits_append_lt {width a b : Nat} {s t : List Char} (fits : b < 10 ^ width)
    (less : a < b ∨ a = b ∧ s < t) : fixedDigits width a ++ s < fixedDigits width b ++ t := by
  rcases less with number | ⟨rfl, later⟩
  · exact append_lt_append_of_lt (fixedDigits_lt_fixedDigits number fits) (by simp) _ _
  · exact List.append_left_lt later

private theorem plus_lt_fixedDigits {width : Nat} (wide : 0 < width) (n : Nat) (s t : List Char) :
    '+' :: s < fixedDigits width n ++ t := by
  obtain ⟨c, after, text⟩ := List.exists_cons_of_ne_nil (fixedDigits_ne_nil wide n)
  have digit : c.isDigit := isDigit_of_mem_fixedDigits (by rw [text]; exact List.mem_cons_self)
  have code : 48 ≤ c.toNat := by
    simp only [Char.isDigit, Bool.and_eq_true, decide_eq_true_eq, ge_iff_le, UInt32.le_iff_toNat_le]
      at digit
    exact digit.1
  rw [text, List.cons_append, List.cons_lt_cons_iff]
  left
  rw [Char.lt_def, UInt32.lt_iff_toNat_lt]
  change 43 < c.toNat
  omega

/-- Leading digits of nine places before a plus sign: the smaller number has the smaller text,
however many places are written. -/
private theorem leadingDigits_lt {k k' a b : Nat} (few : k ≤ 9) (few' : k' ≤ 9) (fits : a < 10 ^ k)
    (fits' : b < 10 ^ k') (less : a * 10 ^ (9 - k) < b * 10 ^ (9 - k')) (s : List Char) :
    fixedDigits k a ++ '+' :: s < fixedDigits k' b ++ '+' :: s := by
  rcases Nat.le_total k k' with longer | shorter
  · obtain ⟨more, rfl⟩ := Nat.exists_eq_add_of_le longer
    have scaled : a * 10 ^ more < b := by
      have power : 10 ^ (9 - k) = 10 ^ more * 10 ^ (9 - (k + more)) := by
        rw [← Nat.pow_add]
        congr 1
        omega
      rw [power, ← Nat.mul_assoc] at less
      exact Nat.lt_of_mul_lt_mul_right less
    have positive : 0 < 10 ^ more := Nat.pow_pos (by omega)
    have front : b / 10 ^ more < 10 ^ k := by
      rw [Nat.div_lt_iff_lt_mul positive, ← Nat.pow_add]
      exact fits'
    rw [fixedDigits_append, List.append_assoc]
    refine fixedDigits_append_lt front ?_
    have least : a ≤ b / 10 ^ more := by
      rw [Nat.le_div_iff_mul_le positive]
      exact Nat.le_of_lt scaled
    rcases Nat.lt_or_eq_of_le least with below | same
    · exact .inl below
    · refine .inr ⟨same, plus_lt_fixedDigits ?_ _ _ _⟩
      -- Without a further place the two numbers would be the same.
      rcases Nat.eq_zero_or_pos more with rfl | some_
      · rw [Nat.pow_zero] at same scaled
        omega
      · exact some_
  · obtain ⟨more, rfl⟩ := Nat.exists_eq_add_of_le shorter
    have scaled : a < b * 10 ^ more := by
      have power : 10 ^ (9 - k') = 10 ^ more * 10 ^ (9 - (k' + more)) := by
        rw [← Nat.pow_add]
        congr 1
        omega
      rw [power, ← Nat.mul_assoc] at less
      exact Nat.lt_of_mul_lt_mul_right less
    have positive : 0 < 10 ^ more := Nat.pow_pos (by omega)
    rw [fixedDigits_append, List.append_assoc]
    refine fixedDigits_append_lt fits' (.inl ?_)
    rwa [Nat.div_lt_iff_lt_mul positive]

private theorem fractionText_lt {n n' : Nat} (less : n < n') (fits : n' < 1000000000)
    (s : List Char) :
    fractionText n ++ '+' :: s < fractionText n' ++ '+' :: s := by
  obtain ⟨k', b, -, few', small', value', text'⟩ := exists_fractionText_eq fits (by omega)
  rw [text', List.cons_append]
  by_cases none : n = 0
  · rw [none]
    change '+' :: s < '.' :: _
    rw [List.cons_lt_cons_iff]
    exact .inl (by decide)
  · obtain ⟨k, a, -, few, small, value, text⟩ :=
      exists_fractionText_eq (Nat.lt_trans less fits) none
    rw [text, List.cons_append, List.cons_lt_cons_iff]
    refine .inr ⟨rfl, leadingDigits_lt few few' small small' ?_ s⟩
    rwa [value, value']

def Earlier (t t' : Instant) : Prop :=
  t.seconds < t'.seconds ∨ t.seconds = t'.seconds ∧ t.nanos < t'.nanos

/-- A year that is written in four digits. -/
def HasShortYear (t : Instant) : Prop :=
  0 ≤ t.year ∧ t.year ≤ 9999

private theorem field_append_lt {width a b : Nat} {s t : List Char} (mark : Char)
    (fits : b < 10 ^ width)
    (less : a < b ∨ a = b ∧ s < t) :
    fixedDigits width a ++ mark :: s < fixedDigits width b ++ mark :: t := by
  refine fixedDigits_append_lt fits (less.imp_right (And.imp_right fun later => ?_))
  rw [List.cons_lt_cons_iff]
  exact .inr ⟨rfl, later⟩

private theorem clock_lt {t t' : Instant} (proper : t.IsProper) (proper' : t'.IsProper)
    (less : t.timeOf < t'.timeOf ∨ t.timeOf = t'.timeOf ∧ t.nanos < t'.nanos) (s : List Char) :
    fixedDigits 2 (t.timeOf / 3600) ++ ':' :: (fixedDigits 2 (t.timeOf / 60 % 60) ++ ':' ::
        (fixedDigits 2 t.shownSecond ++ (fractionText (t.nanos % 1000000000) ++ '+' :: s))) <
      fixedDigits 2 (t'.timeOf / 3600) ++ ':' :: (fixedDigits 2 (t'.timeOf / 60 % 60) ++ ':' ::
        (fixedDigits 2 t'.shownSecond ++ (fractionText (t'.nanos % 1000000000) ++ '+' :: s))) := by
  have time := t'.timeOf_lt
  have second := proper'.shownSecond_le
  have order : t.timeOf / 3600 < t'.timeOf / 3600 ∨ t.timeOf / 3600 = t'.timeOf / 3600 ∧
      (t.timeOf / 60 % 60 < t'.timeOf / 60 % 60 ∨ t.timeOf / 60 % 60 = t'.timeOf / 60 % 60 ∧
        (t.shownSecond < t'.shownSecond ∨ t.shownSecond = t'.shownSecond ∧
          t.nanos % 1000000000 < t'.nanos % 1000000000)) := by
    have range := proper.nanos_lt
    have range' := proper'.nanos_lt
    have inserted := proper.inserted
    -- An inserted second stands at the end of its minute.
    have last : t.nanos / 1000000000 = 0 ∨ t.nanos / 1000000000 = 1 ∧ t.timeOf % 60 = 59 := by
      unfold timeOf
      omega
    unfold shownSecond
    omega
  refine field_append_lt ':' (by omega) (order.imp_right (And.imp_right fun order => ?_))
  refine field_append_lt ':' (by omega) (order.imp_right (And.imp_right fun order => ?_))
  refine fixedDigits_append_lt (by omega) (order.imp_right (And.imp_right fun order => ?_))
  exact fractionText_lt order (by omega) s

private theorem toList_toOffsetText {t : Instant} (proper : t.IsProper) (short : t.HasShortYear) :
    t.toOffsetText.toList = fixedDigits 4 t.year.toNat ++ '-' ::
      (fixedDigits 2 (Date.ofDayNumber t.dayOf).month ++
      '-' ::
        (fixedDigits 2 (Date.ofDayNumber t.dayOf).day ++ 'T' :: (fixedDigits 2 (t.timeOf / 3600) ++
        ':' :: (fixedDigits 2 (t.timeOf / 60 % 60) ++ ':' :: (fixedDigits 2 t.shownSecond ++
          (fractionText (t.nanos % 1000000000) ++ '+' :: ['0', '0', ':', '0', '0'])))))) := by
  have offset : "+00:00".toList = '+' :: ['0', '0', ':', '0', '0'] := rfl
  obtain ⟨first, last⟩ := short
  rw [toOffsetText, String.toList_ofList, localText_append proper, yearText, if_pos ⟨first, last⟩,
    padded_eq (by omega) (by omega), offset]

theorem toOffsetText_lt {t t' : Instant} (proper : t.IsProper) (proper' : t'.IsProper)
    (short : t.HasShortYear)
    (short' : t'.HasShortYear) (earlier : t.Earlier t') : t.toOffsetText < t'.toOffsetText := by
  have valid := isValid_ofDayNumber t'.dayOf
  have length := monthLength_le (Date.ofDayNumber t'.dayOf).year (Date.ofDayNumber t'.dayOf).month
  have month := valid.month_le
  have day := valid.day_le
  have years : 0 ≤ t.year ∧ 0 ≤ t'.year ∧ t'.year ≤ 9999 := ⟨short.1, short'⟩
  have order : t.year.toNat < t'.year.toNat ∨ t.year.toNat = t'.year.toNat ∧
      ((Date.ofDayNumber t.dayOf).month < (Date.ofDayNumber t'.dayOf).month ∨
        (Date.ofDayNumber t.dayOf).month = (Date.ofDayNumber t'.dayOf).month ∧
          ((Date.ofDayNumber t.dayOf).day < (Date.ofDayNumber t'.dayOf).day ∨
            (Date.ofDayNumber t.dayOf).day = (Date.ofDayNumber t'.dayOf).day ∧
              (t.timeOf < t'.timeOf ∨ t.timeOf = t'.timeOf ∧ t.nanos < t'.nanos))) := by
    have whole := t.seconds_eq
    have whole' := t'.seconds_eq
    have time := t.timeOf_lt
    have time' := t'.timeOf_lt
    unfold Earlier at earlier
    rcases lt_trichotomy t.dayOf t'.dayOf with before | same | after
    · have dates := before_ofDayNumber before
      unfold Date.Before at dates
      unfold year at years ⊢
      omega
    · have years : t.year = t'.year := by rw [year, year, same]
      rw [years, same]
      omega
    · omega
  rw [String.lt_iff_toList_lt, toList_toOffsetText proper short, toList_toOffsetText proper' short']
  refine field_append_lt '-' (by omega) (order.imp_right (And.imp_right fun order => ?_))
  refine field_append_lt '-' (by omega) (order.imp_right (And.imp_right fun order => ?_))
  refine field_append_lt 'T' (by omega) (order.imp_right (And.imp_right fun order => ?_))
  exact clock_lt proper proper' order _

end AuditPanel.Instant
