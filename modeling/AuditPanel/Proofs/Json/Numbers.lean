import AuditPanel.Proofs.Decimal.Digits
import AuditPanel.Proofs.Decimal.Kind
import AuditPanel.Proofs.Decimal.Shortest
import AuditPanel.Proofs.Json.Printer

/-!
The texts of numbers. A whole number of 64 bits is read back as itself. The text of a finite double
is that of a real number, so it is read as some double or refused for its size, whatever follows it.
Which double is another matter: the reader scales a significand and rounds as it goes, so that it
need not find the one that was written.
-/

set_option autoImplicit false

namespace AuditPanel.Json

open Decimal

theorem toList_toString_int (n : Int) :
    (toString n).toList = if 0 ≤ n then digitText n.toNat else '-' :: digitText (-n).toNat := by
  rw [Int.toString_eq_repr, Int.repr_eq_if]
  split
  · rw [Nat.repr_eq_ofList_toDigits, String.toList_ofList]
    rfl
  · rw [String.toList_append, Nat.repr_eq_ofList_toDigits]
    simp [digitText]

theorem takeDigits_eq {s : List Char} {n : Nat}
    (fits : s.foldl (fun n c => 10 * n + (c.toNat - '0'.toNat)) n < wordBound) :
    takeDigits n s = (s.foldl (fun n c => 10 * n + (c.toNat - '0'.toNat)) n, []) := by
  induction s generalizing n with
  | nil => rfl
  | cons c s ih =>
    rw [List.foldl_cons] at fits ⊢
    have grows (s : List Char) (m : Nat) :
        m ≤ s.foldl (fun n c => 10 * n + (c.toNat - '0'.toNat)) m := by
      induction s generalizing m with
      | nil => exact Nat.le_refl m
      | cons c s ih => exact Nat.le_trans (by omega) (ih (10 * m + (c.toNat - '0'.toNat)))
    have next : 10 * n + (c.toNat - '0'.toNat) < wordBound := Nat.lt_of_le_of_lt (grows s _) fits
    rw [takeDigits, if_pos next, ih fits]

private theorem isWritten_digitText (n : Nat) {fraction : Option (List Char)}
    (some_ : fraction ≠ some []) :
    isWritten (digitText n) fraction = true := by
  have shown : (digitText n).isEmpty = false := by simpa using digitText_ne_nil n
  have lead : ((digitText n).head? == some '0' && decide (1 < (digitText n).length)) = false := by
    rcases Nat.eq_zero_or_pos n with rfl | positive
    · rfl
    · have head := head?_digitText positive
      rw [Bool.and_eq_false_iff]
      exact .inl (by simpa using head)
  simpa [isWritten, shown, lead] using some_

theorem readScalar_nat {n : Nat} (fits : n < 1 <<< 64) :
    readScalar (text (.nat n)) = some (.nat n, []) := by
  have digits (c : Char) (member : c ∈ digitText n) : c.isDigit := isDigit_of_mem_digitText member
  have taken : takeDigits 0 (digitText n) = (n, []) := by
    have value := digitsValue_digitText n
    unfold digitsValue at value
    rw [takeDigits_eq, value]
    rw [value]
    exact fits
  have written : text (.nat n) = digitText n := by
    change (toString (n : Int)).toList = _
    rw [toList_toString_int, if_pos (by omega), Int.toNat_natCast]
  have read : readMagnitude false (digitText n) = some (.nat n, []) := by
    rw [readMagnitude_eq_some_iff, digitRun_digits digits]
    refine ⟨isWritten_digitText n nofun, none, rfl, ?_⟩
    simp [magnitudeOf?, fractionRun, taken, wholeNumber, nat]
  obtain ⟨c, after, split⟩ := List.exists_cons_of_ne_nil (digitText_ne_nil n)
  rw [written, split, readScalar_digit (digits c (by simp [split])), ← split, read]

/-- The text of a real number without its sign: whole digits, then a fraction or an exponent or
both. -/
structure RealParts where
  whole : List Char
  fraction : Option (List Char)
  exponent : Option Int
  whole_digits : ∀ c ∈ whole, c.isDigit
  whole_ne_nil : whole ≠ []
  lead : whole.head? = some '0' → whole.length = 1
  fraction_digits : ∀ s, fraction = some s → s ≠ [] ∧ ∀ c ∈ s, c.isDigit
  isReal : fraction ≠ none ∨ exponent ≠ none

namespace RealParts

def fractionText (p : RealParts) : List Char :=
  p.fraction.elim [] ('.' :: ·)

def exponentText (p : RealParts) : List Char :=
  p.exponent.elim [] fun e => 'e' :: (toString e).toList

def text (p : RealParts) : List Char :=
  p.whole ++ (p.fractionText ++ p.exponentText)

/-- The exponent as a reader takes it: whether it is negative, and its digits. -/
def mark (p : RealParts) : Option (Bool × List Char) :=
  p.exponent.map fun e => (decide (e < 0), digitText e.natAbs)

private theorem readExponent_text (p : RealParts) :
    readExponent p.exponentText = some (p.mark, []) := by
  unfold exponentText mark
  cases p.exponent with
  | none => rfl
  | some e =>
    have read (n : Nat) (down : Bool) {s : List Char} (sign : signed s = (down, digitText n)) :
        readExponent ('e' :: s) = some (some (down, digitText n), []) := by
      have digits (c : Char) (member : c ∈ digitText n) : c.isDigit :=
        isDigit_of_mem_digitText member
      have shown : (digitText n).isEmpty = false := by simpa using digitText_ne_nil n
      simp [readExponent, sign, digitRun_digits digits, shown]
    rw [Option.elim_some, toList_toString_int, Option.map_some]
    split
    · next positive =>
      have plain (n : Nat) : signed (digitText n) = (false, digitText n) := by
        obtain ⟨c, after, split⟩ := List.exists_cons_of_ne_nil (digitText_ne_nil n)
        have digit : c.isDigit := isDigit_of_mem_digitText (n := n) (by simp [split])
        rw [split, signed]
        · rintro _ ⟨⟩
          cases digit
        · rintro _ ⟨⟩
          cases digit
      rw [decide_eq_false (by omega), show e.natAbs = e.toNat by omega]
      exact read _ false (plain _)
    · next negative =>
      rw [decide_eq_true (by omega), show e.natAbs = (-e).toNat by omega]
      exact read _ true rfl

private theorem digitRun_exponentText {s : List Char} (p : RealParts)
    (digits : ∀ c ∈ s, c.isDigit) :
    digitRun (s ++ p.exponentText) = (s, p.exponentText) := by
  unfold exponentText
  cases p.exponent with
  | none => rw [Option.elim_none, List.append_nil, digitRun_digits digits]
  | some e => exact digitRun_append_stop digits rfl

private theorem digitRun_text (p : RealParts) :
    digitRun p.text = (p.whole, p.fractionText ++ p.exponentText) := by
  unfold text fractionText
  cases p.fraction with
  | none => exact p.digitRun_exponentText p.whole_digits
  | some s => exact digitRun_append_stop p.whole_digits rfl

private theorem fractionRun_text (p : RealParts) :
    fractionRun (p.fractionText ++ p.exponentText) = (p.fraction, p.exponentText) := by
  unfold fractionText
  cases found : p.fraction with
  | none =>
    rw [Option.elim_none, List.nil_append]
    refine fractionRun_plain ?_
    unfold exponentText
    cases p.exponent <;> rintro _ ⟨⟩
  | some s =>
    have digits := (p.fraction_digits s found).2
    simp only [Option.elim_some, List.cons_append, fractionRun, p.digitRun_exponentText digits]

private theorem isWritten_parts (p : RealParts) : isWritten p.whole p.fraction = true := by
  have shown : p.whole.isEmpty = false := by simpa using p.whole_ne_nil
  have lead : (p.whole.head? == some '0' && decide (1 < p.whole.length)) = false := by
    rw [Bool.and_eq_false_iff, beq_eq_false_iff_ne, decide_eq_false_iff_not]
    by_cases zero : p.whole.head? = some '0'
    · exact .inr (by rw [p.lead zero]; omega)
    · exact .inl zero
  have digits : p.fraction ≠ some [] := fun empty => (p.fraction_digits [] empty).1 rfl
  simpa [isWritten, shown, lead] using digits

/-- The double that is read for the text after a sign, unless it is too great. -/
def read? (p : RealParts) (negative : Bool) : Option Float :=
  let (n, left) := takeDigits 0 p.whole
  let (n, unused) := takeDigits n (p.fraction.getD [])
  realOf? negative n ((left.length : Int) - (((p.fraction.getD []).length : Int) - unused.length))
    p.mark

private theorem magnitudeOf?_parts (p : RealParts) (negative : Bool) :
    magnitudeOf? negative p.whole p.fraction p.mark = (p.read? negative).map .real := by
  have real := p.isReal
  unfold magnitudeOf? read? mark
  cases fraction : p.fraction with
  | some s => rfl
  | none =>
    cases exponent : p.exponent with
    | some e => simp [takeDigits]
    | none => simp [fraction, exponent] at real

private theorem readMagnitude_text (p : RealParts) (negative : Bool) {t : List Char}
    (delimited : IsDelimited t) :
    readMagnitude negative (p.text ++ t) = (p.read? negative).map fun x => (.real x, t) := by
  rw [readMagnitude_eq, digitRun_delimited delimited, p.digitRun_text,
    fractionRun_delimited delimited, p.fractionRun_text, if_pos p.isWritten_parts,
    readExponent_delimited delimited p.readExponent_text, Option.bind_some, p.magnitudeOf?_parts,
    Option.map_map, List.nil_append]
  rfl

end RealParts

private theorem isDigit_of_mem_zeros_append {n k : Nat} {c : Char}
    (member : c ∈ List.replicate k '0' ++ digitText n) :
    c.isDigit := by
  rcases List.mem_append.mp member with zero | digit
  · rw [(List.mem_replicate.mp zero).2]
    rfl
  · exact isDigit_of_mem_digitText digit

namespace RealParts

def digits (p : RealParts) : List Char :=
  p.whole ++ p.fraction.getD []

def scale (p : RealParts) : Int :=
  p.exponent.getD 0 - (p.fraction.getD []).length

/-- Whether the text writes a decimal, perhaps with zeros behind its digits. -/
structure Writes (p : RealParts) (d : Scientific) : Prop where
  value : ∃ zeros : Nat, digitsValue p.digits = d.digits * 10 ^ zeros ∧ p.scale = d.exponent - zeros
  short : p.whole.length ≤ 16
  exponent : ∀ e, p.exponent = some e → e = (digitText d.digits).length + d.exponent - 1

end RealParts

private theorem digitsValue_zeros (k : Nat) : digitsValue (List.replicate k '0') = 0 := by
  induction k with
  | zero => rfl
  | succ k ih => rw [List.replicate_succ', digitsValue_append, ih]; rfl

private theorem digitsValue_append_zeros (s : List Char) (k : Nat) :
    digitsValue (s ++ List.replicate k '0') = digitsValue s * 10 ^ k := by
  induction k with
  | zero => simp
  | succ k ih =>
    rw [List.replicate_succ', ← List.append_assoc, digitsValue_append, ih, Nat.pow_succ]
    change 10 * (digitsValue s * 10 ^ k) + 0 = _
    rw [Nat.add_zero, Nat.mul_comm 10, Nat.mul_assoc]

private theorem digitsValue_zeros_append (k : Nat) (s : List Char) :
    digitsValue (List.replicate k '0' ++ s) = digitsValue s := by
  rw [digitsValue_append, digitsValue_zeros]
  rfl

section Magnitudes

variable {d : Scientific}

private theorem isDigit_of_mem_append_zeros {n k : Nat} {c : Char}
    (member : c ∈ digitText n ++ List.replicate k '0') :
    c.isDigit :=
  isDigit_of_mem_zeros_append (List.mem_append.mpr (List.mem_append.mp member).symm)

private theorem exists_whole_parts (positive : 0 < d.digits) (whole : 0 ≤ d.exponent)
    (short : (digitText d.digits).length + d.exponent ≤ 16) :
    ∃ p : RealParts, digitText d.digits ++ List.replicate d.exponent.toNat '0' ++ ['.', '0'] =
      p.text ∧ p.Writes d := by
  have some_ := digitText_ne_nil d.digits
  have lead : (digitText d.digits ++ List.replicate d.exponent.toNat '0').head? = some '0' →
      (digitText d.digits ++ List.replicate d.exponent.toNat '0').length = 1 := by
    rw [List.head?_append_of_ne_nil _ some_]
    exact fun zero => absurd zero (head?_digitText positive)
  have fraction (s : List Char) (same : some ['0'] = some s) : s ≠ [] ∧ ∀ c ∈ s, c.isDigit := by
    cases same
    exact ⟨nofun, by simp⟩
  let p : RealParts := ⟨digitText d.digits ++ List.replicate d.exponent.toNat '0', some ['0'], none,
    fun _ member => isDigit_of_mem_append_zeros member, List.append_ne_nil_of_left_ne_nil some_ _,
    lead, fraction, .inl nofun⟩
  have digits : p.digits = digitText d.digits ++ List.replicate (d.exponent.toNat + 1) '0' := by
    simp [p, RealParts.digits, List.replicate_succ']
  refine ⟨p, by simp [p, RealParts.text, RealParts.fractionText, RealParts.exponentText],
    ⟨d.exponent.toNat + 1, ?_, ?_⟩, ?_, nofun⟩
  · rw [digits, digitsValue_append_zeros, digitsValue_digitText]
  · simp only [p, RealParts.scale, Option.getD_none, Option.getD_some, List.length_singleton]
    omega
  · simp only [p, List.length_append, List.length_replicate]
    omega

private theorem exists_pointed_parts (positive : 0 < d.digits) {point : Int}
    (place : (digitText d.digits).length + d.exponent = point) (above : 0 < point)
    (below : d.exponent < 0) (short : point ≤ 16) :
    ∃ p : RealParts, (digitText d.digits).take point.toNat ++ '.' ::
      (digitText d.digits).drop point.toNat = p.text ∧
      p.Writes d := by
  have digit (c : Char) (member : c ∈ digitText d.digits) : c.isDigit :=
    isDigit_of_mem_digitText member
  obtain ⟨k, next⟩ : ∃ k, point.toNat = k + 1 := Nat.exists_eq_succ_of_ne_zero (by omega)
  obtain ⟨c, after, split⟩ := List.exists_cons_of_ne_nil (digitText_ne_nil d.digits)
  have lead : ((digitText d.digits).take point.toNat).head? = some '0' →
      ((digitText d.digits).take point.toNat).length = 1 := by
    have head := head?_digitText positive
    rw [next, split] at *
    exact fun zero => absurd zero head
  have fraction (s : List Char) (same : some ((digitText d.digits).drop point.toNat) = some s) :
      s ≠ [] ∧ ∀ c ∈ s, c.isDigit := by
    cases same
    refine ⟨?_, fun c member => digit c (List.mem_of_mem_drop member)⟩
    rw [← List.length_pos_iff, List.length_drop]
    omega
  let p : RealParts :=
    ⟨(digitText d.digits).take point.toNat, some ((digitText d.digits).drop point.toNat), none,
    fun c member => digit c (List.mem_of_mem_take member), by
      simp [next, split], lead, fraction, .inl nofun⟩
  refine ⟨p, by simp [p, RealParts.text, RealParts.fractionText, RealParts.exponentText],
    ⟨0, ?_, ?_⟩, ?_, nofun⟩
  · simp [p, RealParts.digits, List.take_append_drop]
  · simp only [p, RealParts.scale, Option.getD_none, Option.getD_some, List.length_drop]
    omega
  · simp only [p, List.length_take]
    omega

private theorem exists_small_parts {point : Int}
    (place : (digitText d.digits).length + d.exponent = point) (below : point ≤ 0) :
    ∃ p : RealParts, '0' :: '.' :: List.replicate (-point).toNat '0' ++ digitText d.digits =
      p.text ∧ p.Writes d := by
  have fraction (s : List Char)
    (same : some (List.replicate (-point).toNat '0' ++ digitText d.digits) = some s) :
      s ≠ [] ∧ ∀ c ∈ s, c.isDigit := by
    cases same
    exact ⟨List.append_ne_nil_of_right_ne_nil _ (digitText_ne_nil _), fun c member =>
      isDigit_of_mem_zeros_append member⟩
  let p : RealParts :=
    ⟨['0'], some (List.replicate (-point).toNat '0' ++ digitText d.digits), none, by simp, nofun,
    fun _ => rfl, fraction, .inl nofun⟩
  refine ⟨p, by simp [p, RealParts.text, RealParts.fractionText, RealParts.exponentText],
    ⟨0, ?_, ?_⟩, ?_, nofun⟩
  · have digits : p.digits = List.replicate ((-point).toNat + 1) '0' ++ digitText d.digits := by
      simp [p, RealParts.digits, List.replicate_succ]
    rw [digits, digitsValue_zeros_append, digitsValue_digitText, Nat.pow_zero, Nat.mul_one]
  · simp only [p, RealParts.scale, Option.getD_none, Option.getD_some, List.length_append,
      List.length_replicate]
    omega
  · simp [p]

private theorem exists_scientific_parts {point : Int}
    (place : (digitText d.digits).length + d.exponent = point) :
    ∃ p : RealParts, (match digitText d.digits with
        | [] => []
        | [d0] => d0 :: 'e' :: (toString (point - 1)).toList
        | d0 :: rest => d0 :: '.' :: rest ++ 'e' :: (toString (point - 1)).toList) = p.text ∧
            p.Writes d := by
  have value := digitsValue_digitText d.digits
  have digits (c : Char) (member : c ∈ digitText d.digits) : c.isDigit :=
    isDigit_of_mem_digitText member
  obtain ⟨c, after, split⟩ := List.exists_cons_of_ne_nil (digitText_ne_nil d.digits)
  rw [split] at place value digits ⊢
  have digit (d0 : Char) (member : d0 ∈ [c]) : d0.isDigit := by
    rw [List.mem_singleton.mp member]
    exact digits c List.mem_cons_self
  cases after with
  | nil =>
    let p : RealParts :=
      ⟨[c], none, some (point - 1), digit, nofun, fun _ => rfl, nofun, .inr nofun⟩
    refine ⟨p, by simp [p, RealParts.text, RealParts.fractionText, RealParts.exponentText],
      ⟨0, ?_, ?_⟩, ?_, ?_⟩
    · simpa [p, RealParts.digits] using value
    · simp only [p, RealParts.scale, Option.getD_none, Option.getD_some, List.length_nil]
      rw [List.length_singleton] at place
      omega
    · simp [p]
    · rintro _ ⟨⟩
      rw [split, place]
  | cons c' after =>
    have fraction (s : List Char) (same : some (c' :: after) = some s) : s ≠ [] ∧ ∀ d0 ∈ s,
        d0.isDigit := by
      cases same
      exact ⟨nofun, fun d0 member => digits d0 (List.mem_cons_of_mem _ member)⟩
    let p : RealParts :=
      ⟨[c], some (c' :: after), some (point - 1), digit, nofun, fun _ => rfl, fraction, .inr nofun⟩
    refine ⟨p, by simp [p, RealParts.text, RealParts.fractionText, RealParts.exponentText],
      ⟨0, ?_, ?_⟩, ?_, ?_⟩
    · simpa [p, RealParts.digits] using value
    · simp only [p, RealParts.scale, Option.getD_some]
      rw [List.length_cons] at place
      omega
    · simp [p]
    · rintro _ ⟨⟩
      rw [split, place]

private theorem exists_magnitude_eq (positive : 0 < d.digits) :
    ∃ p : RealParts, recordLayout.magnitude d = p.text ∧ p.Writes d := by
  obtain ⟨point, place⟩ : ∃ point : Int, (digitText d.digits).length + d.exponent = point :=
    ⟨_, rfl⟩
  have made : recordLayout.magnitude d =
      if 0 ≤ d.exponent && decide (point ≤ 16) then
        digitText d.digits ++ List.replicate d.exponent.toNat '0' ++ ['.', '0']
      else if 0 < point && d.exponent < 0 && decide (point ≤ 16) then
        (digitText d.digits).take point.toNat ++ '.' :: (digitText d.digits).drop point.toNat
      else if point ≤ 0 && decide (-4 ≤ point) then
        '0' :: '.' :: List.replicate (-point).toNat '0' ++ digitText d.digits
      else match digitText d.digits with
        | [] => []
        | [d0] => d0 :: 'e' :: (toString (point - 1)).toList
        | d0 :: rest => d0 :: '.' :: rest ++ 'e' :: (toString (point - 1)).toList := by
    rw [← place]
    rfl
  rw [made]
  split_ifs with whole inside small
  · simp only [Bool.and_eq_true, decide_eq_true_eq] at whole
    exact exists_whole_parts positive whole.1 (by omega)
  · simp only [Bool.and_eq_true, decide_eq_true_eq] at inside
    exact exists_pointed_parts positive place inside.1.1 inside.1.2 inside.2
  · simp only [Bool.and_eq_true, decide_eq_true_eq] at small
    exact exists_small_parts place small.1
  · exact exists_scientific_parts place

end Magnitudes

def zeroParts : RealParts :=
  ⟨['0'], some ['0'], none, by simp, nofun, fun _ => rfl, by rintro _ ⟨⟩; exact ⟨nofun, by simp⟩,
    .inl nofun⟩

/-- A finite double is written as a real number with or without a minus sign: zero, or its shortest
digits. -/
theorem exists_realText_eq_signed {x : Float} (finite : x.isFinite = true) {q : Parts}
    (taken : kind x = .finite q) :
    ∃ p : RealParts, realText x = (if q.negative then '-' :: p.text else p.text) ∧
      if q.significand = 0 then p = zeroParts else p.Writes (shortest q) := by
  obtain ⟨number, bounded⟩ := isNaN_isInf_of_isFinite finite
  rw [realText, number, bounded, if_neg (by decide), Layout.render, taken]
  by_cases zero : q.significand = 0
  · refine ⟨zeroParts, ?_, by rw [if_pos zero]⟩
    simp only [if_pos zero]
    cases q.negative <;> rfl
  · obtain ⟨p, text, writes⟩ := exists_magnitude_eq (shortest_digits_pos (Nat.pos_of_ne_zero zero))
    refine ⟨p, ?_, by rwa [if_neg zero]⟩
    simp only [if_neg zero, text]
    cases q.negative <;> simp

theorem exists_realText_eq {x : Float} (finite : x.isFinite = true) :
    ∃ p : RealParts, realText x = p.text ∨ realText x = '-' :: p.text := by
  obtain ⟨q, taken⟩ := exists_kind_eq finite
  obtain ⟨p, text, -⟩ := exists_realText_eq_signed finite taken
  refine ⟨p, ?_⟩
  split at text
  · exact .inr text
  · exact .inl text

/-- The double that the text of a double is read as. -/
def reread? (x : Float) : Option Float :=
  match readScalar (realText x) with
  | some (.real y, _) => some y
  | _ => none

private theorem readScalar_parts (p : RealParts) (negative : Bool) {t : List Char}
    (delimited : IsDelimited t) :
    readScalar ((if negative then '-' :: p.text else p.text) ++ t) = (p.read? negative).map fun x =>
      (.real x, t) := by
  rw [← p.readMagnitude_text negative delimited]
  cases negative with
  | false =>
    obtain ⟨c, after, split⟩ := List.exists_cons_of_ne_nil p.whole_ne_nil
    have digit : c.isDigit := p.whole_digits c (by simp [split])
    rw [if_neg Bool.false_ne_true, RealParts.text, split]
    exact readScalar_digit digit _
  | true => rfl

theorem reread?_eq {x : Float} {p : RealParts} {negative : Bool}
    (text : realText x = if negative then '-' :: p.text else p.text) :
    reread? x = p.read? negative := by
  have read := readScalar_parts p negative (t := []) (by simp [IsDelimited])
  rw [← text, List.append_nil] at read
  rw [reread?, read]
  cases p.read? negative <;> rfl

theorem readScalar_finite {x : Float} (finite : x.isFinite = true) {t : List Char}
    (delimited : IsDelimited t) :
    readScalar (realText x ++ t) = (reread? x).map fun y => (.real y, t) := by
  obtain ⟨q, taken⟩ := exists_kind_eq finite
  obtain ⟨p, text, -⟩ := exists_realText_eq_signed finite taken
  rw [reread?_eq text, text, readScalar_parts p q.negative delimited]

end AuditPanel.Json
