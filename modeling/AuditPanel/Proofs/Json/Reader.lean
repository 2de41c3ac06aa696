import AuditPanel.Json.Reader
import Mathlib.Data.List.TakeWhile

/-!
The strict reader takes a value off the front of a text and looks at most one character beyond it.
So what it read stays the same when more text follows, and when it is allowed more items.
-/

set_option autoImplicit false

namespace AuditPanel.Json

variable {s t rest : List Char}

private theorem dropWhile_append_of_cons {p : Char → Bool} {c : Char}
    (h : s.dropWhile p = c :: rest) :
    (s ++ t).dropWhile p = c :: (rest ++ t) := by
  rw [List.dropWhile_append, h]
  rfl

private theorem skipSpace_append {c : Char} (h : skipSpace s = c :: rest) :
    skipSpace (s ++ t) = c :: (rest ++ t) :=
  dropWhile_append_of_cons h

private theorem readText_append {state : TextState} {out text : List Char}
    (h : readText state out s = some (text, rest)) :
    readText state out (s ++ t) = some (text, rest ++ t) := by
  induction s generalizing state out with
  | nil => simp [readText] at h
  | cons c s ih =>
    simp only [readText, List.cons_append] at h ⊢
    split at h
    · next closed =>
      simp only [Option.some.injEq, Prod.mk.injEq] at h
      obtain ⟨rfl, rfl⟩ := h
      rw [if_pos closed]
    · next inside =>
      rw [if_neg inside]
      split at h
      · cases h
      · exact ih h

theorem readString_append {text : String} (h : readString s = some (text, rest)) :
    readString (s ++ t) = some (text, rest ++ t) := by
  obtain ⟨⟨chars, after⟩, read, same⟩ := Option.map_eq_some_iff.mp h
  simp only [Prod.mk.injEq] at same
  obtain ⟨rfl, rfl⟩ := same
  simp only [readString, readText_append read, Option.map_some]

private theorem digitRun_append (h : (Decimal.digitRun s).2 ≠ []) :
    Decimal.digitRun (s ++ t) = ((Decimal.digitRun s).1, (Decimal.digitRun s).2 ++ t) := by
  obtain ⟨c, after, left⟩ := List.exists_cons_of_ne_nil h
  have dropped : s.dropWhile Char.isDigit = c :: after := left
  have taken : (s ++ t).takeWhile Char.isDigit = s.takeWhile Char.isDigit := by
    have whole :=
      congrArg List.length (List.takeWhile_append_dropWhile (p := Char.isDigit) (l := s))
    rw [List.length_append, dropped, List.length_cons] at whole
    rw [List.takeWhile_append, if_neg (by omega)]
  simp only [Decimal.digitRun, taken, dropWhile_append_of_cons dropped, dropped, List.cons_append]

theorem signed_append (h : s ≠ []) :
    Decimal.signed (s ++ t) = ((Decimal.signed s).1, (Decimal.signed s).2 ++ t) := by
  obtain ⟨c, after, rfl⟩ := List.exists_cons_of_ne_nil h
  simp only [Decimal.signed, List.cons_append]
  split <;> simp_all

private theorem ne_nil_of_readExponent {mark : Option (Bool × List Char)}
    (h : readExponent s = some (mark, rest)) (more : rest ≠ []) : s ≠ [] := by
  rintro rfl
  cases h
  exact more rfl

private theorem readExponent_append {mark : Option (Bool × List Char)}
    (h : readExponent s = some (mark, rest))
    (more : rest ≠ []) : readExponent (s ++ t) = some (mark, rest ++ t) := by
  obtain ⟨c, s, rfl⟩ := List.exists_cons_of_ne_nil (ne_nil_of_readExponent h more)
  simp only [readExponent, List.cons_append] at h ⊢
  split at h
  · next marked =>
    rw [if_pos marked]
    split at h
    · cases h
    · next digits =>
      cases h
      have present : s ≠ [] := by
        rintro rfl
        exact digits rfl
      rw [signed_append present, digitRun_append more, if_neg digits]
  · next plain =>
    cases h
    rw [if_neg plain]
    rfl

/-- The digits of a fraction, if a point opens one, and the rest. -/
def fractionRun : List Char → Option (List Char) × List Char
  | '.' :: s => ((Decimal.digitRun s).1, (Decimal.digitRun s).2)
  | s => (none, s)

theorem fractionRun_plain (plain : ∀ after, s ≠ '.' :: after) : fractionRun s = (none, s) := by
  unfold fractionRun
  split
  · exact absurd rfl (plain _)
  · rfl

private theorem fractionRun_append (h : (fractionRun s).2 ≠ []) :
    fractionRun (s ++ t) = ((fractionRun s).1, (fractionRun s).2 ++ t) := by
  by_cases point : ∃ after, s = '.' :: after
  · obtain ⟨after, rfl⟩ := point
    simp only [fractionRun, List.cons_append, digitRun_append h]
  · have plain : ∀ after, s ≠ '.' :: after := by simpa using point
    rw [fractionRun_plain plain] at h ⊢
    obtain ⟨c, after, rfl⟩ := List.exists_cons_of_ne_nil h
    refine fractionRun_plain ?_
    rintro _ ⟨⟩
    exact plain after rfl

/-- Whether digits can make up a number: no zero leads others, and a point is followed by some. -/
def isWritten (digits : List Char) (fraction : Option (List Char)) : Bool :=
  !(digits.isEmpty || (digits.head? == some '0' && 1 < digits.length)) && fraction != some []

/-- The number with a sign, digits, a fraction and an exponent part. -/
def magnitudeOf? (negative : Bool) (digits : List Char) (fraction : Option (List Char))
    (mark : Option (Bool × List Char)) : Option Json :=
  let (n, left) := takeDigits 0 digits
  match fraction, mark with
  | some fraction, mark =>
    let (n, unused) := takeDigits n fraction
    (realOf? negative n ((left.length : Int) - ((fraction.length : Int) - unused.length)) mark).map
      .real
  | none, none =>
    if left.isEmpty then some (wholeNumber negative n)
      else (realOf? negative n left.length none).map .real
  | none, mark => (realOf? negative n left.length mark).map .real

theorem readMagnitude_eq (negative : Bool) (s : List Char) :
    readMagnitude negative s =
      if isWritten (Decimal.digitRun s).1 (fractionRun (Decimal.digitRun s).2).1 then
        (readExponent (fractionRun (Decimal.digitRun s).2).2).bind fun x =>
          (magnitudeOf? negative (Decimal.digitRun s).1 (fractionRun (Decimal.digitRun s).2).1
            x.1).map (·, x.2)
      else none := by
  unfold readMagnitude
  obtain ⟨digits, after⟩ := Decimal.digitRun s
  simp only
  split
  · next bad => simp [isWritten, bad]
  · next good =>
    simp only [Bool.not_eq_true] at good
    split
    · next fraction =>
      by_cases empty : (Decimal.digitRun fraction).1 = []
      · simp [fractionRun, isWritten, good, empty]
      · simp only [fractionRun, isWritten, good, magnitudeOf?, empty, List.isEmpty_iff]
        cases readExponent (Decimal.digitRun fraction).2
          <;> simp [empty, Option.map_map, Function.comp_def]
    · next plain =>
      simp only [fractionRun_plain plain, isWritten, good, magnitudeOf?]
      rcases readExponent after with _ | ⟨_ | mark, left⟩
      · rfl
      · by_cases fits : (takeDigits 0 digits).2.isEmpty
          <;> simp [fits, Option.map_map, Function.comp_def]
      · simp [Option.map_map, Function.comp_def]

theorem readMagnitude_eq_some_iff {negative : Bool} {v : Json} :
    readMagnitude negative s = some (v, rest) ↔
      isWritten (Decimal.digitRun s).1 (fractionRun (Decimal.digitRun s).2).1 = true ∧
        ∃ mark, readExponent (fractionRun (Decimal.digitRun s).2).2 = some (mark, rest) ∧
          magnitudeOf? negative (Decimal.digitRun s).1 (fractionRun (Decimal.digitRun s).2).1 mark =
            some v := by
  rw [readMagnitude_eq, Option.ite_none_right_eq_some]
  refine and_congr_right fun _ => ?_
  simp only [Option.bind_eq_some_iff, Option.map_eq_some_iff, Prod.mk.injEq, Prod.exists]
  constructor
  · rintro ⟨mark, _, exponent, _, value, rfl, rfl⟩
    exact ⟨mark, exponent, value⟩
  · rintro ⟨mark, exponent, value⟩
    exact ⟨mark, rest, exponent, v, value, rfl, rfl⟩

private theorem readMagnitude_append {negative : Bool} {v : Json}
    (h : readMagnitude negative s = some (v, rest))
    (more : rest ≠ []) : readMagnitude negative (s ++ t) = some (v, rest ++ t) := by
  rw [readMagnitude_eq_some_iff] at h ⊢
  obtain ⟨written, mark, exponent, value⟩ := h
  -- Something is left after the exponent, so something is left after each part before it.
  have behindFraction := ne_nil_of_readExponent exponent more
  have behindDigits : (Decimal.digitRun s).2 ≠ [] := by
    intro none
    rw [none] at behindFraction
    exact behindFraction rfl
  rw [digitRun_append behindDigits, fractionRun_append behindFraction]
  exact ⟨written, mark, readExponent_append exponent more, value⟩

theorem isDigit_of_readMagnitude {negative : Bool} {v : Json}
    (h : readMagnitude negative s = some (v, rest)) :
    ∃ c after, s = c :: after ∧ c.isDigit := by
  have written := (readMagnitude_eq_some_iff.mp h).1
  cases s with
  | nil => simp [isWritten, Decimal.digitRun] at written
  | cons c after =>
    refine ⟨c, after, rfl, ?_⟩
    by_contra other
    simp [isWritten, Decimal.digitRun, other] at written

theorem readScalar_digit {c : Char} (h : c.isDigit) (s : List Char) :
    readScalar (c :: s) = readMagnitude false (c :: s) := by
  unfold readScalar
  split <;> first | rfl | (next same => cases same; cases h)

private theorem readScalar_append {v : Json} (h : readScalar s = some (v, rest))
    (more : rest ≠ []) :
    readScalar (s ++ t) = some (v, rest ++ t) := by
  unfold readScalar at h
  split at h
  · next after =>
    obtain ⟨⟨text, left⟩, read, same⟩ := Option.map_eq_some_iff.mp h
    cases same
    simp only [readScalar, List.cons_append, readString_append read, Option.map_some]
  · next after => exact readMagnitude_append h more
  · next after =>
    cases h
    rfl
  · next after =>
    cases h
    rfl
  · next after =>
    cases h
    rfl
  · next after =>
    obtain ⟨c, after, rfl, digit⟩ := isDigit_of_readMagnitude h
    rw [List.cons_append, readScalar_digit digit, ← List.cons_append]
    exact readMagnitude_append h more

section Inversion

variable {item : List Char → Option (Json × List Char)} {fuel depth : Nat} {v : Json}
  {after : List Char}

theorem readElements_cases {out : List Json}
    (h : readElements item (fuel + 1) out s = some (v, rest)) :
    ∃ element after, item s = some (element, after) ∧
      ((∃ left, skipSpace after = ',' :: left ∧ readElements item fuel (element :: out) left =
        some (v, rest)) ∨ skipSpace after = ']' :: rest ∧ v = .array (element :: out).reverse) := by
  simp only [readElements] at h
  split at h
  · cases h
  · next element after read =>
    refine ⟨element, after, read, ?_⟩
    split at h
    · next left comma => exact .inl ⟨left, comma, h⟩
    · next left close =>
      cases h
      exact .inr ⟨close, rfl⟩
    · cases h

theorem readMembers_cases {out : List (String × Json)}
    (h : readMembers item (fuel + 1) out s = some (v, rest)) :
    ∃ quoted key named valued value after, skipSpace s = '"' :: quoted ∧
      readString quoted = some (key, named) ∧
      skipSpace named = ':' :: valued ∧ item valued = some (value, after) ∧
      ((∃ left, skipSpace after = ',' :: left ∧ readMembers item fuel ((key, value) :: out) left =
        some (v, rest)) ∨
        skipSpace after = '\x7d' :: rest ∧ v = ofMembers ((key, value) :: out).reverse) := by
  simp only [readMembers] at h
  split at h
  · next quoted opened =>
    split at h
    · cases h
    · next key named text =>
      split at h
      · next valued colon =>
        split at h
        · cases h
        · next value after read =>
          refine ⟨quoted, key, named, valued, value, after, opened, text, colon, read, ?_⟩
          split at h
          · next left comma => exact .inl ⟨left, comma, h⟩
          · next left close =>
            cases h
            exact .inr ⟨close, rfl⟩
          · cases h
      · cases h
  · cases h

theorem readValue_array_empty (opened : skipSpace s = '[' :: after)
    (close : skipSpace after = ']' :: rest) :
    readValue fuel (depth + 1) s = some (.array [], rest) := by
  simp only [readValue, opened, close]

theorem readValue_object_empty (opened : skipSpace s = '\x7b' :: after)
    (close : skipSpace after = '\x7d' :: rest) :
    readValue fuel (depth + 1) s = some (.object [], rest) := by
  simp only [readValue, opened, close]

theorem readValue_array (opened : skipSpace s = '[' :: after)
    (filled : (skipSpace after).head? ≠ some ']') :
    readValue fuel (depth + 1) s = readElements (readValue fuel depth) fuel []
      (skipSpace after) := by
  simp only [readValue, opened]
  split
  · next left close => exact absurd (congrArg List.head? close) filled
  · rfl

theorem readValue_object (opened : skipSpace s = '\x7b' :: after)
    (filled : (skipSpace after).head? ≠ some '\x7d') :
    readValue fuel (depth + 1) s = readMembers (readValue fuel depth) fuel []
      (skipSpace after) := by
  simp only [readValue, opened]
  split
  · next left close => exact absurd (congrArg List.head? close) filled
  · rfl

theorem readValue_array_cases (opened : skipSpace s = '[' :: after)
    (h : readValue fuel (depth + 1) s = some (v, rest)) :
    skipSpace after = ']' :: rest ∧ v = .array [] ∨
      (skipSpace after).head? ≠ some ']' ∧
        readElements (readValue fuel depth) fuel [] (skipSpace after) = some (v, rest) := by
  by_cases empty : (skipSpace after).head? = some ']'
  · obtain ⟨left, close⟩ := List.head?_eq_some_iff.mp empty
    rw [readValue_array_empty opened close] at h
    cases h
    exact .inl ⟨close, rfl⟩
  · exact .inr ⟨empty, readValue_array opened empty ▸ h⟩

theorem readValue_object_cases (opened : skipSpace s = '\x7b' :: after)
    (h : readValue fuel (depth + 1) s = some (v, rest)) :
    skipSpace after = '\x7d' :: rest ∧ v = .object [] ∨
      (skipSpace after).head? ≠ some '\x7d' ∧
        readMembers (readValue fuel depth) fuel [] (skipSpace after) = some (v, rest) := by
  by_cases empty : (skipSpace after).head? = some '\x7d'
  · obtain ⟨left, close⟩ := List.head?_eq_some_iff.mp empty
    rw [readValue_object_empty opened close] at h
    cases h
    exact .inl ⟨close, rfl⟩
  · exact .inr ⟨empty, readValue_object opened empty ▸ h⟩

end Inversion

/-- Whether `item'` reads what `item` reads when more text follows, unless the text ends with the
value. -/
def Extends (item item' : List Char → Option (Json × List Char)) : Prop :=
  ∀ s v rest t, item s = some (v, rest) → rest ≠ [] → item' (s ++ t) = some (v, rest ++ t)

private theorem ne_nil_of_skipSpace {c : Char} (h : skipSpace s = c :: rest) : s ≠ [] := by
  rintro rfl
  cases h

section Containers

variable {item item' : List Char → Option (Json × List Char)} (extends_ : Extends item item')
  {fuel fuel' : Nat} {v : Json}
include extends_

private theorem readElements_append {out : List Json} (le : fuel ≤ fuel')
    (h : readElements item fuel out s = some (v, rest)) :
    readElements item' fuel' out (s ++ t) = some (v, rest ++ t) := by
  induction fuel generalizing fuel' out s with
  | zero => simp [readElements] at h
  | succ fuel ih =>
    cases fuel' with
    | zero => omega
    | succ fuel' =>
      obtain ⟨element, after, read, ⟨left, comma, further⟩ | ⟨close, rfl⟩⟩ := readElements_cases h
      · simp only [readElements, extends_ _ _ _ t read (ne_nil_of_skipSpace comma),
          skipSpace_append comma]
        exact ih (Nat.le_of_succ_le_succ le) further
      · simp only [readElements, extends_ _ _ _ t read (ne_nil_of_skipSpace close),
          skipSpace_append close]

private theorem readMembers_append {out : List (String × Json)} (le : fuel ≤ fuel')
    (h : readMembers item fuel out s = some (v, rest)) :
    readMembers item' fuel' out (s ++ t) = some (v, rest ++ t) := by
  induction fuel generalizing fuel' out s with
  | zero => simp [readMembers] at h
  | succ fuel ih =>
    cases fuel' with
    | zero => omega
    | succ fuel' =>
      obtain ⟨quoted, key, named, valued, value, after, opened, text, colon, read, behind⟩ :=
        readMembers_cases h
      have front := skipSpace_append (t := t) opened
      have middle := skipSpace_append (t := t) colon
      obtain ⟨left, comma, further⟩ | ⟨close, rfl⟩ := behind
      · simp only [readMembers, front, readString_append text, middle,
          extends_ _ _ _ t read (ne_nil_of_skipSpace comma), skipSpace_append comma]
        exact ih (Nat.le_of_succ_le_succ le) further
      · simp only [readMembers, front, readString_append text, middle,
          extends_ _ _ _ t read (ne_nil_of_skipSpace close), skipSpace_append close]

end Containers

private theorem readValue_nil (fuel depth : Nat) : readValue fuel depth [] = none := by
  cases depth <;> rfl

private theorem ne_nil_of_readElements {fuel depth : Nat} {out : List Json} {v : Json}
    (h : readElements (readValue fuel depth) fuel out s = some (v, rest)) : s ≠ [] := by
  rintro rfl
  cases fuel with
  | zero => simp [readElements] at h
  | succ fuel => simp [readElements, readValue_nil] at h

private theorem ne_nil_of_readMembers {item : List Char → Option (Json × List Char)} {fuel : Nat}
    {out : List (String × Json)} {v : Json} (h : readMembers item fuel out s = some (v, rest)) :
    s ≠ [] := by
  rintro rfl
  cases fuel <;> simp [readMembers, skipSpace] at h

private theorem readValue_append_of_open {fuel fuel' depth : Nat} {v : Json} {c : Char}
    {after : List Char}
    (extends_ : Extends (readValue fuel depth) (readValue fuel' depth)) (le : fuel ≤ fuel')
    (opened : skipSpace s = c :: after) (bracket : c = '[' ∨ c = '\x7b')
    (h : readValue fuel (depth + 1) s = some (v, rest)) :
    readValue fuel' (depth + 1) (s ++ t) = some (v, rest ++ t) := by
  rcases bracket with rfl | rfl
  · obtain ⟨close, rfl⟩ | ⟨filled, items⟩ := readValue_array_cases opened h
    · exact readValue_array_empty (skipSpace_append opened) (skipSpace_append close)
    · obtain ⟨c, left, found⟩ := List.exists_cons_of_ne_nil (ne_nil_of_readElements items)
      rw [found] at filled items
      rw [readValue_array (skipSpace_append opened) (by rwa [skipSpace_append found]),
        skipSpace_append found]
      exact readElements_append extends_ le items
  · obtain ⟨close, rfl⟩ | ⟨filled, members⟩ := readValue_object_cases opened h
    · exact readValue_object_empty (skipSpace_append opened) (skipSpace_append close)
    · obtain ⟨c, left, found⟩ := List.exists_cons_of_ne_nil (ne_nil_of_readMembers members)
      rw [found] at filled members
      rw [readValue_object (skipSpace_append opened) (by rwa [skipSpace_append found]),
        skipSpace_append found]
      exact readMembers_append extends_ le members

private theorem readValue_blank {fuel depth : Nat} (blank : skipSpace s = []) :
    readValue fuel depth s = none := by
  cases depth <;> simp only [readValue, blank] <;> rfl

theorem readValue_scalar {fuel depth : Nat} {c : Char} {after : List Char}
    (found : skipSpace s = c :: after)
    (scalar : ¬(c = '[' ∨ c = '\x7b')) : readValue fuel depth s = readScalar (c :: after) := by
  rw [not_or] at scalar
  cases depth
  all_goals
    simp only [readValue, found]
    split
    · next same =>
      cases same
      exact absurd rfl scalar.1
    · next same =>
      cases same
      exact absurd rfl scalar.2
    · rfl

theorem readValue_cases {fuel depth : Nat} {v : Json}
    (h : readValue fuel depth s = some (v, rest)) :
    ∃ c after, skipSpace s = c :: after ∧
      ((∃ inner, depth = inner + 1) ∧ (c = '[' ∨ c = '\x7b') ∨
        ¬(c = '[' ∨ c = '\x7b') ∧ readScalar (c :: after) = some (v, rest)) := by
  cases found : skipSpace s with
  | nil => simp [readValue_blank found] at h
  | cons c after =>
    refine ⟨c, after, rfl, ?_⟩
    by_cases bracket : c = '[' ∨ c = '\x7b'
    · left
      refine ⟨?_, bracket⟩
      cases depth with
      | zero => rcases bracket with rfl | rfl <;> simp [readValue, found] at h
      | succ inner => exact ⟨inner, rfl⟩
    · right
      rw [readValue_scalar found bracket] at h
      exact ⟨bracket, h⟩

/-- What a value is read as stays the same when more text follows, unless the value stood at the
end, and when containers may have more items. -/
private theorem readValue_append {fuel fuel' depth : Nat} (le : fuel ≤ fuel') :
    Extends (readValue fuel depth) (readValue fuel' depth) := by
  induction depth using Nat.strong_induction_on with
  | _ depth ih =>
    intro s v rest t h more
    obtain ⟨c, after, found, ⟨⟨inner, rfl⟩, bracket⟩ | ⟨scalar, read⟩⟩ := readValue_cases h
    · exact readValue_append_of_open (ih inner (Nat.lt_succ_self inner)) le found bracket h
    · rw [readValue_scalar (skipSpace_append found) scalar]
      exact readScalar_append read more

theorem readValue_object_append {fuel fuel' depth : Nat} {v : Json} (le : fuel ≤ fuel')
    (h : readValue fuel (depth + 1) ('\x7b' :: s) = some (v, rest)) :
    readValue fuel' (depth + 1) ('\x7b' :: (s ++ t)) = some (v, rest ++ t) :=
  readValue_append_of_open (readValue_append le) le rfl (.inr rfl) h

end AuditPanel.Json
