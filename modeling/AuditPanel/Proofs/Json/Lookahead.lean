import AuditPanel.Proofs.Json.Reader

/-!
How far the strict reader looks. What it takes off the front of a text it takes off every text that
goes on with the same character, and an object whatever follows. So an object that is read with text
behind it is read from its own text alone.
-/

set_option autoImplicit false

namespace AuditPanel.Json

variable {s t rest : List Char}

private theorem head?_append_congr (w : List Char) (same : t.head? = rest.head?) :
    (w ++ t).head? = (w ++ rest).head? := by
  rw [List.head?_append, List.head?_append, same]

private theorem span_takeWhile_append (p : Char → Bool) (same : t.head? = (s.dropWhile p).head?) :
    (s.takeWhile p ++ t).takeWhile p = s.takeWhile p ∧ (s.takeWhile p ++ t).dropWhile p = t := by
  have run : ∀ c ∈ s.takeWhile p, p c := fun c member => List.mem_takeWhile_imp member
  rw [List.takeWhile_append_of_pos run, List.dropWhile_append_of_pos run]
  cases t with
  | nil => simp
  | cons c t =>
    have stops := List.head?_dropWhile_not p s
    simp only [← same, List.head?_cons] at stops
    simp [stops]

private theorem exists_skipSpace (s : List Char) :
    ∃ blanks, s = blanks ++ skipSpace s ∧ ∀ t, t.head? = (skipSpace s).head? →
      skipSpace (blanks ++ t) = t :=
  ⟨s.takeWhile isSpace, List.takeWhile_append_dropWhile.symm, fun _ same =>
    (span_takeWhile_append isSpace same).2⟩

private theorem exists_skipSpace_append {w : List Char} {c : Char}
    (found : skipSpace s = w ++ c :: rest) :
    ∃ blanks, s = blanks ++ (w ++ c :: rest) ∧ ∀ t, skipSpace (blanks ++ (w ++ c :: t)) = w ++
      c :: t := by
  obtain ⟨blanks, whole, skips⟩ := exists_skipSpace s
  rw [found] at whole skips
  exact ⟨blanks, whole, fun t => skips (w ++ c :: t) (head?_append_congr w rfl)⟩

private theorem exists_skipSpace_cons {c : Char} (found : skipSpace s = c :: rest) :
    ∃ blanks, s = blanks ++ c :: rest ∧ ∀ t, skipSpace (blanks ++ c :: t) = c :: t :=
  exists_skipSpace_append (w := []) found

private theorem exists_readText {state : TextState} {out text : List Char}
    (h : readText state out s = some (text, rest)) :
    ∃ w, s = w ++ rest ∧ ∀ t, readText state out (w ++ t) = some (text, t) := by
  induction s generalizing state out with
  | nil => simp [readText] at h
  | cons c s ih =>
    simp only [readText] at h
    split at h
    · next closed =>
      cases h
      exact ⟨[c], rfl, fun t => by simp only [List.singleton_append, readText, if_pos closed]⟩
    · next inside =>
      split at h
      · cases h
      · next state' out' step =>
        obtain ⟨w, rfl, reads⟩ := ih h
        exact ⟨c :: w, rfl,
          fun t => by simp only [List.cons_append, readText, if_neg inside, step, reads]⟩

private theorem exists_readString {text : String} (h : readString s = some (text, rest)) :
    ∃ w, s = w ++ rest ∧ ∀ t, readString (w ++ t) = some (text, t) := by
  obtain ⟨⟨chars, left⟩, read, same⟩ := Option.map_eq_some_iff.mp h
  cases same
  obtain ⟨w, whole, reads⟩ := exists_readText read
  exact ⟨w, whole, fun t => by simp only [readString, reads, Option.map_some]⟩

/-- Whether a reader takes `w` off a text and gives `x`, where what follows starts as `rest`
does. -/
def Takes {α : Type} (read : List Char → Option (α × List Char)) (w : List Char) (x : α)
    (rest : List Char) : Prop :=
  ∀ t, t.head? = rest.head? → read (w ++ t) = some (x, t)

private theorem exists_digitRun (s : List Char) :
    ∃ w, s = w ++ (Decimal.digitRun s).2 ∧
      Takes (some ∘ Decimal.digitRun) w (Decimal.digitRun s).1 (Decimal.digitRun s).2 := by
  refine ⟨s.takeWhile Char.isDigit, List.takeWhile_append_dropWhile.symm, ?_⟩
  intro t same
  obtain ⟨taken, dropped⟩ := span_takeWhile_append Char.isDigit same
  simp only [Function.comp_apply, Decimal.digitRun, taken, dropped]

private theorem exists_signed (s : List Char) :
    ∃ w, s = w ++ (Decimal.signed s).2 ∧
      Takes (some ∘ Decimal.signed) w (Decimal.signed s).1 (Decimal.signed s).2 := by
  unfold Decimal.signed
  split
  · exact ⟨['-'], rfl, fun t _ => rfl⟩
  · exact ⟨['+'], rfl, fun t _ => rfl⟩
  · next s noMinus noPlus =>
    refine ⟨[], rfl, ?_⟩
    intro t same
    cases t with
    | nil => rfl
    | cons c t =>
      obtain ⟨after, rfl⟩ := List.head?_eq_some_iff.mp same.symm
      simp only [List.nil_append, Function.comp_apply]
      split
      · next same => cases same; exact absurd rfl (noMinus after)
      · next same => cases same; exact absurd rfl (noPlus after)
      · rfl

private theorem exists_fractionRun (s : List Char) :
    ∃ w, s = w ++ (fractionRun s).2 ∧ Takes (some ∘ fractionRun) w (fractionRun s).1
      (fractionRun s).2 := by
  by_cases point : ∃ after, s = '.' :: after
  · obtain ⟨after, rfl⟩ := point
    obtain ⟨w, whole, takes⟩ := exists_digitRun after
    refine ⟨'.' :: w, congrArg ('.' :: ·) whole, ?_⟩
    intro t same
    have digits := Option.some.inj (takes t same)
    simp only [Function.comp_apply, List.cons_append, fractionRun, digits]
  · have plain : ∀ after, s ≠ '.' :: after := by simpa using point
    rw [fractionRun_plain plain]
    refine ⟨[], rfl, ?_⟩
    intro t same
    refine congrArg some (fractionRun_plain ?_)
    rintro after rfl
    obtain ⟨after, found⟩ := List.head?_eq_some_iff.mp same.symm
    exact plain after found

private theorem exists_readExponent {mark : Option (Bool × List Char)}
    (h : readExponent s = some (mark, rest)) :
    ∃ w, s = w ++ rest ∧ Takes readExponent w mark rest := by
  cases s with
  | nil =>
    cases h
    refine ⟨[], rfl, ?_⟩
    intro t same
    rw [List.head?_eq_none_iff.mp same]
    rfl
  | cons c s =>
    simp only [readExponent] at h
    split at h
    · next marked =>
      split at h
      · cases h
      · next digits =>
        cases h
        obtain ⟨u, sign, takesSign⟩ := exists_signed s
        obtain ⟨w, run, takesRun⟩ := exists_digitRun (Decimal.signed s).2
        refine ⟨c :: (u ++ w), by rw [List.cons_append, List.append_assoc, ← run, ← sign], ?_⟩
        intro t same
        have signed := Option.some.inj (takesSign (w ++ t) (run ▸ head?_append_congr w same))
        have counted := Option.some.inj (takesRun t same)
        simp only [List.cons_append, List.append_assoc, readExponent, if_pos marked, signed,
          counted, if_neg digits]
    · next plain =>
      cases h
      refine ⟨[], rfl, ?_⟩
      intro t same
      obtain ⟨after, rfl⟩ := List.head?_eq_some_iff.mp same
      simp only [List.nil_append, readExponent, if_neg plain]

private theorem exists_readMagnitude {negative : Bool} {v : Json}
    (h : readMagnitude negative s = some (v, rest)) :
    ∃ w, s = w ++ rest ∧ Takes (readMagnitude negative) w v rest := by
  obtain ⟨written, mark, exponent, value⟩ := readMagnitude_eq_some_iff.mp h
  obtain ⟨u, digits, takesDigits⟩ := exists_digitRun s
  obtain ⟨x, fraction, takesFraction⟩ := exists_fractionRun (Decimal.digitRun s).2
  obtain ⟨w, last, takesExponent⟩ := exists_readExponent exponent
  refine ⟨u ++ (x ++ w), by rw [List.append_assoc, List.append_assoc, ← last, ← fraction, ← digits],
    ?_⟩
  intro t same
  -- Each part is followed by what starts as before, since the parts behind it are the same.
  have behindFraction : (w ++ t).head? = (fractionRun (Decimal.digitRun s).2).2.head? :=
    last ▸ head?_append_congr w same
  have behindDigits : (x ++ (w ++ t)).head? = (Decimal.digitRun s).2.head? :=
    (head?_append_congr x behindFraction).trans (congrArg List.head? fraction.symm)
  have run := Option.some.inj (takesDigits _ behindDigits)
  have part := Option.some.inj (takesFraction _ behindFraction)
  rw [readMagnitude_eq_some_iff, List.append_assoc, List.append_assoc, run, part]
  exact ⟨written, mark, takesExponent t same, value⟩

private theorem exists_readScalar {v : Json} (h : readScalar s = some (v, rest)) :
    ∃ w, s = w ++ rest ∧ Takes readScalar w v rest := by
  unfold readScalar at h
  split at h
  · next after =>
    obtain ⟨⟨text, left⟩, read, same⟩ := Option.map_eq_some_iff.mp h
    cases same
    obtain ⟨w, rfl, reads⟩ := exists_readString read
    exact ⟨'"' :: w, rfl,
      fun t _ => by simp only [List.cons_append, readScalar, reads, Option.map_some]⟩
  · next after =>
    obtain ⟨w, rfl, takes⟩ := exists_readMagnitude h
    exact ⟨'-' :: w, rfl, takes⟩
  · cases h
    exact ⟨['t', 'r', 'u', 'e'], rfl, fun t _ => rfl⟩
  · cases h
    exact ⟨['f', 'a', 'l', 's', 'e'], rfl, fun t _ => rfl⟩
  · cases h
    exact ⟨['n', 'u', 'l', 'l'], rfl, fun t _ => rfl⟩
  · obtain ⟨w, rfl, takes⟩ := exists_readMagnitude h
    refine ⟨w, rfl, ?_⟩
    intro t same
    obtain ⟨c, after, number, digit⟩ := isDigit_of_readMagnitude (takes t same)
    rw [number, readScalar_digit digit, ← number]
    exact takes t same

/-- Whether `item'` takes what `item` takes, where that is shorter than `bound`. -/
def IsLocal (bound : Nat) (item item' : List Char → Option (Json × List Char)) : Prop :=
  ∀ s v rest, item s = some (v, rest) → ∃ w, s = w ++ rest ∧
    (w.length < bound → Takes item' w v rest)

private theorem head?_append_cons (blanks : List Char) (c : Char) (s t : List Char) :
    (blanks ++ c :: s).head? = (blanks ++ c :: t).head? :=
  head?_append_congr blanks rfl

section Containers

variable {bound fuel : Nat} {item item' : List Char → Option (Json × List Char)}
  (isLocal : IsLocal bound item item') {v : Json}
include isLocal

private theorem exists_readElements {out : List Json}
    (h : readElements item fuel out s = some (v, rest)) :
    ∃ w, s = w ++ ']' :: rest ∧ ∀ fuel', w.length < fuel' → fuel' ≤ bound →
      ∀ t, readElements item' fuel' out (w ++ ']' :: t) = some (v, t) := by
  induction fuel generalizing out s with
  | zero => simp [readElements] at h
  | succ fuel ih =>
    obtain ⟨element, after, read, behind⟩ := readElements_cases h
    obtain ⟨u, rfl, takes⟩ := isLocal _ _ _ read
    obtain ⟨left, comma, further⟩ | ⟨close, rfl⟩ := behind
    · obtain ⟨blanks, rfl, skips⟩ := exists_skipSpace_cons comma
      obtain ⟨w, rfl, reads⟩ := ih further
      refine ⟨u ++ (blanks ++ ',' :: w), by simp, ?_⟩
      intro fuel' long short t
      simp only [List.length_append, List.length_cons] at long
      obtain ⟨fuel', rfl⟩ := Nat.exists_eq_succ_of_ne_zero (Nat.ne_zero_of_lt long)
      have first :=
        takes (by omega) (blanks ++ ',' :: (w ++ ']' :: t)) (head?_append_cons blanks ',' _ _)
      simp only [List.append_assoc, List.cons_append, readElements, first, skips]
      exact reads fuel' (by omega) (by omega) t
    · obtain ⟨blanks, rfl, skips⟩ := exists_skipSpace_cons close
      refine ⟨u ++ blanks, by simp, ?_⟩
      intro fuel' long short t
      rw [List.length_append] at long
      obtain ⟨fuel', rfl⟩ := Nat.exists_eq_succ_of_ne_zero (Nat.ne_zero_of_lt long)
      have first := takes (by omega) (blanks ++ ']' :: t) (head?_append_cons blanks ']' _ _)
      simp only [List.append_assoc, readElements, first, skips]

private theorem exists_readMembers {out : List (String × Json)}
    (h : readMembers item fuel out s = some (v, rest)) :
    ∃ w, s = w ++ '\x7d' :: rest ∧ ∀ fuel', w.length < fuel' → fuel' ≤ bound →
      ∀ t, readMembers item' fuel' out (w ++ '\x7d' :: t) = some (v, t) := by
  induction fuel generalizing out s with
  | zero => simp [readMembers] at h
  | succ fuel ih =>
    obtain ⟨quoted, key, named, valued, value, after, opened, text, colon, read, behind⟩ :=
      readMembers_cases h
    obtain ⟨front, rfl, skipsFront⟩ := exists_skipSpace_cons opened
    obtain ⟨name, rfl, reads⟩ := exists_readString text
    obtain ⟨middle, rfl, skipsMiddle⟩ := exists_skipSpace_cons colon
    obtain ⟨u, rfl, takes⟩ := isLocal _ _ _ read
    obtain ⟨left, comma, further⟩ | ⟨close, rfl⟩ := behind
    · obtain ⟨blanks, rfl, skips⟩ := exists_skipSpace_cons comma
      obtain ⟨w, rfl, readsMore⟩ := ih further
      refine ⟨front ++ '"' :: (name ++ (middle ++ ':' :: (u ++ (blanks ++ ',' :: w)))), by simp, ?_⟩
      intro fuel' long short t
      simp only [List.length_append, List.length_cons] at long
      obtain ⟨fuel', rfl⟩ := Nat.exists_eq_succ_of_ne_zero (Nat.ne_zero_of_lt long)
      have first :=
        takes (by omega) (blanks ++ ',' :: (w ++ '\x7d' :: t)) (head?_append_cons blanks ',' _ _)
      simp only [List.append_assoc, List.cons_append, readMembers, skipsFront, reads, skipsMiddle,
        first, skips]
      exact readsMore fuel' (by omega) (by omega) t
    · obtain ⟨blanks, rfl, skips⟩ := exists_skipSpace_cons close
      refine ⟨front ++ '"' :: (name ++ (middle ++ ':' :: (u ++ blanks))), by simp, ?_⟩
      intro fuel' long short t
      simp only [List.length_append, List.length_cons] at long
      obtain ⟨fuel', rfl⟩ := Nat.exists_eq_succ_of_ne_zero (Nat.ne_zero_of_lt long)
      have first := takes (by omega) (blanks ++ '\x7d' :: t) (head?_append_cons blanks '\x7d' _ _)
      simp only [List.append_assoc, List.cons_append, readMembers, skipsFront, reads, skipsMiddle,
        first, skips]

end Containers

section Open

variable {bound fuel depth : Nat} {v : Json} {after : List Char}
  (isLocal : IsLocal bound (readValue fuel depth) (readValue bound depth))
include isLocal

private theorem exists_array (opened : skipSpace s = '[' :: after)
    (h : readValue fuel (depth + 1) s = some (v, rest)) :
    ∃ w, after = w ++ ']' :: rest ∧
      (w.length < bound → ∀ s' t, skipSpace s' = '[' :: (w ++ ']' :: t) →
      readValue bound (depth + 1) s' = some (v, t)) := by
  obtain ⟨close, rfl⟩ | ⟨filled, items⟩ := readValue_array_cases opened h
  · obtain ⟨blanks, rfl, skips⟩ := exists_skipSpace_cons close
    exact ⟨blanks, rfl, fun _ s' t opened' => readValue_array_empty opened' (skips t)⟩
  · obtain ⟨w, starts, reads⟩ := exists_readElements isLocal items
    obtain ⟨blanks, rfl, skips⟩ := exists_skipSpace_append starts
    refine ⟨blanks ++ w, (List.append_assoc ..).symm, ?_⟩
    intro short s' t opened'
    rw [List.length_append] at short
    have skipped : skipSpace (blanks ++ w ++ ']' :: t) = w ++ ']' :: t := by
      rw [List.append_assoc, skips]
    have filled' : (skipSpace (blanks ++ w ++ ']' :: t)).head? ≠ some ']' := by
      rwa [skipped, head?_append_cons w ']' t rest, ← starts]
    rw [readValue_array opened' filled', skipped]
    exact reads bound (by omega) (Nat.le_refl bound) t

private theorem exists_object (opened : skipSpace s = '\x7b' :: after)
    (h : readValue fuel (depth + 1) s = some (v, rest)) :
    ∃ w, after = w ++ '\x7d' :: rest ∧
      (w.length < bound → ∀ s' t, skipSpace s' = '\x7b' :: (w ++ '\x7d' :: t) →
      readValue bound (depth + 1) s' = some (v, t)) := by
  obtain ⟨close, rfl⟩ | ⟨filled, items⟩ := readValue_object_cases opened h
  · obtain ⟨blanks, rfl, skips⟩ := exists_skipSpace_cons close
    exact ⟨blanks, rfl, fun _ s' t opened' => readValue_object_empty opened' (skips t)⟩
  · obtain ⟨w, starts, reads⟩ := exists_readMembers isLocal items
    obtain ⟨blanks, rfl, skips⟩ := exists_skipSpace_append starts
    refine ⟨blanks ++ w, (List.append_assoc ..).symm, ?_⟩
    intro short s' t opened'
    rw [List.length_append] at short
    have skipped : skipSpace (blanks ++ w ++ '\x7d' :: t) = w ++ '\x7d' :: t := by
      rw [List.append_assoc, skips]
    have filled' : (skipSpace (blanks ++ w ++ '\x7d' :: t)).head? ≠ some '\x7d' := by
      rwa [skipped, head?_append_cons w '\x7d' t rest, ← starts]
    rw [readValue_object opened' filled', skipped]
    exact reads bound (by omega) (Nat.le_refl bound) t

end Open

private theorem isLocal_readValue (fuel bound depth : Nat) :
    IsLocal bound (readValue fuel depth) (readValue bound depth) := by
  induction depth using Nat.strong_induction_on with
  | _ depth ih =>
    intro s v rest h
    obtain ⟨c, after, found, ⟨⟨inner, rfl⟩, bracket⟩ | ⟨scalar, read⟩⟩ := readValue_cases h
    · have isLocal := ih inner (Nat.lt_succ_self inner)
      obtain ⟨blanks, rfl, skips⟩ := exists_skipSpace_cons found
      rcases bracket with rfl | rfl
      · obtain ⟨w, rfl, reads⟩ := exists_array isLocal found h
        refine ⟨blanks ++ '[' :: (w ++ [']']), by simp, ?_⟩
        intro short t _
        simp only [List.length_append, List.length_cons] at short
        refine reads (by omega) _ t ?_
        simpa using skips (w ++ ']' :: t)
      · obtain ⟨w, rfl, reads⟩ := exists_object isLocal found h
        refine ⟨blanks ++ '\x7b' :: (w ++ ['\x7d']), by simp, ?_⟩
        intro short t _
        simp only [List.length_append, List.length_cons] at short
        refine reads (by omega) _ t ?_
        simpa using skips (w ++ '\x7d' :: t)
    · obtain ⟨blanks, whole, skips⟩ := exists_skipSpace s
      rw [found] at whole skips
      obtain ⟨w, taken, takes⟩ := exists_readScalar read
      refine ⟨blanks ++ w, by rw [whole, taken, List.append_assoc], ?_⟩
      intro _ t same
      have first : (w ++ t).head? = (c :: after).head? := taken ▸ head?_append_congr w same
      have here := skips (w ++ t) first
      obtain ⟨behind, starts⟩ := List.head?_eq_some_iff.mp first
      rw [List.append_assoc, readValue_scalar (here.trans starts) scalar, ← starts]
      exact takes t same

private theorem readValue_object_local {fuel bound depth : Nat} {v : Json} {w : List Char}
    (long : w.length < bound)
    (h : readValue fuel (depth + 1) ('\x7b' :: (w ++ '\x7d' :: rest)) = some (v, rest))
    (t : List Char) :
    readValue bound (depth + 1) ('\x7b' :: (w ++ '\x7d' :: t)) = some (v, t) := by
  obtain ⟨w', same, reads⟩ := exists_object (isLocal_readValue fuel bound depth) rfl h
  obtain rfl : w = w' := List.append_cancel_right same
  exact reads long _ t rfl

theorem read?_of_readValue {fuel : Nat} {v : Json} {w : List Char}
    (h : readValue fuel defaultDepth ('\x7b' :: (w ++ '\x7d' :: rest)) = some (v, rest)) :
    read? ('\x7b' :: (w ++ ['\x7d'])) = some v := by
  have long : w.length < ('\x7b' :: (w ++ ['\x7d'])).length + 1 := by
    simp only [List.length_cons, List.length_append]
    omega
  have alone : readValue (('\x7b' :: (w ++ ['\x7d'])).length + 1) defaultDepth
    ('\x7b' :: (w ++ ['\x7d'])) = some (v, []) :=
    readValue_object_local long h []
  simp only [read?, readWithin, alone]
  rfl

end AuditPanel.Json
