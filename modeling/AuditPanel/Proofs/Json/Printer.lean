import AuditPanel.Json.Printer
import AuditPanel.Proofs.Json.Object
import AuditPanel.Proofs.Json.Reader

/-!
What the printer writes, the strict reader takes apart again. Texts come back whatever characters
they hold, and a container is read as what its items are read as.
-/

set_option autoImplicit false

namespace AuditPanel.Json

mutual

def text : Json → List Char
  | .null => "null".toList
  | .bool b => (if b then "true" else "false").toList
  | .integer n => (toString n).toList
  | .real x => realText x
  | .string s => quoted s
  | .array items => '[' :: (itemsText true items ++ [']'])
  | .object members => '\x7b' :: (membersText true members ++ ['\x7d'])

/-- The items of an array, with a comma before each but the first. -/
def itemsText (first : Bool) : List Json → List Char
  | [] => []
  | v :: rest => (if first then [] else [',']) ++ (text v ++ itemsText false rest)

/-- The members of an object, with a comma before each but the first. -/
def membersText (first : Bool) : List (String × Json) → List Char
  | [] => []
  | (key, v) :: rest =>
    (if first then [] else [',']) ++ (quoted key ++ ':' :: (text v ++ membersText false rest))

end

private theorem onto_eq (out s : List Char) : onto out s = s.reverse ++ out :=
  List.reverseAux_eq

mutual

private theorem writeOnto_eq (out : List Char) (v : Json) :
    writeOnto out v = (text v).reverse ++ out := by
  cases v with
  | array items => simp [writeOnto, text, writeItems_eq]
  | object members => simp [writeOnto, text, writeMembers_eq]
  | _ => simp only [writeOnto, text, onto_eq]

private theorem writeItems_eq (first : Bool) (out : List Char) (items : List Json) :
    writeItems first out items = (itemsText first items).reverse ++ out := by
  cases items with
  | nil => rfl
  | cons v rest => cases first <;> simp [writeItems, itemsText, writeOnto_eq, writeItems_eq]

private theorem writeMembers_eq (first : Bool) (out : List Char) (members : List (String × Json)) :
    writeMembers first out members = (membersText first members).reverse ++ out := by
  cases members with
  | nil => rfl
  | cons m rest =>
    cases first <;> simp [writeMembers, membersText, onto_eq, writeOnto_eq, writeMembers_eq]

end

theorem compact_toList (v : Json) : v.compact.toList = text v := by
  simp [compact, writeOnto_eq]

private theorem length_le_itemsText (items : List Json) :
    items.length ≤ (itemsText false items).length := by
  induction items with
  | nil => exact Nat.le_refl _
  | cons v rest ih =>
    simp only [itemsText, List.length_append, List.length_cons, List.length_nil, Bool.false_eq_true,
      if_false]
    omega

private theorem length_le_membersText (members : List (String × Json)) :
    members.length ≤ (membersText false members).length := by
  induction members with
  | nil => exact Nat.le_refl _
  | cons m rest ih =>
    simp only [membersText, List.length_append, List.length_cons, List.length_nil,
      Bool.false_eq_true, if_false]
    omega

theorem length_le_itemsText_true (items : List Json) :
    items.length ≤ (itemsText true items).length + 1 := by
  cases items with
  | nil => exact Nat.zero_le _
  | cons v rest =>
    have later := length_le_itemsText rest
    simp only [itemsText, List.length_append, List.length_cons]
    omega

theorem length_le_membersText_true (members : List (String × Json)) :
    members.length ≤ (membersText true members).length + 1 := by
  cases members with
  | nil => exact Nat.zero_le _
  | cons m rest =>
    have later := length_le_membersText rest
    simp only [membersText, List.length_append, List.length_cons]
    omega

theorem length_text_le_itemsText {v : Json} {items : List Json} (member : v ∈ items)
    (first : Bool) :
    (text v).length ≤ (itemsText first items).length := by
  induction items generalizing first with
  | nil => simp at member
  | cons w rest ih =>
    simp only [itemsText, List.length_append]
    rcases List.mem_cons.mp member with rfl | later
    · omega
    · have := ih later false
      omega

theorem length_text_le_membersText {m : String × Json} {members : List (String × Json)}
    (member : m ∈ members)
    (first : Bool) : (text m.2).length ≤ (membersText first members).length := by
  induction members generalizing first with
  | nil => simp at member
  | cons m' rest ih =>
    simp only [membersText, List.length_append, List.length_cons]
    rcases List.mem_cons.mp member with rfl | later
    · omega
    · have := ih later false
      omega

private theorem hexValue?_hexDigit {n : Nat} (h : n < 16) : hexValue? (hexDigit n) = some n := by
  have all : ∀ n < 16, hexValue? (hexDigit n) = some n := by decide
  exact all n h

private theorem readText_control {c : Char} (control : c.toNat < 0x20) (out s : List Char) :
    readText .plain out
      ('\\' :: 'u' :: '0' :: '0' :: hexDigit (c.toNat / 16) :: hexDigit (c.toNat % 16) :: s) =
        readText .plain (c :: out) s := by
  have high : hexValue? (hexDigit (c.toNat / 16)) = some (c.toNat / 16) :=
    hexValue?_hexDigit (by omega)
  have low : hexValue? (hexDigit (c.toNat % 16)) = some (c.toNat % 16) :=
    hexValue?_hexDigit (by omega)
  have zero : hexValue? '0' = some 0 := rfl
  have value : 16 * (c.toNat / 16) + c.toNat % 16 = c.toNat := by omega
  have whole : closeUnit none c.toNat out = some (.plain, c :: out) := by
    have noHigh : isHighSurrogate c.toNat = false := by
      simp only [isHighSurrogate, Bool.and_eq_false_iff, decide_eq_false_iff_not]
      omega
    have noLow : isLowSurrogate c.toNat = false := by
      simp only [isLowSurrogate, Bool.and_eq_false_iff, decide_eq_false_iff_not]
      omega
    simp [closeUnit, noHigh, noLow, Char.ofNat_toNat]
  simp [readText, textStep, TextState.isPlain, high, low, zero, value, whole]

private theorem readText_escapeChar (c : Char) (out s : List Char) :
    readText .plain out (escapeChar c ++ s) = readText .plain (c :: out) s := by
  unfold escapeChar
  repeat' split
  all_goals try (next same => subst same; rfl)
  · next control => exact readText_control control out s
  · next quote backslash _ _ _ _ _ control =>
    simp [readText, textStep, quote, backslash, control]

private theorem readText_flatMap (chars out s : List Char) :
    readText .plain out (chars.flatMap escapeChar ++ '"' :: s) =
      some (out.reverse ++ chars, s) := by
  induction chars generalizing out with
  | nil => simp [readText, TextState.isPlain]
  | cons c chars ih =>
    rw [List.flatMap_cons, List.append_assoc, readText_escapeChar, ih]
    simp

private theorem readString_quoted (s : String) (t : List Char) :
    readString (s.toList.flatMap escapeChar ++ '"' :: t) = some (s, t) := by
  simp [readString, readText_flatMap]

private theorem quoted_append (s : String) (t : List Char) :
    quoted s ++ t = '"' :: (s.toList.flatMap escapeChar ++ '"' :: t) := by
  simp [quoted]

/-- What may follow a value: nothing, a comma or the end of a container. -/
def IsDelimited (t : List Char) : Prop :=
  ∀ c ∈ t.head?, c = ',' ∨ c = ']' ∨ c = '\x7d'

theorem digitRun_delimited {t : List Char} (delimited : IsDelimited t) (s : List Char) :
    Decimal.digitRun (s ++ t) = ((Decimal.digitRun s).1, (Decimal.digitRun s).2 ++ t) := by
  induction s with
  | nil =>
    cases t with
    | nil => rfl
    | cons c t =>
      have other : c.isDigit = false := by
        rcases delimited c rfl with rfl | rfl | rfl <;> rfl
      simp [Decimal.digitRun, other]
  | cons c s ih =>
    simp only [Decimal.digitRun, Prod.mk.injEq, List.cons_append] at ih ⊢
    by_cases digit : c.isDigit <;> simp [digit, ih]

theorem fractionRun_delimited {t : List Char} (delimited : IsDelimited t) (s : List Char) :
    fractionRun (s ++ t) = ((fractionRun s).1, (fractionRun s).2 ++ t) := by
  cases s with
  | nil =>
    refine fractionRun_plain fun after point => ?_
    have delimiter := delimited '.' (by simp [show t = '.' :: after from point])
    simp at delimiter
  | cons c s =>
    by_cases point : c = '.'
    · subst point
      simp only [List.cons_append, fractionRun, digitRun_delimited delimited]
    · have plain (r : List Char) : ∀ after, c :: r ≠ '.' :: after := by
        rintro after same
        exact point (List.cons.inj same).1
      rw [List.cons_append, fractionRun_plain (plain _), fractionRun_plain (plain _)]
      rfl

theorem readExponent_delimited {s t rest : List Char} {mark : Option (Bool × List Char)}
    (delimited : IsDelimited t)
    (read : readExponent s = some (mark, rest)) :
    readExponent (s ++ t) = some (mark, rest ++ t) := by
  cases s with
  | nil =>
    cases read
    cases t with
    | nil => rfl
    | cons c t =>
      rcases delimited c rfl with rfl | rfl | rfl <;> rfl
  | cons c s =>
    simp only [List.cons_append, readExponent] at read ⊢
    split at read
    · next marked =>
      rw [if_pos marked]
      split at read
      · cases read
      · next digits =>
        have present : s ≠ [] := by
          rintro rfl
          exact digits rfl
        cases read
        rw [signed_append present, digitRun_delimited delimited, if_neg digits]
    · next plain =>
      cases read
      rw [if_neg plain]
      rfl

private theorem readMagnitude_delimited {negative : Bool} {s t rest : List Char} {v : Json}
    (delimited : IsDelimited t)
    (read : readMagnitude negative s = some (v, rest)) :
    readMagnitude negative (s ++ t) = some (v, rest ++ t) := by
  rw [readMagnitude_eq_some_iff] at read ⊢
  obtain ⟨written, mark, exponent, value⟩ := read
  rw [digitRun_delimited delimited, fractionRun_delimited delimited]
  exact ⟨written, mark, readExponent_delimited delimited exponent, value⟩

theorem readScalar_delimited {s t rest : List Char} {v : Json} (delimited : IsDelimited t)
    (read : readScalar s = some (v, rest)) : readScalar (s ++ t) = some (v, rest ++ t) := by
  unfold readScalar at read
  split at read
  · obtain ⟨⟨text, left⟩, inside, same⟩ := Option.map_eq_some_iff.mp read
    cases same
    simp only [readScalar, List.cons_append, readString_append inside, Option.map_some]
  · exact readMagnitude_delimited delimited read
  · cases read
    rfl
  · cases read
    rfl
  · cases read
    rfl
  · obtain ⟨c, after, rfl, digit⟩ := isDigit_of_readMagnitude read
    rw [List.cons_append, readScalar_digit digit, ← List.cons_append]
    exact readMagnitude_delimited delimited read

theorem solid_of_isDigit {c : Char} (digit : c.isDigit) :
    isSpace c = false ∧ c ≠ ']' ∧ ¬(c = '[' ∨ c = '\x7b') := by
  refine ⟨?_, ?_, ?_⟩
  · rw [isSpace, Bool.eq_false_iff]
    intro space
    simp only [Bool.or_eq_true, beq_iff_eq] at space
    rcases space with ((rfl | rfl) | rfl) | rfl <;> cases digit
  · rintro rfl
    cases digit
  · rintro (rfl | rfl) <;> cases digit

theorem readScalar_head {s rest : List Char} {v : Json} (read : readScalar s = some (v, rest)) :
    ∃ c after, s = c :: after ∧ isSpace c = false ∧ c ≠ ']' ∧ ¬(c = '[' ∨ c = '\x7b') := by
  unfold readScalar at read
  split at read
  · exact ⟨_, _, rfl, rfl, by decide, by decide⟩
  · exact ⟨_, _, rfl, rfl, by decide, by decide⟩
  · exact ⟨_, _, rfl, rfl, by decide, by decide⟩
  · exact ⟨_, _, rfl, rfl, by decide, by decide⟩
  · exact ⟨_, _, rfl, rfl, by decide, by decide⟩
  · obtain ⟨c, after, rfl, digit⟩ := isDigit_of_readMagnitude read
    exact ⟨c, after, rfl, solid_of_isDigit digit⟩

theorem readScalar_string (s : String) : readScalar (text (.string s)) = some (.string s, []) := by
  have written := quoted_append s []
  rw [List.append_nil] at written
  rw [text, written, readScalar, readString_quoted]
  rfl

private theorem skipSpace_cons {c : Char} (solid : isSpace c = false) (s : List Char) :
    skipSpace (c :: s) = c :: s := by
  simp [skipSpace, solid]

/-- Whether `item` reads the text of a value as a value when a delimiter follows. -/
def ReadAs (item : List Char → Option (Json × List Char)) (v outcome : Json) : Prop :=
  ∀ t, IsDelimited t → item (text v ++ t) = some (outcome, t)

theorem readAs_scalar {fuel depth : Nat} {v outcome : Json}
    (head : ∃ c after, text v = c :: after ∧ isSpace c = false ∧ c ≠ ']' ∧ ¬(c = '[' ∨ c = '\x7b'))
    (read : ReadAs readScalar v outcome) : ReadAs (readValue fuel depth) v outcome := by
  intro t delimited
  obtain ⟨c, after, split, space, -, plain⟩ := head
  have found : skipSpace (text v ++ t) = c :: (after ++ t) := by
    rw [split, List.cons_append, skipSpace_cons space]
  rw [readValue_scalar found plain, ← List.cons_append, ← split]
  exact read t delimited

section Containers

variable {item : List Char → Option (Json × List Char)} {outcome : Json → Json}

private theorem readElements_text {v : Json} {rest : List Json}
    (all : ∀ w ∈ v :: rest, ReadAs item w (outcome w)) {fuel : Nat}
    (enough : rest.length < fuel) (out : List Json) (t : List Char) :
    readElements item fuel out (text v ++ (itemsText false rest ++ ']' :: t)) =
      some (.array (out.reverse ++ (v :: rest).map outcome), t) := by
  induction rest generalizing v fuel out with
  | nil =>
    obtain ⟨fuel, rfl⟩ := Nat.exists_eq_succ_of_ne_zero (Nat.ne_zero_of_lt enough)
    have read := all v List.mem_cons_self (']' :: t) (by simp [IsDelimited])
    rw [itemsText, List.nil_append, readElements, read]
    simp [skipSpace_cons (c := ']') rfl]
  | cons w rest ih =>
    obtain ⟨fuel, rfl⟩ := Nat.exists_eq_succ_of_ne_zero (Nat.ne_zero_of_lt enough)
    have read := all v List.mem_cons_self (',' :: (text w ++ (itemsText false rest ++ ']' :: t)))
      (by simp [IsDelimited])
    have later :=
      ih (fun x member => all x (List.mem_cons_of_mem _ member)) (Nat.lt_of_succ_lt_succ enough)
      (outcome v :: out)
    have split : text v ++ (itemsText false (w :: rest) ++ ']' :: t) =
        text v ++ ',' :: (text w ++ (itemsText false rest ++ ']' :: t)) := by
      simp [itemsText]
    rw [split, readElements, read]
    simp only [skipSpace_cons (c := ',') rfl, later]
    simp

private theorem readMembers_text {m : String × Json} {rest : List (String × Json)}
    (all : ∀ w ∈ m :: rest, ReadAs item w.2 (outcome w.2)) {fuel : Nat}
    (enough : rest.length < fuel) (out : List (String × Json)) (t : List Char) :
    readMembers item fuel out
      (quoted m.1 ++ ':' :: (text m.2 ++ (membersText false rest ++ '\x7d' :: t))) =
      some (ofMembers (out.reverse ++ (m :: rest).map fun m => (m.1, outcome m.2)), t) := by
  induction rest generalizing m fuel out with
  | nil =>
    obtain ⟨fuel, rfl⟩ := Nat.exists_eq_succ_of_ne_zero (Nat.ne_zero_of_lt enough)
    have read := all m List.mem_cons_self ('\x7d' :: t) (by simp [IsDelimited])
    rw [quoted_append, membersText, List.nil_append]
    simp only [readMembers, skipSpace_cons (c := '"') rfl, readString_quoted,
      skipSpace_cons (c := ':') rfl, read]
    simp [skipSpace_cons (c := '\x7d') rfl]
  | cons w rest ih =>
    obtain ⟨fuel, rfl⟩ := Nat.exists_eq_succ_of_ne_zero (Nat.ne_zero_of_lt enough)
    have read := all m List.mem_cons_self
      (',' :: (quoted w.1 ++ ':' :: (text w.2 ++ (membersText false rest ++ '\x7d' :: t))))
        (by simp [IsDelimited])
    have later :=
      ih (fun x member => all x (List.mem_cons_of_mem _ member)) (Nat.lt_of_succ_lt_succ enough)
      ((m.1, outcome m.2) :: out)
    have split : text m.2 ++ (membersText false (w :: rest) ++ '\x7d' :: t) =
        text m.2 ++ ',' ::
          (quoted w.1 ++ ':' :: (text w.2 ++ (membersText false rest ++ '\x7d' :: t))) := by
      simp [membersText]
    rw [split, quoted_append]
    simp only [readMembers, skipSpace_cons (c := '"') rfl, readString_quoted,
      skipSpace_cons (c := ':') rfl, read, skipSpace_cons (c := ',') rfl, later]
    simp

theorem readAs_array {fuel depth : Nat} {items : List Json}
    (all : ∀ v ∈ items, ReadAs (readValue fuel depth) v (outcome v))
    (heads : ∀ v ∈ items, ∃ c after, text v = c :: after ∧ isSpace c = false ∧ c ≠ ']')
    (enough : items.length ≤ fuel) :
    ReadAs (readValue fuel (depth + 1)) (.array items) (.array (items.map outcome)) := by
  intro t _
  cases items with
  | nil => rfl
  | cons v rest =>
    obtain ⟨c, after, split, space, open_⟩ := heads v List.mem_cons_self
    have opened : text (.array (v :: rest)) ++ t = '[' ::
        (text v ++ (itemsText false rest ++ ']' :: t)) := by
      simp [text, itemsText]
    have found : skipSpace (text v ++ (itemsText false rest ++ ']' :: t)) =
        text v ++ (itemsText false rest ++ ']' :: t) := by
      rw [split, List.cons_append, skipSpace_cons space]
    have filled : (skipSpace (text v ++ (itemsText false rest ++ ']' :: t))).head? ≠ some ']' := by
      rw [found, split]
      exact fun same => open_ (Option.some.inj same)
    rw [opened, readValue_array (skipSpace_cons rfl _) filled, found,
      readElements_text all enough [] t]
    rfl

theorem readAs_object {fuel depth : Nat} {members : List (String × Json)}
    (all : ∀ m ∈ members, ReadAs (readValue fuel depth) m.2 (outcome m.2))
    (enough : members.length ≤ fuel) :
    ReadAs (readValue fuel (depth + 1)) (.object members)
      (ofMembers (members.map fun m => (m.1, outcome m.2))) := by
  intro t _
  cases members with
  | nil =>
    simp only [text, membersText, readValue, skipSpace_cons (c := '\x7b') rfl, List.cons_append,
      List.nil_append, skipSpace_cons (c := '\x7d') rfl]
    rw [List.map_nil, ofMembers_of_isSorted List.Pairwise.nil]
  | cons m rest =>
    have opened : text (.object (m :: rest)) ++ t =
        '\x7b' :: (quoted m.1 ++ ':' :: (text m.2 ++ (membersText false rest ++ '\x7d' :: t))) := by
      simp [text, membersText]
    have found :
      skipSpace (quoted m.1 ++ ':' :: (text m.2 ++ (membersText false rest ++ '\x7d' :: t))) =
        quoted m.1 ++ ':' :: (text m.2 ++ (membersText false rest ++ '\x7d' :: t)) := by
      rw [quoted_append, skipSpace_cons rfl]
    have filled :
      (skipSpace
        (quoted m.1 ++ ':' :: (text m.2 ++ (membersText false rest ++ '\x7d' :: t)))).head? ≠
        some '\x7d' := by
      rw [found, quoted_append]
      exact fun same => absurd (Option.some.inj same) (by decide)
    rw [opened, readValue_object (skipSpace_cons rfl _) filled, found,
      readMembers_text all enough [] t]
    rfl

end Containers

end AuditPanel.Json
