import AuditPanel.Proofs.Review.Schema
import AuditPanel.Proofs.Text.Search
import AuditPanel.Proofs.Text.Words

/-!
The lines that the words of an answer name. All of them have 32 bits and none is zero. A word with a
dash names the lines from the first to the last, but no line more than `rangeLimit` after the first:
the first counts on top of the limit, so that a long range names one line more.
-/

set_option autoImplicit false

namespace AuditPanel.Review

open AuditPanel.Text AuditPanel.Decimal

/-- Whether a character stands between the words of a text that names lines. -/
def isBetweenTokens (c : Char) : Bool :=
  c == ',' || isBlank c

/-- A text that is one word at most. -/
def IsToken (token : List Char) : Prop :=
  ∀ c ∈ token, isBetweenTokens c = false

instance (token : List Char) : Decidable (IsToken token) :=
  List.decidableBAll _ token

/-- Decimal digits of a number, leading zeros among them, with a plus sign or without. -/
def IsNumeral (s : List Char) (n : Nat) : Prop :=
  ∃ digits, (s = digits ∨ s = '+' :: digits) ∧ digits ≠ [] ∧ (∀ c ∈ digits, c.isDigit) ∧
    digitsValue digits = n

/-- A word that names the lines from `a` to `b`, with letters L in front or without. -/
structure IsRange (token : List Char) (a b : Nat) : Prop where
  text : ∃ marks first last, (∀ c ∈ marks, c = 'L' ∨ c = 'l') ∧
    token = marks ++ first ++ '-' :: last ∧ IsNumeral first a ∧ IsNumeral last b
  first : 1 ≤ a
  last : a ≤ b
  bound : b < 2 ^ 32

variable {s first last token : List Char} {n a b : Nat} {c : Char}

private theorem exists_lineNumber?_eq (s : List Char) :
    ∃ digits, (s = '+' :: digits ∨ s = digits ∧ '+' ∉ s.head?) ∧
    lineNumber? s = if digits.isEmpty || !digits.all Char.isDigit then none
      else if digitsValue digits < lineBound then some (digitsValue digits) else none := by
  by_cases signed : ∃ rest, s = '+' :: rest
  · obtain ⟨rest, rfl⟩ := signed
    exact ⟨rest, .inl rfl, rfl⟩
  · refine ⟨s, .inr ⟨rfl, ?_⟩, ?_⟩
    · intro sign
      exact signed (List.head?_eq_some_iff.mp sign)
    · have unsigned : ∀ rest, s = '+' :: rest → False := fun rest same => signed ⟨rest, same⟩
      rw [lineNumber?]
      exact unsigned

private theorem lineNumber?_eq_some_iff : lineNumber? s = some n ↔ IsNumeral s n ∧ n < 2 ^ 32 := by
  obtain ⟨digits, shape, read⟩ := exists_lineNumber?_eq s
  have same : lineNumber? s = some n ↔
      digits ≠ [] ∧ (∀ c ∈ digits, c.isDigit) ∧ digitsValue digits < 2 ^ 32 ∧
        digitsValue digits = n := by
    rw [read, show lineBound = 2 ^ 32 from rfl]
    simp [Option.ite_none_left_eq_some, Option.ite_none_right_eq_some, and_assoc]
  rw [same]
  constructor
  · rintro ⟨some_, all, below, rfl⟩
    exact ⟨⟨digits, shape.symm.imp_left And.left, some_, all, rfl⟩, below⟩
  · rintro ⟨⟨digits', shape', some_, all, rfl⟩, below⟩
    obtain rfl : digits = digits' := by
      rcases shape with rfl | ⟨rfl, unsigned⟩ <;> rcases shape' with same | same
      · have sign := all '+' (same ▸ List.mem_cons_self)
        cases sign
      · exact List.cons_injective same
      · exact same
      · simp [same] at unsigned
    exact ⟨some_, all, below, rfl⟩

theorem IsNumeral.isDigit (numeral : IsNumeral s n) (member : c ∈ s) : c = '+' ∨ c.isDigit := by
  obtain ⟨digits, rfl | rfl, -, all, -⟩ := numeral
  · exact .inr (all c member)
  · rcases List.mem_cons.mp member with rfl | later
    · exact .inl rfl
    · exact .inr (all c later)

private theorem IsNumeral.ne_nil (numeral : IsNumeral s n) : s ≠ [] := by
  obtain ⟨digits, rfl | rfl, some_, -, -⟩ := numeral
  · exact some_
  · exact List.cons_ne_nil _ _

private theorem between_of_isDigit (digit : c.isDigit) :
    isBetweenTokens c = false ∧ c ≠ '-' ∧ c ≠ 'L' ∧ c ≠ 'l' := by
  have other (d : Char) (mark : d.isDigit = false) : c ≠ d := by
    rintro rfl
    rw [mark] at digit
    cases digit
  refine ⟨?_, other '-' rfl, other 'L' rfl, other 'l' rfl⟩
  simpa [isBetweenTokens, isBlank_of_isDigit digit] using other ',' rfl

theorem IsToken.trim_eq (isToken : IsToken token) : trim token = token := by
  have solid (c : Char) (member : c ∈ token) : isBlank c = false := by
    have between := isToken c member
    simp only [isBetweenTokens, Bool.or_eq_false_iff] at between
    exact between.2
  apply trim_of_solid_ends
  · intro c head
    exact solid c (List.mem_of_mem_head? head)
  · intro c last
    exact solid c (List.mem_of_getLast? last)

private theorem IsToken.of_subset (isToken : IsToken token) (subset : s ⊆ token) : IsToken s :=
  fun c member => isToken c (subset member)

private theorem IsNumeral.isToken (numeral : IsNumeral s n) : IsToken s := by
  intro c member
  rcases numeral.isDigit member with rfl | digit
  · decide
  · exact (between_of_isDigit digit).1

private theorem interval_eq_take (range : IsRange token a b) :
    interval a (min b (min (a + rangeLimit) (lineBound - 1))) =
    (List.range' a (b + 1 - a)).take (rangeLimit + 1) := by
  obtain ⟨-, -, le, bound⟩ := range
  have last : min b (min (a + rangeLimit) (lineBound - 1)) + 1 - a = min (rangeLimit + 1)
      (b + 1 - a) := by
    have top : lineBound = 2 ^ 32 := rfl
    omega
  rw [interval, last, List.range'_eq_map_range, ← List.map_take, List.take_range]

private theorem IsRange.isToken (range : IsRange token a b) : IsToken token := by
  obtain ⟨marks, first, last, letters, rfl, before, behind⟩ := range.text
  intro c member
  rcases List.mem_append.mp member with front | rest
  · rcases List.mem_append.mp front with mark | digit
    · rcases letters c mark with rfl | rfl <;> decide
    · exact before.isToken c digit
  · rcases List.mem_cons.mp rest with rfl | digit
    · decide
    · exact behind.isToken c digit

private theorem tokenLines_of_isRange (range : IsRange token a b) :
    tokenLines token = (List.range' a (b + 1 - a)).take (rangeLimit + 1) := by
  obtain ⟨marks, first, last, letters, whole, before, behind⟩ := range.text
  have part : token.dropWhile (fun c => c == 'L' || c == 'l') = first ++ '-' :: last := by
    obtain ⟨c, rest, rfl⟩ := List.exists_cons_of_ne_nil before.ne_nil
    have front : c ≠ 'L' ∧ c ≠ 'l' := by
      rcases before.isDigit List.mem_cons_self with rfl | digit
      · decide
      · exact (between_of_isDigit digit).2.2
    rw [whole, List.append_assoc, List.dropWhile_append_of_pos (by simpa using letters),
      List.cons_append]
    exact List.dropWhile_cons_of_neg (by simp [front])
  have dashless : '-' ∉ first := by
    intro member
    rcases before.isDigit member with same | digit
    · cases same
    · exact (between_of_isDigit digit).2.1 rfl
  have le : a < 2 ^ 32 := lt_of_le_of_lt range.last range.bound
  rw [tokenLines, range.isToken.trim_eq, part, splitAtChar?_eq_some_iff.mpr ⟨dashless, rfl⟩]
  simp only [before.isToken.trim_eq, behind.isToken.trim_eq,
    lineNumber?_eq_some_iff.mpr ⟨before, le⟩, lineNumber?_eq_some_iff.mpr ⟨behind, range.bound⟩]
  rw [if_pos ⟨range.first, range.last⟩, interval_eq_take range]

private theorem tokenLines_cases (isToken : IsToken token) :
    (∃ a b, IsRange token a b) ∨ ∃ line : Option Nat, tokenLines token = line.toList := by
  have part : token.dropWhile (fun c => c == 'L' || c == 'l') ⊆ token :=
    (List.dropWhile_suffix _).subset
  rw [tokenLines, isToken.trim_eq]
  split
  · next first last split =>
    obtain ⟨-, whole⟩ := splitAtChar?_eq_some_iff.mp split
    have solidFirst : IsToken first := isToken.of_subset fun c member =>
      part (by simp [whole, member])
    have solidLast : IsToken last := isToken.of_subset fun c member =>
      part (by simp [whole, member])
    rw [solidFirst.trim_eq, solidLast.trim_eq]
    split
    · next a b readFirst readLast =>
      obtain ⟨before, -⟩ := lineNumber?_eq_some_iff.mp readFirst
      obtain ⟨behind, bound⟩ := lineNumber?_eq_some_iff.mp readLast
      split
      · next order =>
        refine .inl ⟨a, b, ⟨?_, order.1, order.2, bound⟩⟩
        refine ⟨token.takeWhile fun c => c == 'L' || c == 'l', first, last, ?_, ?_, before, behind⟩
        · intro c member
          simpa using List.all_eq_true.mp List.all_takeWhile c member
        · rw [List.append_assoc, ← whole, List.takeWhile_append_dropWhile]
      · exact .inr ⟨none, rfl⟩
    · exact .inr ⟨none, rfl⟩
  · right
    split
    · next n _ =>
      split
      · exact ⟨some n, rfl⟩
      · exact ⟨none, rfl⟩
    · exact ⟨none, rfl⟩

private theorem textLines_eq (s : List Char) :
    textLines s = (s.splitOnP isBetweenTokens).flatMap tokenLines := by
  rw [textLines, piecesBetween_eq]
  rfl

private theorem linesOf_token (isToken : IsToken token) :
    linesOf (some (.string (.ofList token))) = tokenLines token := by
  have increasing : (tokenLines token).Pairwise (· < ·) := by
    rcases tokenLines_cases isToken with ⟨a, b, range⟩ | ⟨line, alone⟩
    · rw [tokenLines_of_isRange range]
      exact List.Pairwise.take (List.pairwise_lt_range' 1)
    · rw [alone]
      cases line <;> simp
  have one : textLines token = tokenLines token := by
    rw [textLines_eq, List.splitOnP_eq_singleton isToken, List.flatMap_singleton]
  simp only [linesOf, collectLines, String.toList_ofList, List.append_nil, one]
  exact Ordered.nats_of_pairwise increasing

mutual

private theorem mem_collectLines (out : List Nat) (v : Json) :
    n ∈ collectLines out v ↔ n ∈ out ∨ n ∈ collectLines [] v := by
  cases v with
  | array items =>
    rw [collectLines, collectLines, mem_collectAll out items, mem_collectAll [] items]
    simp
  | integer m =>
    simp only [collectLines]
    split
    · simp [or_comm]
    · simp
  | string s => simp [collectLines, or_comm]
  | null => simp [collectLines]
  | bool b => simp [collectLines]
  | real x => simp [collectLines]
  | object members => simp [collectLines]

private theorem mem_collectAll (out : List Nat) (items : List Json) :
    n ∈ collectAll out items ↔ n ∈ out ∨ ∃ v ∈ items, n ∈ collectLines [] v := by
  cases items with
  | nil => simp [collectAll]
  | cons v rest =>
    rw [collectAll, mem_collectAll (collectLines out v) rest, mem_collectLines out v]
    simp [or_assoc]

end

private theorem mem_linesOf (v : Json) : n ∈ linesOf (some v) ↔ n ∈ collectLines [] v := by
  rw [linesOf, Ordered.mem_nats]

private theorem mem_linesOf_string (s : String) : n ∈ linesOf (some (.string s)) ↔
    ∃ token ∈ s.toList.splitOnP isBetweenTokens, n ∈ linesOf (some (.string (.ofList token))) := by
  rw [mem_linesOf, collectLines, List.append_nil, textLines_eq, List.mem_flatMap]
  refine exists_congr fun token => and_congr_right fun piece => ?_
  rw [linesOf_token (of_mem_splitOnP piece)]

private theorem length_tokenLines_le (isToken : IsToken token) :
    (tokenLines token).length ≤ rangeLimit + 1 := by
  rcases tokenLines_cases isToken with ⟨a, b, range⟩ | ⟨line, alone⟩
  · rw [tokenLines_of_isRange range]
    exact List.length_take_le _ _
  · rw [alone]
    exact Option.length_toList_le.trans (Nat.le_add_left 1 _)

private theorem length_tokenLines_le_rangeLimit_iff (isToken : IsToken token) :
    (tokenLines token).length ≤ rangeLimit ↔ ∀ a b, IsRange token a b → b < a + rangeLimit := by
  have short {a b : Nat} (range : IsRange token a b) : (tokenLines token).length ≤ rangeLimit ↔
      b < a + rangeLimit := by
    rw [tokenLines_of_isRange range, List.length_take, List.length_range']
    have order := range.last
    omega
  constructor
  · intro few a b range
    exact (short range).mp few
  · intro below
    rcases tokenLines_cases isToken with ⟨a, b, range⟩ | ⟨line, alone⟩
    · exact (short range).mpr (below a b range)
    · rw [alone]
      exact Option.length_toList_le.trans (by decide)

theorem linesOf_overlong :
    IsToken "1-300".toList ∧ rangeLimit = 200 ∧ (linesOf (some (.string "1-300"))).length =
      201 := by
  have isToken : IsToken "1-300".toList := by decide
  have read : (tokenLines "1-300".toList).length = 201 := by decide +kernel
  refine ⟨isToken, rfl, ?_⟩
  rw [← read, ← linesOf_token isToken, String.ofList_toList]

/-- Every line that a value names has 32 bits and is not zero. A list names what its items name, and
a text what its words name. A word names no more lines than the limit unless it is a range that
reaches it, which names one more; a range names the lines from its first on, up to its last. -/
theorem linesOf_bounded (v : Json) :
    (∀ n ∈ linesOf (some v), 1 ≤ n ∧ n < 2 ^ 32) ∧
      (∀ items, v = .array items → ∀ n, n ∈ linesOf (some v) ↔ ∃ item ∈ items,
        n ∈ linesOf (some item)) ∧ ∀ s, v = .string s →
        (∀ n, n ∈ linesOf (some v) ↔
          ∃ token ∈ s.toList.splitOnP isBetweenTokens,
            n ∈ linesOf (some (.string (.ofList token)))) ∧
        ∀ token ∈ s.toList.splitOnP isBetweenTokens,
          let named := linesOf (some (.string (.ofList token)))
          named.length ≤ rangeLimit + 1 ∧
            (named.length ≤ rangeLimit ↔ ∀ a b, IsRange token a b → b < a + rangeLimit) ∧
            ∀ a b, IsRange token a b →
              named = (List.range' a (b + 1 - a)).take (rangeLimit + 1) := by
  refine ⟨fun n => bounds_of_mem_linesOf, ?_, ?_⟩
  · rintro items rfl n
    rw [mem_linesOf, collectLines, mem_collectAll]
    simp [mem_linesOf]
  · rintro s rfl
    refine ⟨fun n => mem_linesOf_string s, fun token piece => ?_⟩
    have isToken : IsToken token := of_mem_splitOnP piece
    rw [linesOf_token isToken]
    exact ⟨length_tokenLines_le isToken, length_tokenLines_le_rangeLimit_iff isToken,
      fun a b => tokenLines_of_isRange⟩

/-- The last lines of 32 bits, one more than the limit. -/
theorem linesOf_bounded_topRange :
    IsRange "L4294967095-4294967295".toList 4294967095 4294967295 ∧
      linesOf (some (.string "L4294967095-4294967295")) = List.range' 4294967095 (rangeLimit + 1) ∧
      ∀ n ∈ linesOf (some (.string "L4294967095-4294967295")), n < 2 ^ 32 := by
  have first : IsNumeral "4294967095".toList 4294967095 :=
    ⟨_, .inl rfl, by decide, List.all_eq_true.mp (by decide), by decide⟩
  have last : IsNumeral "4294967295".toList 4294967295 :=
    ⟨_, .inl rfl, by decide, List.all_eq_true.mp (by decide), by decide⟩
  have range : IsRange "L4294967095-4294967295".toList 4294967095 4294967295 :=
    ⟨⟨['L'], _, _, by simp, rfl, first, last⟩, by decide, by decide, by decide⟩
  have alone : "L4294967095-4294967295".toList ∈ "L4294967095-4294967295".toList.splitOnP
      isBetweenTokens := by
    rw [List.splitOnP_eq_singleton range.isToken]
    exact List.mem_singleton_self _
  obtain ⟨bounds, -, words⟩ := linesOf_bounded (.string "L4294967095-4294967295")
  have named := ((words _ rfl).2 _ alone).2.2 _ _ range
  rw [String.ofList_toList] at named
  exact ⟨range, named.trans (List.take_of_length_le (by simp [rangeLimit])), fun n member =>
    (bounds n member).2⟩

end AuditPanel.Review
