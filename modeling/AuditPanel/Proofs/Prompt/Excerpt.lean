import AuditPanel.Prompt.Basic
import AuditPanel.Proofs.Decimal.Digits

/-!
What a prompt shows of a source. A source that is too long is cut in two places, found by counting
characters from either end, and a banner says how many lie between them. Each end has at most half
as many characters as the limit allows, so the two counts never meet: no difference of counts falls
below zero, and every character is either shown or counted. What is shown of a source that is cut
are its ends and its length, and nothing else of it.
-/

set_option autoImplicit false

namespace AuditPanel.Prompt

open AuditPanel.Text AuditPanel.Decimal

/-- Whether a text is the line that says, in decimal digits, that `count` characters are left
out. -/
def StatesOmission (text : List Char) (count : Nat) : Prop :=
  ∃ digits, digits ≠ [] ∧ (∀ c ∈ digits, c.isDigit) ∧ digitsValue digits = count ∧
    text = "\n\n// ... [truncated ".toList ++ digits ++ " chars] ...\n\n".toList

private theorem omissionBanner_eq (count : Nat) :
    omissionBanner count = "\n\n// ... [truncated ".toList ++ digitText count ++
      " chars] ...\n\n".toList := by
  have digits : (toString count).toList = digitText count := by
    rw [Nat.toString_eq_ofList_toDigits, String.toList_ofList]
    rfl
  have shape : omissionBanner count =
      ("\n\n// ... [truncated " ++ toString count ++ " chars] ...\n\n").toList := rfl
  rw [shape, String.toList_append, String.toList_append, digits]

private theorem statesOmission_omissionBanner_iff {count n : Nat} :
    StatesOmission (omissionBanner count) n ↔ n = count := by
  rw [omissionBanner_eq]
  constructor
  · rintro ⟨digits, -, -, rfl, same⟩
    rw [List.append_cancel_right_eq, List.append_cancel_left_eq] at same
    rw [← same, digitsValue_digitText]
  · rintro rfl
    exact ⟨digitText n, digitText_ne_nil n, fun c => isDigit_of_mem_digitText,
      digitsValue_digitText n, rfl⟩

private theorem omissionBanner_injective : Function.Injective omissionBanner := by
  intro m n same
  rw [← statesOmission_omissionBanner_iff, ← same, statesOmission_omissionBanner_iff]

/-- The parts of a source of which `limit` characters are shown: its ends, of half the limit each,
and what is left out between them. In the bytes of the source, neither cut falls inside a
character. -/
structure IsParting (limit : Nat) (source head omitted tail : String) : Prop where
  whole : source = head ++ omitted ++ tail
  front : head.length = limit / 2
  back : tail.length = limit / 2
  between : omitted ≠ ""
  frontCut : head.rawEndPos.IsValid source
  backCut : (head ++ omitted).rawEndPos.IsValid source

private theorem isParting_append {limit : Nat} {head omitted tail : String}
    (front : head.length = limit / 2) (back : tail.length = limit / 2) (between : omitted ≠ "") :
    IsParting limit (head ++ omitted ++ tail) head omitted tail where
  whole := rfl
  front := front
  back := back
  between := between
  frontCut :=
    String.Pos.Raw.isValid_iff_exists_append.mpr ⟨head, omitted ++ tail, String.append_assoc, rfl⟩
  backCut := String.Pos.Raw.isValid_iff_exists_append.mpr ⟨head ++ omitted, tail, rfl, rfl⟩

private theorem exists_isParting {limit : Nat} {source : String} (long : limit < source.length) :
    ∃ head omitted tail, IsParting limit source head omitted tail := by
  -- The tail is counted from the end, and the head from the start of what stands before the tail.
  obtain ⟨before, tail, cut, back⟩ : ∃ before tail, source.toList = before ++ tail ∧
      tail.length = limit / 2 := by
    refine ⟨_, _, (List.take_append_drop (source.length - limit / 2) source.toList).symm, ?_⟩
    rw [List.length_drop, String.length_toList]
    omega
  have total : source.length = before.length + limit / 2 := by
    rw [← String.length_toList, cut, List.length_append, back]
  obtain ⟨head, omitted, rfl, front⟩ : ∃ head omitted, before = head ++ omitted ∧
      head.length = limit / 2 := by
    refine ⟨_, _, (List.take_append_drop (limit / 2) before).symm, ?_⟩
    rw [List.length_take]
    omega
  have between : String.ofList omitted ≠ "" := by
    intro empty
    rw [String.ofList_eq_empty_iff] at empty
    rw [List.length_append, front, empty, List.length_nil] at total
    omega
  refine ⟨.ofList head, .ofList omitted, .ofList tail, ?_⟩
  rw [← String.ofList_toList (s := source), cut, String.ofList_append, String.ofList_append]
  exact isParting_append (String.length_ofList.trans front)
    (String.length_ofList.trans back) between

namespace IsParting

variable {limit : Nat} {source head omitted tail source' head' omitted' tail' : String}

private theorem toList_eq (parting : IsParting limit source head omitted tail) :
    source.toList = head.toList ++ (omitted.toList ++ tail.toList) := by
  rw [parting.whole, String.toList_append, String.toList_append, List.append_assoc]

theorem length_eq (parting : IsParting limit source head omitted tail) :
    source.length = limit / 2 + omitted.length + limit / 2 := by
  rw [parting.whole, String.length_append, String.length_append, parting.front, parting.back]

theorem unique (parting : IsParting limit source head omitted tail)
    (parting' : IsParting limit source head' omitted' tail') :
    head = head' ∧ omitted = omitted' ∧ tail = tail' := by
  have same := parting.toList_eq.symm.trans parting'.toList_eq
  obtain ⟨front, rest⟩ := List.append_inj same (parting.front.trans parting'.front.symm)
  obtain ⟨between, back⟩ := List.append_inj' rest (parting.back.trans parting'.back.symm)
  exact ⟨String.toList_inj.mp front, String.toList_inj.mp between, String.toList_inj.mp back⟩

private theorem truncateSource_eq (parting : IsParting limit source head omitted tail)
    (long : limit < source.length) :
    truncateSource source.toList limit = head.toList ++ omissionBanner omitted.length ++
      tail.toList := by
  have total := parting.length_eq
  have front : source.toList.take (limit / 2) = head.toList := by
    rw [parting.toList_eq, List.take_left' parting.front]
  have back : source.toList.drop (source.length - limit / 2) = tail.toList := by
    rw [parting.toList_eq, ← List.append_assoc, List.drop_left']
    simp only [List.length_append, String.length_toList, parting.front]
    omega
  have between : source.length - 2 * (limit / 2) = omitted.length := by omega
  simp only [truncateSource, String.length_toList, if_neg (Nat.not_le.mpr long), front, back,
    between]

/-- Sources that are cut are shown alike if and only if they have the same ends and as many
characters between them. -/
theorem truncateSource_eq_iff (parting : IsParting limit source head omitted tail)
    (long : limit < source.length)
    (parting' : IsParting limit source' head' omitted' tail') (long' : limit < source'.length) :
    truncateSource source.toList limit = truncateSource source'.toList limit ↔
      head = head' ∧ omitted.length = omitted'.length ∧ tail = tail' := by
  rw [parting.truncateSource_eq long, parting'.truncateSource_eq long']
  constructor
  · intro same
    -- The ends are as long on both sides, so what is left of both between them are the banners.
    obtain ⟨shown, back⟩ := List.append_inj' same (parting.back.trans parting'.back.symm)
    obtain ⟨front, banner⟩ := List.append_inj shown (parting.front.trans parting'.front.symm)
    exact ⟨String.toList_inj.mp front, omissionBanner_injective banner, String.toList_inj.mp back⟩
  · rintro ⟨rfl, count, rfl⟩
    rw [count]

end IsParting

/-- A number as a count in a word that has `size` values, if it is one of them. -/
def word? (size : Nat) (n : Int) : Option Nat :=
  if 0 ≤ n ∧ n < size then some n.toNat else none

private theorem word?_of_lt {size n : Nat} (fits : n < size) : word? size n = some n := by
  rw [word?, if_pos ⟨Int.natCast_nonneg n, Int.ofNat_lt.mpr fits⟩, Int.toNat_natCast]

private theorem word?_sub {size m n : Nat} (le : n ≤ m) (fits : m < size) :
    word? size (m - n) = some (m - n) := by
  rw [← Int.ofNat_sub le]
  exact word?_of_lt (Nat.lt_of_le_of_lt (Nat.sub_le m n) fits)

/-- The cut with all its counts in words: there is none if a count falls below zero or is too great
for a word. -/
def truncateSource? (size : Nat) (s : List Char) (limit : Nat) : Option (List Char) := do
  let total ← word? size s.length
  if total ≤ limit then
    return s
  let half := limit / 2
  let start ← word? size (total - half)
  let shown ← word? size (2 * half : Nat)
  let count ← word? size (total - shown)
  return s.take half ++ omissionBanner count ++ s.drop start

private theorem truncateSource?_eq {size : Nat} {s : List Char} (fits : s.length < size)
    (limit : Nat) :
    truncateSource? size s limit = some (truncateSource s limit) := by
  rw [truncateSource?, word?_of_lt fits, truncateSource]
  by_cases short : s.length ≤ limit
  · simp [short]
  · -- Twice the half is no more than the limit, and the limit is less than the number of
    -- characters.
    have start := word?_sub (m := s.length) (n := limit / 2) (by omega) fits
    have shown : word? size (2 * (limit / 2) : Nat) = some (2 * (limit / 2)) :=
      word?_of_lt (by omega)
    have count := word?_sub (m := s.length) (n := 2 * (limit / 2)) (by omega) fits
    simp only [Option.bind_eq_bind, Option.bind_some, if_neg short, start, shown, count]
    rfl

/-- Whether `shown` is what stands for a source of which `limit` characters are shown: the source if
it has no more, or its ends around a banner that counts what is left out. -/
structure IsExcerpt (limit : Nat) (source shown : String) : Prop where
  whole : source.length ≤ limit → shown = source
  cut : limit < source.length → ∃ head omitted tail, IsParting limit source head omitted tail ∧
    shown = head ++ String.ofList (omissionBanner omitted.length) ++ tail

private theorem isExcerpt_truncateSource (limit : Nat) (source : String) :
    IsExcerpt limit source (String.ofList (truncateSource source.toList limit)) where
  whole fits := by
    rw [truncateSource, String.length_toList, if_pos fits, String.ofList_toList]
  cut long := by
    obtain ⟨head, omitted, tail, parting⟩ := exists_isParting long
    refine ⟨head, omitted, tail, parting, ?_⟩
    rw [parting.truncateSource_eq long, String.ofList_append, String.ofList_append,
      String.ofList_toList, String.ofList_toList]

/-- Of every source all is shown, or both ends, cut between characters, around a banner that states
the number of those left out and no other one; a prompt shows the source that way. All counts on the
way are words if the number of characters is one, and so none of them is below zero. -/
theorem truncateSource_accounts :
    (∀ (source : String) (limit : Nat),
      IsExcerpt limit source (String.ofList (truncateSource source.toList limit))) ∧
    (∀ count n, StatesOmission (omissionBanner count) n ↔ n = count) ∧
    (∀ (size : Nat) (s : List Char) (limit : Nat), s.length < size →
      truncateSource? size s limit = some (truncateSource s limit)) ∧
    ∀ (b : Book) (brief : Brief) (c : Context),
      IsExcerpt b.maxSourceChars c.source (b.variables brief c).sourceCode :=
  ⟨fun source limit => isExcerpt_truncateSource limit source, fun _ _ =>
    statesOmission_omissionBanner_iff, fun _ _ limit fits => truncateSource?_eq fits limit,
    fun b _ c => isExcerpt_truncateSource b.maxSourceChars c.source⟩

/-- An odd limit and characters of two and three bytes. -/
theorem truncateSource_accounts_multibyte :
    let source := "éàüñç漢字"
    source.toList.length < 2 ^ 64 ∧ 5 < source.length ∧ IsParting 5 source "éà" "üñç" "漢字" ∧
      truncateSource? (2 ^ 64) source.toList 5 =
        some "éà\n\n// ... [truncated 3 chars] ...\n\n漢字".toList := by
  intro source
  have fits : source.toList.length < 2 ^ 64 := by decide
  have long : 5 < source.length := by decide
  have whole : source = "éà" ++ "üñç" ++ "漢字" := by decide
  have parting : IsParting 5 source "éà" "üñç" "漢字" :=
    whole ▸ isParting_append (by decide) (by decide) (by decide)
  obtain ⟨excerpts, -, words, -⟩ := truncateSource_accounts
  obtain ⟨head, omitted, tail, same, shown⟩ := (excerpts source 5).cut long
  obtain ⟨rfl, rfl, rfl⟩ := parting.unique same
  refine ⟨fits, long, parting, (words _ _ _ fits).trans ?_⟩
  rw [← String.toList_ofList (l := truncateSource source.toList 5), shown]
  decide

example : truncateSource "漢字".toList 0 = omissionBanner 2 ∧ truncateSource "漢字".toList 1 =
    omissionBanner 2 := by
  decide

end AuditPanel.Prompt
