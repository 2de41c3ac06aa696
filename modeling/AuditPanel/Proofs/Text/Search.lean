import AuditPanel.Text.Search
import Mathlib.Data.List.Infix
import Mathlib.Data.List.TakeWhile

/-!
What a search of a text finds: the text falls into the part that is looked for and what stands
around it.
-/

set_option autoImplicit false

namespace AuditPanel.Text

theorem trimStart_append {blanks s : List Char} (blank : isAllBlank blanks) :
    trimStart (blanks ++ s) = trimStart s := by
  have all : ∀ c ∈ blanks, isBlank c := by simpa [isAllBlank] using blank
  exact List.dropWhile_append_of_pos all

theorem trimStart_cons {c : Char} (solid : isBlank c = false) (s : List Char) :
    trimStart (c :: s) = c :: s := by
  simp [trimStart, solid]

theorem isBlank_of_isDigit {c : Char} (digit : c.isDigit) : isBlank c = false := by
  have code : 48 ≤ c.toNat ∧ c.toNat ≤ 57 := by
    simp only [Char.isDigit, Bool.and_eq_true, decide_eq_true_eq, ge_iff_le, UInt32.le_iff_toNat_le]
      at digit
    exact digit
  have solid : ∀ n < 10, inRanges blankRanges (48 + n) = false := by decide
  have place : c.toNat = 48 + (c.toNat - 48) := by omega
  rw [isBlank, place]
  exact solid _ (by omega)

theorem exists_trimStart (s : List Char) :
    ∃ blanks, s = blanks ++ trimStart s ∧ isAllBlank blanks := by
  refine ⟨s.takeWhile isBlank, (List.takeWhile_append_dropWhile).symm, ?_⟩
  simp [isAllBlank]

theorem after?_eq_some_iff {word : String} {s rest : List Char} :
    after? word s = some rest ↔ s = word.toList ++ rest := by
  rw [after?, List.isPrefixOf?_eq_some_iff_append_eq, eq_comm]

theorem afterBlanks?_append {blanks s : List Char} (some_ : blanks ≠ [])
    (blank : isAllBlank blanks) :
    afterBlanks? (blanks ++ s) = some (trimStart s) := by
  cases blanks with
  | nil => contradiction
  | cons c blanks =>
    simp only [isAllBlank, List.all_cons, Bool.and_eq_true] at blank
    simp [afterBlanks?, blank.1, trimStart_append blank.2]

theorem exists_of_afterBlanks? {s rest : List Char} (found : afterBlanks? s = some rest) :
    ∃ blanks, s = blanks ++ rest ∧ blanks ≠ [] ∧ isAllBlank blanks := by
  cases s with
  | nil => simp [afterBlanks?] at found
  | cons c s =>
    by_cases blank : isBlank c
    · obtain ⟨blanks, split, all⟩ := exists_trimStart s
      have same : trimStart s = rest := by simpa [afterBlanks?, blank] using found
      refine ⟨c :: blanks, ?_, by simp, by simpa [isAllBlank, blank] using all⟩
      rw [List.cons_append, ← same, ← split]
    · simp [afterBlanks?, blank] at found

section Stop

variable {p : Char → Bool} {c : Char} {s : List Char}

theorem takeWhile_append_stop (stops : p c = false) (t : List Char) :
    (s ++ c :: t).takeWhile p = s.takeWhile p := by
  induction s with
  | nil => simp [stops]
  | cons d s ih => simp [List.takeWhile_cons, ih]

theorem dropWhile_append_stop (stops : p c = false) (t : List Char) :
    (s ++ c :: t).dropWhile p = s.dropWhile p ++ c :: t := by
  induction s with
  | nil => simp [stops]
  | cons d s ih =>
    rw [List.cons_append, List.dropWhile_cons, List.dropWhile_cons, ih]
    split <;> rfl

theorem after?_append_cons {word : String} (other : c ∉ word.toList) (t : List Char) :
    after? word (s ++ c :: t) = (after? word s).map (· ++ c :: t) := by
  ext rest
  rw [after?_eq_some_iff, Option.map_eq_some_iff]
  constructor
  · intro split
    rcases List.append_eq_append_iff.mp split with ⟨more, inside, behind⟩ | ⟨more, inside, behind⟩
    · cases more with
      | nil =>
        refine ⟨[], after?_eq_some_iff.mpr ?_, ?_⟩
        · simpa using inside.symm
        · simpa using behind
      | cons d more =>
        obtain ⟨rfl, -⟩ := List.cons_eq_cons.mp behind
        exact absurd (by simp [inside]) other
    · exact ⟨more, after?_eq_some_iff.mpr inside, behind.symm⟩
  · rintro ⟨more, found, rfl⟩
    rw [after?_eq_some_iff.mp found, List.append_assoc]

theorem afterBlanks?_append_cons (solid : isBlank c = false) (t : List Char) :
    afterBlanks? (s ++ c :: t) = (afterBlanks? s).map (· ++ c :: t) := by
  cases s with
  | nil => simp [afterBlanks?, solid]
  | cons d s =>
    rw [List.cons_append, afterBlanks?, afterBlanks?, trimStart, dropWhile_append_stop solid]
    split <;> rfl

theorem splitAtChar?_eq_some_iff {sep : Char} {s front rest : List Char} :
    splitAtChar? sep s = some (front, rest) ↔ sep ∉ front ∧ s = front ++ sep :: rest := by
  constructor
  · intro found
    rw [splitAtChar?] at found
    split at found
    · contradiction
    · rename_i c behind stop
      obtain ⟨rfl, rfl⟩ := Prod.mk.inj (Option.some.inj found)
      have whole := List.takeWhile_append_dropWhile (p := (· != sep)) (l := s)
      have same : c = sep := by
        have stops := List.head?_dropWhile_not (· != sep) s
        simpa [stop] using stops
      refine ⟨fun member => by simpa using List.mem_takeWhile_imp member, ?_⟩
      rw [same] at stop
      rw [← stop, whole]
  · rintro ⟨none, rfl⟩
    have other : ∀ c ∈ front, (c != sep) = true := by
      intro c member
      simpa using ne_of_mem_of_not_mem member none
    rw [splitAtChar?, List.dropWhile_append_of_pos other, List.takeWhile_append_of_pos other]
    simp

theorem exists_splitAtChar?_append (c : Char) (s t : List Char) :
    ∃ rest, splitAtChar? c (s ++ c :: t) = some (s.takeWhile (· != c), rest) := by
  rw [splitAtChar?, dropWhile_append_stop (p := (· != c)) (by simp),
    takeWhile_append_stop (p := (· != c)) (by simp)]
  cases s.dropWhile (· != c) with
  | nil => exact ⟨t, rfl⟩
  | cons d rest => exact ⟨rest ++ c :: t, rfl⟩

end Stop

theorem anyPosition_iff {p : Option Char → List Char → Bool} {c : Option Char} {s : List Char} :
    anyPosition p c s ↔ ∃ front rest, front ++ rest = s ∧ p (front.getLast?.or c) rest := by
  induction s generalizing c with
  | nil => simp [anyPosition]
  | cons d s ih =>
    rw [anyPosition, Bool.or_eq_true, ih]
    constructor
    · rintro (here | ⟨front, rest, rfl, later⟩)
      · exact ⟨[], d :: s, rfl, here⟩
      · refine ⟨d :: front, rest, rfl, ?_⟩
        rw [List.getLast?_cons]
        cases last : front.getLast? <;> simpa [last] using later
    · rintro ⟨front, rest, split, holds⟩
      cases front with
      | nil => exact .inl (by simpa [← split] using holds)
      | cons e front =>
        obtain ⟨rfl, rfl⟩ : e = d ∧ front ++ rest = s := by simpa using split
        refine .inr ⟨front, rest, rfl, ?_⟩
        rw [List.getLast?_cons] at holds
        cases last : front.getLast? <;> simpa [last] using holds

theorem contains_iff {word : String} {s : List Char} : contains word s ↔ word.toList <:+: s := by
  rw [contains, holdsSomewhere, anyPosition_iff]
  constructor
  · rintro ⟨front, rest, rfl, here⟩
    exact (List.isPrefixOf_iff_prefix.mp here).isInfix.trans (List.suffix_append front rest).isInfix
  · rintro ⟨front, rest, rfl⟩
    exact ⟨front, word.toList ++ rest, by simp,
      List.isPrefixOf_iff_prefix.mpr (List.prefix_append _ _)⟩

theorem isInfix_append_cons {w s t : List Char} {c : Char} (other : c ∉ w) :
    w <:+: s ++ c :: t ↔ w <:+: s ∨ w <:+: t := by
  constructor
  · intro found
    induction s with
    | nil =>
      rcases List.infix_cons_iff.mp found with front | later
      · cases w with
        | nil => exact .inl (List.infix_refl [])
        | cons d w =>
          obtain ⟨rfl, -⟩ := List.cons_prefix_cons.mp front
          exact absurd List.mem_cons_self other
      · exact .inr later
    | cons d s ih =>
      rcases List.infix_cons_iff.mp found with front | later
      · left
        have whole : d :: s ++ [c] <+: d :: s ++ c :: t := by simp
        rcases List.prefix_or_prefix_of_prefix front whole with short | long
        · rcases List.prefix_concat_iff.mp short with same | inside
          · exact absurd (by simp [same]) other
          · exact inside.isInfix
        · exact absurd (long.subset (by simp)) other
      · rcases ih later with inside | behind
        · exact .inl (inside.trans (List.suffix_cons d s).isInfix)
        · exact .inr behind
  · rintro (inside | behind)
    · exact inside.trans (List.prefix_append s _).isInfix
    · exact behind.trans ((List.suffix_cons c t).trans (List.suffix_append s _)).isInfix

section First

variable {α : Type} {f : List Char → Option α} {u x y : List Char}

theorem firstPosition_congr (same : ∀ s ∈ u.tails, s ≠ [] → f (s ++ x) = f (s ++ y))
    (later : firstPosition f x = firstPosition f y) :
    firstPosition f (u ++ x) = firstPosition f (u ++ y) := by
  induction u with
  | nil => exact later
  | cons c u ih =>
    have here : f (c :: (u ++ x)) = f (c :: (u ++ y)) := same (c :: u) (by simp) (by simp)
    have rest := ih fun s member => same s (List.mem_cons_of_mem _ member)
    rw [List.cons_append, List.cons_append, firstPosition, firstPosition, here, rest]

theorem firstPosition_skip (none : ∀ s ∈ u.tails, s ≠ [] → f (s ++ x) = none) :
    firstPosition f (u ++ x) = firstPosition f x := by
  induction u with
  | nil => rfl
  | cons c u ih =>
    have here : f (c :: (u ++ x)) = Option.none := none (c :: u) (by simp) (by simp)
    rw [List.cons_append, firstPosition, here, ih fun s member =>
      none s (List.mem_cons_of_mem _ member)]

end First

section Before

variable {word : String} {c : Char} {s : List Char}

private theorem beforeFrom_eq (pattern passed s : List Char) :
    beforeFrom pattern passed s = passed.reverse ++ beforeFrom pattern [] s := by
  induction s generalizing passed with
  | nil => simp [beforeFrom]
  | cons c s ih =>
    by_cases here : pattern.isPrefixOf (c :: s)
    · simp [beforeFrom, here]
    · simp only [beforeFrom, here, Bool.false_eq_true, if_false]
      rw [ih (c :: passed), ih [c]]
      simp

theorem before_cons (word : String) (c : Char) (s : List Char) :
    before word (c :: s) = if word.toList <+: c :: s then [] else c :: before word s := by
  rw [before, beforeFrom]
  simp only [List.isPrefixOf_iff_prefix]
  split
  · rfl
  · exact beforeFrom_eq word.toList [c] s

private theorem before_prefix (word : String) (s : List Char) : before word s <+: s := by
  induction s with
  | nil => exact List.prefix_refl []
  | cons c s ih =>
    rw [before_cons]
    split
    · exact List.nil_prefix
    · exact List.cons_prefix_cons.mpr ⟨rfl, ih⟩

theorem contains_before (filled : word.toList ≠ []) (s : List Char) :
    contains word (before word s) = false := by
  rw [Bool.eq_false_iff, ne_eq, contains_iff]
  induction s with
  | nil => simpa [before, beforeFrom] using filled
  | cons c s ih =>
    rw [before_cons]
    split
    · simpa using filled
    · next other =>
      rw [List.infix_cons_iff]
      rintro (front | later)
      · exact other (front.trans (List.cons_prefix_cons.mpr ⟨rfl, before_prefix word s⟩))
      · exact ih later

theorem before_of_not_contains (none : contains word s = false) : before word s = s := by
  rw [Bool.eq_false_iff, ne_eq, contains_iff] at none
  induction s with
  | nil => rfl
  | cons c s ih =>
    have other : ¬ word.toList <+: c :: s := fun front => none front.isInfix
    have later : ¬ word.toList <:+: s :=
      fun found => none (found.trans (List.suffix_cons c s).isInfix)
    rw [before_cons, if_neg other, ih later]

end Before

end AuditPanel.Text
