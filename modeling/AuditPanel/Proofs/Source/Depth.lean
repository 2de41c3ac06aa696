import AuditPanel.Proofs.Source.InPlace
import AuditPanel.Proofs.Source.QuietLines
import AuditPanel.Proofs.Source.Unchecked

/-!
The depth of braces, kept twice: by the extraction over the text without comments, and by the search
for unchecked blocks over the text whose literals are blank too. The balance of a line starts anew
on it, while the blanking of literals goes on from line to line. But no literal reaches over the end
of a line, so that both count the same braces.
-/

set_option autoImplicit false

namespace AuditPanel.Source

open AuditPanel.Text

private theorem blankedFrom_append_cons {l : List Char} (one : '\n' ∉ l) (quote : Option Char)
    (s : List Char) :
    blankedFrom quote (l ++ '\n' :: s) = blankedFrom quote l ++ '\n' :: blankedFrom none s := by
  fun_induction blankedFrom quote l with
  | case1 quote => cases quote <;> simp [blankedFrom, isQuote]
  | case2 c rest ih => simp_all [blankedFrom]
  | case3 quote rest ih => simp at one
  | case4 quote c rest inside ih => simp_all [blankedFrom]
  | case5 quote c rest noBreak unescaped ends ih =>
    have solid : c ≠ '\\' := by rcases ends with rfl | ⟨-, solid⟩ <;> simp_all
    simp_all [blankedFrom]
  | case6 quote c rest noBreak unescaped goesOn ih =>
    rw [List.mem_cons, not_or] at one
    by_cases escape : c = '\\'
    · -- A backslash that escapes nothing on its line is the last character there.
      cases rest with
      | nil => simp [blankedFrom, escape]
      | cons d rest => exact (unescaped d rest escape rfl).elim
    · have inside : ¬(c = '\n' ∨ c = quote) := by simpa [escape] using goesOn
      simp [blankedFrom, escape, inside, ih one.2]

private theorem braceDeltaFrom_blankedFrom {quote : Option Char} {l : List Char}
    (opened : IsOpen quote) (one : '\n' ∉ l) (delta : Int) :
    braceDeltaFrom (.ofQuote quote) delta (blankedFrom quote l) = braceDeltaFrom (.ofQuote quote)
      delta l := by
  fun_induction blankedFrom quote l generalizing delta with
  | case1 => rfl
  | case2 c rest ih =>
    rw [List.mem_cons, not_or] at one
    simp only [braceDeltaFrom, LineState.ofQuote_none, LineState.next_code]
    exact ih (isOpen_after c) one.2 _
  | case3 quote rest ih => simp at one
  | case4 quote c rest inside ih =>
    simp only [List.mem_cons, not_or] at one
    have later := ih opened one.2.2
    have noBlank : ' ' ≠ quote := (ne_of_isQuote (isOpen_some.mp opened)).2.symm
    rw [LineState.ofQuote_some] at later ⊢
    simp [braceDeltaFrom, LineState.next, noBlank, later]
  | case5 quote c rest noBreak unescaped ends ih =>
    rw [List.mem_cons, not_or] at one
    rcases ends with rfl | ⟨rfl, solid⟩
    · exact absurd rfl one.1
    · have later := ih isOpen_none one.2
      rw [LineState.ofQuote_none] at later
      simp [braceDeltaFrom, LineState.next, solid, later]
  | case6 quote c rest noBreak unescaped goesOn ih =>
    rw [List.mem_cons, not_or] at one
    have later := ih opened one.2
    rw [LineState.ofQuote_some] at later ⊢
    by_cases escape : c = '\\'
    · -- A backslash that escapes nothing is the last character.
      cases rest with
      | nil => simp [braceDeltaFrom, blankedFrom]
      | cons d rest => exact (unescaped d rest escape rfl).elim
    · have other : c ≠ quote := by simp_all
      have noBlank : ' ' ≠ quote := (ne_of_isQuote (isOpen_some.mp opened)).2.symm
      simp [braceDeltaFrom, LineState.next, escape, other, noBlank, later]

private theorem braceDelta_blankedFrom {l : List Char} (one : '\n' ∉ l) :
    braceDelta (blankedFrom none l) = braceDelta l :=
  braceDeltaFrom_blankedFrom isOpen_none one 0

private theorem braceDelta_closeLine (l : List Char) :
    braceDelta (closeLine l.reverse) = braceDelta l := by
  rcases closeLine_reverse l with same | shorter
  · rw [same]
  · have weightless (state : LineState) : state.weight '\r' = 0 :=
      weight_of_ne (by decide) (by decide) state
    conv_rhs =>
      rw [← shorter, braceDelta, braceDeltaFrom_append, braceDeltaFrom, braceDeltaFrom, weightless]
    rw [Int.add_zero, braceDelta]

private theorem KeepsLayout.mem_lineFeed_iff {s t : List Char} (h : KeepsLayout s t) :
    '\n' ∈ t ↔ '\n' ∈ s := by
  simp only [List.mem_iff_getElem?, h.getElem?_lineFeed_iff]

private theorem braceDelta_lines_blankLiterals (s : List Char) :
    (lines (blankLiterals s)).map braceDelta = (lines s).map braceDelta := by
  have blankedOne {l : List Char} (one : '\n' ∉ l) : '\n' ∉ blankedFrom none l :=
    mt (keepsLayout_blankedFrom none l).mem_lineFeed_iff.mp one
  rw [blankLiterals_eq]
  induction s using line_induction with
  | nil => rfl
  | last l filled one =>
    have filled' : blankedFrom none l ≠ [] := by
      rw [← List.length_pos_iff, ← (keepsLayout_blankedFrom none l).length_eq, List.length_pos_iff]
      exact filled
    rw [lines_of_not_mem filled' (blankedOne one), lines_of_not_mem filled one, List.map_singleton,
      List.map_singleton, braceDelta_blankedFrom one]
  | cons l s one ih =>
    rw [blankedFrom_append_cons one, lines_append_cons (blankedOne one), lines_append_cons one,
      List.map_cons, List.map_cons, braceDelta_closeLine, braceDelta_closeLine,
      braceDelta_blankedFrom one, ih]

/-- The positions of the extraction before each of the lines and behind the last, from a position
and a line number on. -/
def positionsFrom : Position → Nat → List (List Char) → List Position
  | p, _, [] => [p]
  | p, line, s :: rest => p :: positionsFrom (p.next (item? p (s :: rest) line) s) (line + 1) rest

/-- The states of the search for unchecked blocks before each of the lines and behind the last, from
a state on. -/
def blockStatesFrom : BlockState → List (List Char) → List BlockState
  | b, [] => [b]
  | b, line :: rest => b :: blockStatesFrom (b.step line).2 rest

private theorem exists_itemsFrom_drop (p : Position) (line : Nat) (out : List Item)
    {ls : List (List Char)} {i : Nat}
    (le : i ≤ ls.length) : ∃ q out', (positionsFrom p line ls)[i]? = some q ∧
      itemsFrom p line out ls = itemsFrom q (line + i) out' (ls.drop i) := by
  induction ls generalizing p line out i with
  | nil =>
    obtain rfl := Nat.le_zero.mp le
    exact ⟨p, out, rfl, rfl⟩
  | cons s ls ih =>
    cases i with
    | zero => exact ⟨p, out, rfl, rfl⟩
    | succ i =>
      obtain ⟨q, out', listed, goesOn⟩ := ih (p.next (item? p (s :: ls) line) s) (line + 1)
        ((item? p (s :: ls) line).toList ++ out) (Nat.le_of_succ_le_succ le)
      rw [Nat.succ_add_eq_add_succ] at goesOn
      exact ⟨q, out', listed, goesOn⟩

private theorem exists_uncheckedFrom_drop (b : BlockState) (out : List Bool) {ls : List (List Char)}
    {i : Nat} (le : i ≤ ls.length) : ∃ b' out', (blockStatesFrom b ls)[i]? = some b' ∧
      uncheckedFrom b out ls = uncheckedFrom b' out' (ls.drop i) := by
  induction ls generalizing b out i with
  | nil =>
    obtain rfl := Nat.le_zero.mp le
    exact ⟨b, out, rfl, rfl⟩
  | cons line ls ih =>
    cases i with
    | zero => exact ⟨b, out, rfl, rfl⟩
    | succ i => exact ih (b.step line).2 ((b.step line).1 :: out) (Nat.le_of_succ_le_succ le)

private theorem depths_positionsFrom {p : Position} {b : BlockState} (same : p.depth = b.depth)
    {ls ls' : List (List Char)} (balances : ls.map braceDelta = ls'.map braceDelta) (line : Nat) :
    (positionsFrom p line ls).map (·.depth) = (blockStatesFrom b ls').map (·.depth) := by
  induction ls generalizing p b ls' line with
  | nil =>
    obtain rfl : ls' = [] := by simpa [eq_comm] using balances
    rw [positionsFrom, blockStatesFrom, List.map_singleton, List.map_singleton, same]
  | cons l ls ih =>
    obtain ⟨l', rest, rfl, here, later⟩ := List.map_eq_cons_iff.mp balances.symm
    have next : (p.next (item? p (l :: ls) line) l).depth = (b.step l').2.depth := by
      change p.depth + braceDelta l = b.depth + braceDelta l'
      rw [same, here]
    rw [positionsFrom, blockStatesFrom, List.map_cons, List.map_cons, same, ih next later.symm]

private theorem exists_loops_drop (s : List Char) {i : Nat}
    (le : i ≤ (lines (blankComments s)).length) :
    ∃ p b out inside, p.depth = b.depth ∧
      (positionsFrom ⟨0, none⟩ 1 (lines (blankComments s)))[i]? = some p ∧
      (blockStatesFrom ⟨0, none⟩ (lines (codeOnly s)))[i]? = some b ∧
      items (blankComments s) = itemsFrom p (1 + i) out ((lines (blankComments s)).drop i) ∧
      uncheckedLines (lines (codeOnly s)) = uncheckedFrom b inside
        ((lines (codeOnly s)).drop i) := by
  have balances := braceDelta_lines_blankLiterals (blankComments s)
  have le' : i ≤ (lines (codeOnly s)).length := by
    have counts := congrArg List.length balances
    rw [List.length_map, List.length_map] at counts
    exact le.trans_eq counts.symm
  obtain ⟨p, out, listed, reached⟩ := exists_itemsFrom_drop ⟨0, none⟩ 1 [] le
  obtain ⟨b, inside, listed', reached'⟩ := exists_uncheckedFrom_drop ⟨0, none⟩ [] le'
  have depths :=
    congrArg (·[i]?) (depths_positionsFrom (p := ⟨0, none⟩) (b := ⟨0, none⟩) rfl balances.symm 1)
  simp only [List.getElem?_map] at depths
  have depths : some p.depth = some b.depth := by
    rw [← Option.map_some, ← listed, ← Option.map_some, ← listed']
    exact depths
  exact ⟨p, b, out, inside, Option.some.inj depths, listed, listed', reached, reached'⟩

/-- Each line of a text has the balance of the same line with its literals blank. On every line of a
source the extraction and the search for unchecked blocks are at the same depth: those listed here,
at which their loops come to the line. -/
theorem depths_agree :
    (∀ (t : List Char) (i : Nat), (lines t)[i]?.map braceDelta = (lines (blankLiterals t))[i]?.map
      braceDelta) ∧
      (∀ s : List Char, (positionsFrom ⟨0, none⟩ 1 (lines (blankComments s))).map (·.depth) =
        (blockStatesFrom ⟨0, none⟩ (lines (codeOnly s))).map (·.depth)) ∧
      ∀ (s : List Char) (i : Nat), i ≤ (lines (blankComments s)).length →
        ∃ p b out inside, p.depth = b.depth ∧
          (positionsFrom ⟨0, none⟩ 1 (lines (blankComments s)))[i]? = some p ∧
          (blockStatesFrom ⟨0, none⟩ (lines (codeOnly s)))[i]? = some b ∧
          items (blankComments s) = itemsFrom p (1 + i) out ((lines (blankComments s)).drop i) ∧
          uncheckedLines (lines (codeOnly s)) =
            uncheckedFrom b inside ((lines (codeOnly s)).drop i) := by
  refine ⟨fun t i => ?_, fun s => ?_, fun s i le => exists_loops_drop s le⟩
  · rw [← List.getElem?_map, ← List.getElem?_map, braceDelta_lines_blankLiterals]
  · exact depths_positionsFrom rfl (braceDelta_lines_blankLiterals _).symm 1

end AuditPanel.Source
