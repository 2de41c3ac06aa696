import AuditPanel.Text.Lines
import Mathlib.Data.List.Infix

/-!
Lines of texts one after the other. A text is empty, or one line without a line feed, or such a line
and a line feed before the rest: what holds of all lines is shown along these three.
-/

set_option autoImplicit false

namespace AuditPanel.Text

private theorem linesFrom_append {l : List Char} (one : '\n' ∉ l) (line : List Char)
    (out : List (List Char)) (s : List Char) :
    linesFrom line out (l ++ s) = linesFrom (l.reverse ++ line) out s := by
  induction l generalizing line with
  | nil => rfl
  | cons c l ih =>
    obtain ⟨inside, later⟩ : c ≠ '\n' ∧ '\n' ∉ l := by simpa [eq_comm] using one
    rw [List.cons_append, linesFrom.eq_def]
    simp only [if_neg inside, ih later, List.reverse_cons, List.append_assoc, List.singleton_append]

private theorem linesFrom_eq_append (line : List Char) (out : List (List Char)) (s : List Char) :
    linesFrom line out s = out.reverse ++ linesFrom line [] s := by
  induction s generalizing line out with
  | nil => cases line <;> simp [linesFrom]
  | cons c s ih =>
    simp only [linesFrom]
    split
    · rw [ih, ih [] [_]]
      simp
    · exact ih _ _

@[simp] theorem lines_nil : lines [] = [] := rfl

theorem lines_of_not_mem {l : List Char} (filled : l ≠ []) (one : '\n' ∉ l) : lines l = [l] := by
  have whole := linesFrom_append one [] [] []
  rw [List.append_nil, List.append_nil] at whole
  obtain ⟨c, rest, reversed⟩ := List.exists_cons_of_ne_nil (List.reverse_ne_nil_iff.mpr filled)
  rw [lines, whole, reversed, linesFrom, ← reversed, List.reverse_reverse]
  · rfl
  · simp

theorem lines_append_cons {l : List Char} (one : '\n' ∉ l) (s : List Char) :
    lines (l ++ '\n' :: s) = closeLine l.reverse :: lines s := by
  rw [lines, linesFrom_append one, List.append_nil, linesFrom, if_pos rfl, linesFrom_eq_append]
  rfl

@[elab_as_elim] theorem line_induction {motive : List Char → Prop} (nil : motive [])
    (last : ∀ l, l ≠ [] → '\n' ∉ l → motive l)
    (cons : ∀ l s, '\n' ∉ l → motive s → motive (l ++ '\n' :: s))
    (s : List Char) : motive s := by
  by_cases feed : '\n' ∈ s
  · obtain ⟨l, rest, rfl, one⟩ := List.eq_append_cons_of_mem feed
    exact cons l rest one (line_induction nil last cons rest)
  · cases s with
    | nil => exact nil
    | cons c s => exact last (c :: s) (by simp) feed
termination_by s.length

private theorem lines_eq_nil_iff {s : List Char} : lines s = [] ↔ s = [] := by
  induction s using line_induction with
  | nil => simp
  | last l filled one => simp [lines_of_not_mem filled one, filled]
  | cons l s one ih => simp [lines_append_cons one]

theorem closeLine_reverse (l : List Char) :
    closeLine l.reverse = l ∨ closeLine l.reverse ++ ['\r'] = l := by
  generalize reversed : l.reverse = r
  have back : l = r.reverse := by rw [← reversed, List.reverse_reverse]
  rw [back]
  unfold closeLine
  split
  · exact .inr (by simp)
  · exact .inl rfl

theorem closeLine_reverse_of_not_mem {l : List Char} (none : '\r' ∉ l) :
    closeLine l.reverse = l := by
  rcases closeLine_reverse l with same | shorter
  · exact same
  · have member : '\r' ∈ l := by
      rw [← shorter]
      exact List.mem_append_right _ List.mem_cons_self
    exact absurd member none

theorem mem_of_mem_closeLine {l : List Char} {c : Char} (member : c ∈ closeLine l.reverse) :
    c ∈ l := by
  rcases closeLine_reverse l with same | shorter
  · rwa [same] at member
  · rw [← shorter]
    exact List.mem_append_left _ member

theorem mem_of_mem_lines {s l : List Char} {c : Char} (line : l ∈ lines s) (member : c ∈ l) :
    c ∈ s := by
  induction s using line_induction with
  | nil => simp at line
  | last t filled one =>
    rw [lines_of_not_mem filled one, List.mem_singleton] at line
    rwa [← line]
  | cons t s one ih =>
    rw [lines_append_cons one, List.mem_cons] at line
    rcases line with rfl | later
    · exact List.mem_append_left _ (mem_of_mem_closeLine member)
    · exact List.mem_append_right _ (List.mem_cons_of_mem _ (ih later))

private theorem closeLine_append {q : List Char} (filled : q ≠ []) (p : List Char) :
    closeLine (p ++ q).reverse = p ++ closeLine q.reverse := by
  obtain ⟨d, r, reversed⟩ := List.exists_cons_of_ne_nil (List.reverse_ne_nil_iff.mpr filled)
  rw [List.reverse_append, reversed, List.cons_append]
  by_cases returns : d = '\r'
  · subst returns
    simp [closeLine]
  · rw [closeLine.eq_2 _ (by rintro line ⟨⟩; exact returns rfl),
      closeLine.eq_2 _ (by rintro line ⟨⟩; exact returns rfl)]
    simp

theorem exists_line_append {c : Char} (other : c ≠ '\n' ∧ c ≠ '\r') (s : List Char) :
    ∃ more rest, ∀ p : List Char, '\n' ∉ p → lines (p ++ c :: s) = (p ++ c :: more) :: rest := by
  by_cases feed : '\n' ∈ s
  · obtain ⟨l, rest, rfl, one'⟩ := List.eq_append_cons_of_mem feed
    refine ⟨closeLine l.reverse, lines rest, ?_⟩
    intro p one
    have whole : '\n' ∉ p ++ c :: l := by simpa [one, one'] using other.1.symm
    have split : p ++ c :: (l ++ '\n' :: rest) = (p ++ c :: l) ++ '\n' :: rest := by simp
    have closed : closeLine (c :: l).reverse = c :: closeLine l.reverse := by
      cases l with
      | nil => exact closeLine_reverse_of_not_mem (by simpa using other.2.symm)
      | cons d l => exact closeLine_append (List.cons_ne_nil d l) [c]
    rw [split, lines_append_cons whole, closeLine_append (List.cons_ne_nil c l), closed]
  · refine ⟨s, [], ?_⟩
    intro p one
    have whole : '\n' ∉ p ++ c :: s := by simpa [one, feed] using other.1.symm
    exact lines_of_not_mem (by simp) whole

/-- Whether a text is empty or ends with a line feed. -/
def IsEnded (s : List Char) : Prop :=
  s = [] ∨ s.getLast? = some '\n'

private theorem not_isEnded {l : List Char} (filled : l ≠ []) (one : '\n' ∉ l) : ¬IsEnded l := by
  rintro (empty | ended)
  · exact filled empty
  · exact one (List.mem_of_getLast? ended)

private theorem isEnded_append_cons {l s : List Char} : IsEnded (l ++ '\n' :: s) ↔ IsEnded s := by
  rcases List.eq_nil_or_concat' s with rfl | ⟨t, c, rfl⟩
  · simp [IsEnded]
  · have grouped : l ++ '\n' :: (t ++ [c]) = (l ++ '\n' :: t) ++ [c] := by simp
    rw [IsEnded, IsEnded, grouped, List.getLast?_concat, List.getLast?_concat]
    simp

theorem lines_append {front : List Char} (ended : IsEnded front) (s : List Char) :
    lines (front ++ s) = lines front ++ lines s := by
  induction front using line_induction with
  | nil => rfl
  | last l filled one => exact absurd ended (not_isEnded filled one)
  | cons l front one ih =>
    rw [List.append_assoc, List.cons_append, lines_append_cons one, lines_append_cons one,
      ih (isEnded_append_cons.mp ended), List.cons_append]

theorem length_lines {front : List Char} (ended : IsEnded front) :
    (lines front).length = front.count '\n' := by
  induction front using line_induction with
  | nil => rfl
  | last l filled one => exact absurd ended (not_isEnded filled one)
  | cons l front one ih =>
    rw [lines_append_cons one, List.length_cons, ih (isEnded_append_cons.mp ended),
      List.count_append, List.count_eq_zero_of_not_mem one, List.count_cons_self, Nat.zero_add]

theorem exists_isEnded {s : List Char} {n : Nat} (listed : n ≤ s.count '\n') :
    ∃ front rest, s = front ++ rest ∧ IsEnded front ∧ front.count '\n' = n := by
  cases n with
  | zero => exact ⟨[], s, rfl, .inl rfl, rfl⟩
  | succ n =>
    obtain ⟨l, rest, rfl, one⟩ :=
      List.eq_append_cons_of_mem (List.count_pos_iff.mp (by omega : 0 < s.count '\n'))
    have fewer : n ≤ rest.count '\n' := by
      rw [List.count_append, List.count_eq_zero_of_not_mem one, List.count_cons_self] at listed
      omega
    obtain ⟨front, rest, rfl, ended, number⟩ := exists_isEnded fewer
    refine ⟨l ++ '\n' :: front, rest, by simp, isEnded_append_cons.mpr ended, ?_⟩
    rw [List.count_append, List.count_eq_zero_of_not_mem one, List.count_cons_self, number,
      Nat.zero_add]
termination_by s.length

theorem count_lt_length_lines (s : List Char) (c : Char) (t : List Char) :
    s.count '\n' < (lines (s ++ c :: t)).length := by
  obtain ⟨front, rest, rfl, ended, number⟩ := exists_isEnded (Nat.le_refl (s.count '\n'))
  have goesOn : 0 < (lines (rest ++ c :: t)).length :=
    List.length_pos_of_ne_nil (mt lines_eq_nil_iff.mp (by simp))
  rw [List.append_assoc, lines_append ended, List.length_append, length_lines ended, number]
  omega

end AuditPanel.Text
