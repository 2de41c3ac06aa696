import AuditPanel.Proofs.Text.LowerCase
import AuditPanel.Text.Lines
import Mathlib.Data.List.TakeWhile

/-!
Words of a text: its pieces between separators, without punctuation. Texts are joined out of words
and fall into them again, and what stands at the ends or next to a separator and is no letter or
digit does not count.
-/

set_option autoImplicit false

namespace AuditPanel.Text

theorem not_isAlphanumeric_of_isBlank {c : Char} (blank : isBlank c) :
    isAlphanumeric c = false := by
  have points : ∀ r ∈ blankRanges, ∀ n ∈ List.range' r.1 (r.2 + 1 - r.1),
      isAlphanumeric (Char.ofNat n) = false := by decide +kernel
  exact of_inRanges (P := fun c => isAlphanumeric c = false) points blank

private theorem exists_trim (s : List Char) :
    ∃ front back, s = front ++ (trim s ++ back) ∧ (∀ c ∈ front, isBlank c) ∧ ∀ c ∈ back,
      isBlank c := by
  refine ⟨s.takeWhile isBlank, ((trimStart s).reverse.takeWhile isBlank).reverse, ?_, ?_, ?_⟩
  · rw [trim, trimEnd, ← List.reverse_append, List.takeWhile_append_dropWhile, List.reverse_reverse,
      trimStart, List.takeWhile_append_dropWhile]
  · exact List.all_eq_true.mp List.all_takeWhile
  · intro c member
    exact List.all_eq_true.mp List.all_takeWhile c (List.mem_reverse.mp member)

theorem trim_blanks_append {blanks : List Char} (blank : ∀ c ∈ blanks, isBlank c) (s : List Char) :
    trim (blanks ++ s) = trim s := by
  rw [trim, trim, trimStart, List.dropWhile_append_of_pos blank, ← trimStart]

theorem trim_append_blanks {blanks : List Char} (blank : ∀ c ∈ blanks, isBlank c) (s : List Char) :
    trim (s ++ blanks) = trim s := by
  have behind (t : List Char) : trimEnd (t ++ blanks) = trimEnd t := by
    rw [trimEnd, List.reverse_append, List.dropWhile_append_of_pos fun c member =>
      blank c (List.mem_reverse.mp member), trimEnd]
  rw [trim, trim, trimStart, trimStart, List.dropWhile_append]
  split
  · next none => rw [List.dropWhile_eq_nil_iff.mpr blank, List.isEmpty_iff.mp none]
  · exact behind _

theorem trim_of_solid_ends {s : List Char} (first : ∀ c ∈ s.head?, isBlank c = false)
    (last : ∀ c ∈ s.getLast?, isBlank c = false) : trim s = s := by
  have kept {t : List Char} (head : ∀ c ∈ t.head?, isBlank c = false) :
      t.dropWhile isBlank = t := by
    cases t with
    | nil => rfl
    | cons c t => exact List.dropWhile_cons_of_neg (by simp [head c rfl])
  rw [trim, trimStart, kept first, trimEnd, kept (by simpa using last), List.reverse_reverse]

theorem flatten_splitOnP (p : Char → Bool) (s : List Char) :
    (s.splitOnP p).flatten = s.filter (!p ·) := by
  induction s with
  | nil => simp [List.splitOnP_nil]
  | cons c s ih =>
    obtain ⟨piece, pieces, split⟩ := List.exists_cons_of_ne_nil (List.splitOnP_ne_nil p s)
    rw [split] at ih
    cases separates : p c <;> simp [List.splitOnP_cons_eq_if_modifyHead, separates, split, ← ih]

theorem of_mem_splitOnP {p : Char → Bool} {s piece : List Char} (member : piece ∈ s.splitOnP p) :
    ∀ c ∈ piece, p c = false := by
  intro c inside
  have letter : c ∈ (s.splitOnP p).flatten := List.mem_flatten_of_mem member inside
  rw [flatten_splitOnP] at letter
  simpa using (List.mem_filter.mp letter).2

private theorem piecesFrom_eq (p : Char → Bool) (piece : List Char) (out : List (List Char))
    (s : List Char) :
    piecesFrom p piece out s = out.reverse ++ (s.splitOnP p).modifyHead (piece.reverse ++ ·) := by
  induction s generalizing piece out with
  | nil => simp [piecesFrom, List.splitOnP_nil]
  | cons c s ih =>
    obtain ⟨first, rest, split⟩ := List.exists_cons_of_ne_nil (List.splitOnP_ne_nil p s)
    cases separates : p c
      <;> simp [piecesFrom, List.splitOnP_cons_eq_if_modifyHead, separates, ih, split]

theorem piecesBetween_eq (p : Char → Bool) (s : List Char) : piecesBetween p s = s.splitOnP p := by
  obtain ⟨piece, pieces, split⟩ := List.exists_cons_of_ne_nil (List.splitOnP_ne_nil p s)
  rw [piecesBetween, piecesFrom_eq, split]
  rfl

private theorem runsFrom_eq (p : Char → Bool) (run : List Char) (out : List (List Char))
    (s : List Char) :
    runsFrom p run out s = out.reverse ++ ((s.splitOnP p).modifyHead (run.reverse ++ ·)).filter
      (· ≠ []) := by
  induction s generalizing run out with
  | nil => cases run <;> simp [runsFrom, List.splitOnP_nil]
  | cons c s ih =>
    obtain ⟨piece, pieces, split⟩ := List.exists_cons_of_ne_nil (List.splitOnP_ne_nil p s)
    cases separates : p c <;> cases run <;>
      simp [runsFrom, List.splitOnP_cons_eq_if_modifyHead, separates, ih, split]

theorem runsBetween_eq (p : Char → Bool) (s : List Char) :
    runsBetween p s = (s.splitOnP p).filter (· ≠ []) := by
  obtain ⟨piece, pieces, split⟩ := List.exists_cons_of_ne_nil (List.splitOnP_ne_nil p s)
  rw [runsBetween, runsFrom_eq, split]
  rfl

theorem head?_runsBetween {p : Char → Bool} {w rest : List Char} (filled : w ≠ [])
    (inside : ∀ c ∈ w, p c = false)
    (ends : ∀ c ∈ rest.head?, p c) : (runsBetween p (w ++ rest)).head? = some w := by
  rw [runsBetween_eq]
  cases rest with
  | nil => simp [List.splitOnP_eq_singleton inside, filled]
  | cons c rest =>
    simp [List.splitOnP_append_cons w rest (ends c rfl), List.splitOnP_eq_singleton inside, filled]

section Blank

variable {c : Char} {s t : List Char}

theorem words_append_blank (blank : isBlank c) : words (s ++ c :: t) = words s ++ words t := by
  rw [words, words, words, runsBetween_eq, runsBetween_eq, runsBetween_eq,
    List.splitOnP_append_cons s t blank, List.filter_append]

private theorem words_nil : words [] = [] := rfl

theorem words_blanks_append {blanks : List Char} (blank : ∀ c ∈ blanks, isBlank c) :
    words (blanks ++ s) = words s := by
  induction blanks with
  | nil => rfl
  | cons c blanks ih =>
    obtain ⟨head, tail⟩ := List.forall_mem_cons.mp blank
    have front : words ([] ++ c :: (blanks ++ s)) = words [] ++ words (blanks ++ s) :=
      words_append_blank head
    rw [words_nil, List.nil_append, List.nil_append, ih tail] at front
    exact front

private theorem words_append_blanks {blanks : List Char} (blank : ∀ c ∈ blanks, isBlank c) :
    words (s ++ blanks) = words s := by
  cases blanks with
  | nil => rw [List.append_nil]
  | cons c blanks =>
    obtain ⟨head, tail⟩ := List.forall_mem_cons.mp blank
    have blanks := words_blanks_append (s := []) tail
    rw [List.append_nil, words_nil] at blanks
    rw [words_append_blank head, blanks, List.append_nil]

theorem words_trim : words (trim s) = words s := by
  obtain ⟨front, back, whole, front', back'⟩ := exists_trim s
  calc words (trim s) = words (trim s ++ back) := (words_append_blanks back').symm
    _ = words (front ++ (trim s ++ back)) := (words_blanks_append front').symm
    _ = words s := by rw [← whole]

theorem words_of_solid (filled : s ≠ []) (solid : ∀ c ∈ s, isBlank c = false) : words s = [s] := by
  rw [words, runsBetween_eq, List.splitOnP_eq_singleton solid]
  simp [filled]

theorem flatten_words : (words s).flatten = s.filter (!isBlank ·) := by
  rw [words, runsBetween_eq, ← flatten_splitOnP]
  exact List.flatten_filter_ne_nil

theorem solid_of_mem_words {w : List Char} (member : w ∈ words s) : ∀ c ∈ w, isBlank c = false := by
  rw [words, runsBetween_eq] at member
  exact of_mem_splitOnP (List.mem_filter.mp member).1

theorem ne_nil_of_mem_words {w : List Char} (member : w ∈ words s) : w ≠ [] := by
  rw [words, runsBetween_eq] at member
  simpa using (List.mem_filter.mp member).2

end Blank

/-- The pieces between characters on which `p` holds, without the characters that are no letters or
digits. -/
def piecesOfWords (p : Char → Bool) (s : List Char) : List (List Char) :=
  (s.splitOnP p).map (·.filter isAlphanumeric)

/-- The words of a text between characters on which `p` holds: what is left of the pieces without
punctuation, if anything is. -/
def wordsBetween (p : Char → Bool) (s : List Char) : List (List Char) :=
  (piecesOfWords p s).filter (· ≠ [])

/-- Letters and digits, and one of them at least. -/
def IsWord (w : List Char) : Prop :=
  w ≠ [] ∧ ∀ c ∈ w, isAlphanumeric c

section Between

variable {p : Char → Bool} {c : Char} {s t : List Char}

theorem piecesOfWords_cons_sep (separates : p c) :
    piecesOfWords p (c :: s) = [] :: piecesOfWords p s := by
  simp [piecesOfWords, List.splitOnP_cons_eq_if_modifyHead, separates]

theorem piecesOfWords_cons_letter (inside : p c = false) (letter : isAlphanumeric c) :
    piecesOfWords p (c :: s) = (piecesOfWords p s).modifyHead (c :: ·) := by
  obtain ⟨piece, pieces, split⟩ := List.exists_cons_of_ne_nil (List.splitOnP_ne_nil p s)
  simp [piecesOfWords, List.splitOnP_cons_eq_if_modifyHead, inside, split, letter]

theorem piecesOfWords_cons_mark (inside : p c = false) (mark : isAlphanumeric c = false) :
    piecesOfWords p (c :: s) = piecesOfWords p s := by
  obtain ⟨piece, pieces, split⟩ := List.exists_cons_of_ne_nil (List.splitOnP_ne_nil p s)
  simp [piecesOfWords, List.splitOnP_cons_eq_if_modifyHead, inside, split, mark]

theorem piecesOfWords_ne_nil : piecesOfWords p s ≠ [] := by
  simp [piecesOfWords]

@[simp] theorem wordsBetween_nil : wordsBetween p [] = [] := by
  simp [wordsBetween, piecesOfWords, List.splitOnP_nil]

theorem wordsBetween_cons (mark : isAlphanumeric c = false) :
    wordsBetween p (c :: s) = wordsBetween p s := by
  cases inside : p c with
  | true => simp [wordsBetween, piecesOfWords_cons_sep inside]
  | false => rw [wordsBetween, piecesOfWords_cons_mark inside mark, wordsBetween]

theorem wordsBetween_append_sep (separates : p c) :
    wordsBetween p (s ++ c :: t) = wordsBetween p s ++ wordsBetween p t := by
  simp [wordsBetween, piecesOfWords, List.splitOnP_append_cons s t separates]

theorem wordsBetween_marks_append {marks : List Char}
    (none : ∀ c ∈ marks, isAlphanumeric c = false) :
    wordsBetween p (marks ++ s) = wordsBetween p s := by
  induction marks with
  | nil => rfl
  | cons c marks ih =>
    obtain ⟨head, tail⟩ := List.forall_mem_cons.mp none
    rw [List.cons_append, wordsBetween_cons head, ih tail]

private theorem wordsBetween_concat (mark : isAlphanumeric c = false) :
    wordsBetween p (s ++ [c]) = wordsBetween p s := by
  cases separates : p c with
  | true => rw [wordsBetween_append_sep separates, wordsBetween_nil, List.append_nil]
  | false =>
    have pieces : piecesOfWords p (s ++ [c]) = piecesOfWords p s := by
      induction s with
      | nil => exact piecesOfWords_cons_mark separates mark
      | cons d s ih =>
        rw [List.cons_append]
        cases inside : p d with
        | true => rw [piecesOfWords_cons_sep inside, piecesOfWords_cons_sep inside, ih]
        | false =>
          cases letter : isAlphanumeric d with
          | true =>
            rw [piecesOfWords_cons_letter inside letter, piecesOfWords_cons_letter inside letter,
              ih]
          | false =>
            rw [piecesOfWords_cons_mark inside letter, piecesOfWords_cons_mark inside letter, ih]
    rw [wordsBetween, pieces, wordsBetween]

theorem wordsBetween_append_marks {marks : List Char}
    (none : ∀ c ∈ marks, isAlphanumeric c = false) :
    wordsBetween p (s ++ marks) = wordsBetween p s := by
  induction marks generalizing s with
  | nil => rw [List.append_nil]
  | cons c marks ih =>
    obtain ⟨head, tail⟩ := List.forall_mem_cons.mp none
    rw [List.append_cons, ih tail, wordsBetween_concat head]

theorem wordsBetween_trim : wordsBetween p (trim s) = wordsBetween p s := by
  obtain ⟨front, back, whole, front', back'⟩ := exists_trim s
  have marks (blanks : List Char) (all : ∀ c ∈ blanks, isBlank c) : ∀ c ∈ blanks,
      isAlphanumeric c = false :=
    fun c member => not_isAlphanumeric_of_isBlank (all c member)
  calc wordsBetween p (trim s) = wordsBetween p (trim s ++ back) :=
    (wordsBetween_append_marks (marks back back')).symm
    _ = wordsBetween p (front ++ (trim s ++ back)) :=
      (wordsBetween_marks_append (marks front front')).symm
    _ = wordsBetween p s := by rw [← whole]

theorem flatten_wordsBetween (inside : ∀ c, isAlphanumeric c → p c = false) :
    (wordsBetween p s).flatten = s.filter isAlphanumeric := by
  have pieces : (piecesOfWords p s).flatten = s.filter isAlphanumeric := by
    induction s with
    | nil => simp [piecesOfWords, List.splitOnP_nil]
    | cons c s ih =>
      obtain ⟨piece, pieces, split⟩ :=
        List.exists_cons_of_ne_nil (piecesOfWords_ne_nil (p := p) (s := s))
      cases letter : isAlphanumeric c with
      | true =>
        rw [piecesOfWords_cons_letter (inside c letter) letter, List.filter_cons_of_pos letter,
          ← ih, split]
        rfl
      | false =>
        rw [List.filter_cons_of_neg (by simp [letter]), ← ih]
        cases separates : p c with
        | true => rw [piecesOfWords_cons_sep separates, List.flatten_cons, List.nil_append]
        | false => rw [piecesOfWords_cons_mark separates letter]
  rw [wordsBetween, ← pieces]
  exact List.flatten_filter_ne_nil

theorem isWord_of_mem_wordsBetween {w : List Char} (member : w ∈ wordsBetween p s) : IsWord w := by
  obtain ⟨listed, filled⟩ := List.mem_filter.mp member
  obtain ⟨piece, -, rfl⟩ := List.mem_map.mp listed
  refine ⟨by simpa using filled, ?_⟩
  intro c member
  exact (List.mem_filter.mp member).2

theorem wordsBetween_of_isWord {w : List Char} (inside : ∀ c, isAlphanumeric c → p c = false)
    (word : IsWord w) :
    wordsBetween p w = [w] := by
  have whole : w.splitOnP p = [w] := List.splitOnP_eq_singleton fun c member =>
    inside c (word.2 c member)
  have kept : w.filter isAlphanumeric = w := List.filter_eq_self.mpr word.2
  simp [wordsBetween, piecesOfWords, whole, kept, word.1]

end Between

theorem joinWith_cons (sep w : List Char) (ws : List (List Char)) :
    joinWith sep (w :: ws) = w ++ ws.flatMap (sep ++ ·) := by
  induction ws generalizing w with
  | nil => simp [joinWith]
  | cons v ws ih =>
    have later := ih v
    simp only [joinWith] at later ⊢
    simp [later]

theorem mem_joinWith {c : Char} {sep : List Char} {ws : List (List Char)} (other : c ∉ sep) :
    c ∈ joinWith sep ws ↔ c ∈ ws.flatten := by
  cases ws with
  | nil => rfl
  | cons w ws => simp [joinWith_cons, other]

theorem wordsBetween_joinWith {p : Char → Bool} {sep : Char} {ws : List (List Char)}
    (separates : p sep)
    (inside : ∀ c, isAlphanumeric c → p c = false) (words : ∀ w ∈ ws, IsWord w) :
    wordsBetween p (joinWith [sep] ws) = ws := by
  cases ws with
  | nil => exact wordsBetween_nil
  | cons w ws =>
    rw [joinWith_cons]
    induction ws generalizing w with
    | nil => simpa using wordsBetween_of_isWord inside (words w List.mem_cons_self)
    | cons v ws ih =>
      obtain ⟨head, tail⟩ := List.forall_mem_cons.mp words
      rw [List.flatMap_cons, List.append_assoc, List.singleton_append,
        wordsBetween_append_sep separates, wordsBetween_of_isWord inside head, ih v tail,
        List.singleton_append]

end AuditPanel.Text
