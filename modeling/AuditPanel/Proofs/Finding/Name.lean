import AuditPanel.Proofs.Consensus.Merge
import AuditPanel.Proofs.Text.Words
import Mathlib.Data.List.Infix

/-!
Names of findings as words. A normalised name is made of the words of the lower-cased name, and
these are told apart by spaces: other blanks are dropped like punctuation, so that the words on both
sides become one.
-/

set_option autoImplicit false

namespace AuditPanel

namespace Text

/-- Between a letter or digit and the next one, where some character is of the second kind some is
of the first. -/
def GapsHave (p q : Char → Bool) (s : List Char) : Prop :=
  ∀ c gap d, c :: (gap ++ [d]) <:+: s → isAlphanumeric c → isAlphanumeric d →
    (∀ x ∈ gap, isAlphanumeric x = false) → (∃ x ∈ gap, q x) → ∃ x ∈ gap, p x

section Gaps

variable {p q : Char → Bool} {c d : Char} {gap s : List Char}

private theorem gapsHave_cons_mark (mark : isAlphanumeric c = false) :
    GapsHave p q (c :: s) ↔ GapsHave p q s := by
  constructor
  · intro gaps e gap d place
    exact gaps e gap d (place.trans (List.suffix_cons c s).isInfix)
  · intro gaps e gap d place letter
    rcases List.infix_cons_iff.mp place with front | later
    · obtain ⟨rfl, -⟩ := List.cons_prefix_cons.mp front
      exact absurd letter (by simp [mark])
    · exact gaps e gap d later letter

private theorem gapsHave_marks_append (none : ∀ x ∈ gap, isAlphanumeric x = false) :
    GapsHave p q (gap ++ s) ↔ GapsHave p q s := by
  induction gap with
  | nil => rfl
  | cons x gap ih =>
    obtain ⟨head, tail⟩ := List.forall_mem_cons.mp none
    exact (gapsHave_cons_mark head).trans (ih tail)

private theorem gapsHave_cons_letter (letter : isAlphanumeric c) (letter' : isAlphanumeric d)
    (none : ∀ x ∈ gap, isAlphanumeric x = false) :
    GapsHave p q (c :: (gap ++ d :: s)) ↔ ((∃ x ∈ gap, q x) → ∃ x ∈ gap, p x) ∧
      GapsHave p q (d :: s) := by
  have first (gap' s' : List Char) (e : Char) (marks : ∀ x ∈ gap', isAlphanumeric x = false)
    (last : isAlphanumeric e) :
      (gap' ++ e :: s').takeWhile (fun x => !isAlphanumeric x) = gap' := by
    rw [List.takeWhile_append_of_pos (by simpa using marks),
      List.takeWhile_cons_of_neg (by simp [last]), List.append_nil]
  constructor
  · intro gaps
    constructor
    · exact gaps c gap d ⟨[], s, by simp⟩ letter letter' none
    · intro e gap' d' place
      exact gaps e gap' d' (place.trans ⟨c :: gap, [], by simp⟩)
  · rintro ⟨here, later⟩ e gap' d' place last last' marks
    rcases List.infix_cons_iff.mp place with front | behind
    · obtain ⟨rest, whole⟩ := (List.cons_prefix_cons.mp front).2
      have same : gap' = gap := by
        rw [← first gap' rest d' marks last', ← first gap s d none letter', ← whole,
          List.append_assoc, List.singleton_append]
      rw [same]
      exact here
    · exact (gapsHave_marks_append none).mpr later e gap' d' behind last last' marks

private theorem gapsHave_cons_marks (none : ∀ x ∈ gap, isAlphanumeric x = false) :
    GapsHave p q (c :: gap) := by
  intro e gap' d place last last' marks
  rcases List.infix_cons_iff.mp place with front | behind
  · obtain ⟨rest, whole⟩ := (List.cons_prefix_cons.mp front).2
    have member : d ∈ gap := by simp [← whole]
    exact absurd last' (by simp [none d member])
  · have member : d ∈ gap := behind.subset (by simp)
    exact absurd last' (by simp [none d member])

private theorem wordsBetween_cons_gap (inside : ∀ c, isAlphanumeric c → p c = false)
    (letter : isAlphanumeric c)
    (none : ∀ x ∈ gap, isAlphanumeric x = false) (separated : ∃ x ∈ gap, p x) :
    wordsBetween p (c :: (gap ++ s)) = [c] :: wordsBetween p s := by
  obtain ⟨x, member, separates⟩ := separated
  obtain ⟨before, after, rfl⟩ := List.append_of_mem member
  have word : IsWord [c] := ⟨by simp, by simpa using letter⟩
  have marks : (∀ x ∈ before, isAlphanumeric x = false) ∧ ∀ x ∈ after, isAlphanumeric x = false :=
    ⟨fun x inside => none x (by simp [inside]), fun x inside => none x (by simp [inside])⟩
  calc wordsBetween p (c :: (before ++ x :: after ++ s))
      = wordsBetween p ([c] ++ before ++ x :: (after ++ s)) := by simp
    _ = wordsBetween p [c] ++ wordsBetween p s := by
      rw [wordsBetween_append_sep separates, wordsBetween_append_marks marks.1,
        wordsBetween_marks_append marks.2]
    _ = [c] :: wordsBetween p s := by rw [wordsBetween_of_isWord inside word, List.singleton_append]

private theorem wordsBetween_cons_joined (inside : ∀ c, isAlphanumeric c → p c = false)
    (letter : isAlphanumeric c)
    (letter' : isAlphanumeric d) (none : ∀ x ∈ gap, isAlphanumeric x = false)
    (joined : ∀ x ∈ gap, p x = false) :
    ∃ w ws, wordsBetween p (d :: s) = (d :: w) :: ws ∧ wordsBetween p (c :: (gap ++ d :: s)) =
      (c :: d :: w) :: ws := by
  have skipped : piecesOfWords p (gap ++ d :: s) = piecesOfWords p (d :: s) := by
    induction gap with
    | nil => rfl
    | cons x gap ih =>
      obtain ⟨mark, marks⟩ := List.forall_mem_cons.mp none
      obtain ⟨head, tail⟩ := List.forall_mem_cons.mp joined
      rw [List.cons_append, piecesOfWords_cons_mark head mark, ih marks tail]
  obtain ⟨w, pieces, split⟩ := List.exists_cons_of_ne_nil (piecesOfWords_ne_nil (p := p) (s := s))
  have own : piecesOfWords p (d :: s) = (d :: w) :: pieces := by
    rw [piecesOfWords_cons_letter (inside d letter') letter', split]
    rfl
  refine ⟨w, pieces.filter (· ≠ []), ?_, ?_⟩
  · rw [wordsBetween, own]
    rfl
  · rw [wordsBetween, piecesOfWords_cons_letter (inside c letter) letter, skipped, own]
    rfl

private theorem exists_gap (s : List Char) : ∃ gap, (∀ x ∈ gap, isAlphanumeric x = false) ∧
    (gap = s ∨ ∃ d t, isAlphanumeric d ∧ gap ++ d :: t = s) := by
  induction s with
  | nil => exact ⟨[], by simp, .inl rfl⟩
  | cons c s ih =>
    cases letter : isAlphanumeric c with
    | true => exact ⟨[], by simp, .inr ⟨c, s, letter, rfl⟩⟩
    | false =>
      obtain ⟨gap, none, rfl | ⟨d, t, first, rfl⟩⟩ := ih
      · exact ⟨c :: gap, List.forall_mem_cons.mpr ⟨letter, none⟩, .inl rfl⟩
      · exact ⟨c :: gap, List.forall_mem_cons.mpr ⟨letter, none⟩, .inr ⟨d, t, first, rfl⟩⟩

private theorem wordsBetween_eq_iff (fewer : ∀ c, p c → q c)
    (inside : ∀ c, isAlphanumeric c → q c = false) (s : List Char) :
    wordsBetween p s = wordsBetween q s ↔ GapsHave p q s := by
  have inside' : ∀ c, isAlphanumeric c → p c = false := by
    intro c letter
    cases separates : p c with
    | false => rfl
    | true => exact absurd (fewer c separates) (by simp [inside c letter])
  match s with
  | [] => simp [GapsHave]
  | c :: s =>
    cases letter : isAlphanumeric c with
    | false =>
      rw [wordsBetween_cons letter, wordsBetween_cons letter, gapsHave_cons_mark letter]
      exact wordsBetween_eq_iff fewer inside s
    | true =>
      have word : IsWord [c] := ⟨by simp, by simpa using letter⟩
      obtain ⟨gap, none, rfl | ⟨d, t, letter', rfl⟩⟩ := exists_gap s
      · refine iff_of_true ?_ (gapsHave_cons_marks none)
        have alone : c :: gap = [c] ++ gap := rfl
        rw [alone, wordsBetween_append_marks none, wordsBetween_append_marks none,
          wordsBetween_of_isWord inside' word, wordsBetween_of_isWord inside word]
      · have later := wordsBetween_eq_iff fewer inside (d :: t)
        rw [gapsHave_cons_letter letter letter' none, ← later]
        by_cases first : ∃ x ∈ gap, p x
        · have second : ∃ x ∈ gap, q x := by
            obtain ⟨x, member, separates⟩ := first
            exact ⟨x, member, fewer x separates⟩
          rw [wordsBetween_cons_gap inside' letter none first,
            wordsBetween_cons_gap inside letter none second]
          simp [first]
        · obtain ⟨w, ws, own, joined⟩ :=
            wordsBetween_cons_joined (s := t) inside' letter letter' none (by simpa using first)
          rw [own, joined]
          by_cases second : ∃ x ∈ gap, q x
          · -- The letter alone is a word on one side only.
            rw [wordsBetween_cons_gap inside letter none second]
            simp [first, second]
          · obtain ⟨w', ws', own', joined'⟩ :=
              wordsBetween_cons_joined (s := t) inside letter letter' none (by simpa using second)
            rw [own', joined']
            simp [second]
termination_by s.length

end Gaps

/-- Whether a character is the space, which alone separates words in names. -/
def isSpace (c : Char) : Bool := c == ' '

private theorem isBlank_of_isSpace {c : Char} (space : isSpace c) : isBlank c := by
  rw [show c = ' ' by simpa [isSpace] using space]
  decide

private theorem isBlank_eq_false_of_isAlphanumeric (c : Char) (letter : isAlphanumeric c) :
    isBlank c = false := by
  cases blank : isBlank c with
  | false => rfl
  | true => exact absurd letter (by simp [not_isAlphanumeric_of_isBlank blank])

private theorem isSpace_eq_false_of_isAlphanumeric (c : Char) (letter : isAlphanumeric c) :
    isSpace c = false := by
  cases space : isSpace c with
  | false => rfl
  | true =>
    exact absurd (isBlank_of_isSpace space) (by simp [isBlank_eq_false_of_isAlphanumeric c letter])

/-- Whether the blanks between any two letters or digits, with nothing else but punctuation there,
include a space. -/
def IsSpaced (s : List Char) : Prop :=
  GapsHave isSpace isBlank s

/-- Without punctuation, and without blanks other than spaces, a text has the words that stand
between spaces. -/
private theorem words_filter (s : List Char) :
    words (s.filter fun c => isAlphanumeric c || c == ' ') = wordsBetween isSpace s := by
  have pieces : (s.filter fun c => isAlphanumeric c || c == ' ').splitOnP isBlank =
      piecesOfWords isSpace s := by
    induction s with
    | nil => simp [piecesOfWords, List.splitOnP_nil]
    | cons c s ih =>
      cases letter : isAlphanumeric c with
      | true =>
        have inside := isBlank_eq_false_of_isAlphanumeric c letter
        rw [piecesOfWords_cons_letter (isSpace_eq_false_of_isAlphanumeric c letter) letter, ← ih,
          List.filter_cons_of_pos (by simp [letter]), List.splitOnP_cons_eq_if_modifyHead, inside]
        rfl
      | false =>
        cases space : isSpace c with
        | true =>
          have separates := isBlank_of_isSpace space
          rw [piecesOfWords_cons_sep space, ← ih,
            List.filter_cons_of_pos (by simpa [letter, isSpace] using space),
              List.splitOnP_cons_eq_if_modifyHead, separates]
          rfl
        | false =>
          rw [piecesOfWords_cons_mark space letter, ← ih,
            List.filter_cons_of_neg (by simpa [letter, isSpace] using space)]
  rw [words, runsBetween_eq, pieces, wordsBetween]

end Text

open Text

section Name

variable (name : List Char)

private theorem normalizeName_eq :
    normalizeName name = joinWith [' '] (wordsBetween isSpace (toLower name)) := by
  rw [normalizeName, words_filter, wordsBetween_trim]

private theorem wordsBetween_normalizeName :
    wordsBetween isSpace (normalizeName name) = wordsBetween isSpace (toLower name) := by
  rw [normalizeName_eq]
  exact wordsBetween_joinWith (by decide) isSpace_eq_false_of_isAlphanumeric fun w =>
    isWord_of_mem_wordsBetween

private theorem lowerChar_of_mem_normalizeName {c : Char} (member : c ∈ normalizeName name) :
    lowerChar c = [c] := by
  by_cases space : c = ' '
  · rw [space]
    decide
  · rw [normalizeName_eq, mem_joinWith (by simpa using space),
      flatten_wordsBetween isSpace_eq_false_of_isAlphanumeric] at member
    exact lowerChar_of_mem_toLower (List.mem_filter.mp member).1

private theorem normalizeName_idem : normalizeName (normalizeName name) = normalizeName name := by
  have lower : toLower (normalizeName name) = normalizeName name :=
    toLower_of_lower fun c => lowerChar_of_mem_normalizeName name
  rw [normalizeName_eq (normalizeName name), lower, wordsBetween_normalizeName, ← normalizeName_eq]

private theorem normalizeName_inj {name' : List Char} :
    normalizeName name = normalizeName name' ↔
      wordsBetween isSpace (toLower name) = wordsBetween isSpace (toLower name') := by
  constructor
  · intro same
    rw [← wordsBetween_normalizeName, same, wordsBetween_normalizeName]
  · intro same
    rw [normalizeName_eq, same, ← normalizeName_eq]

private theorem normalizeName_eq_joinWith_blanks :
    normalizeName name = joinWith [' '] (wordsBetween isBlank (toLower name)) ↔
      IsSpaced (toLower name) := by
  have apart : wordsBetween isSpace (joinWith [' '] (wordsBetween isBlank (toLower name))) =
      wordsBetween isBlank (toLower name) :=
    wordsBetween_joinWith (by decide) isSpace_eq_false_of_isAlphanumeric fun w =>
      isWord_of_mem_wordsBetween
  rw [IsSpaced, ← wordsBetween_eq_iff (fun c => isBlank_of_isSpace)
    isBlank_eq_false_of_isAlphanumeric]
  constructor
  · intro same
    rw [← wordsBetween_normalizeName, same, apart]
  · intro same
    rw [normalizeName_eq, same]

end Name

/-- The words of a name in lower case, character by character, between blanks of any kind and
without punctuation. -/
def nameWords (name : List Char) : List (List Char) :=
  wordsBetween isBlank (name.flatMap lowerChar)

/-- Findings in one category and with the same lines, whose names differ only in case, punctuation
and the blanks between words. -/
structure NamedAlike (f g : Finding) : Prop where
  category : f.category = g.category
  lines : f.affectedLines = g.affectedLines
  words : nameWords f.name.toList = nameWords g.name.toList

section Keys

variable {f g : Finding}

private theorem key_eq_iff_words :
    f.key = g.key ↔ f.category = g.category ∧ f.affectedLines = g.affectedLines ∧
    wordsBetween isSpace (toLower f.name.toList) = wordsBetween isSpace
      (toLower g.name.toList) := by
  simp only [Finding.key, FindingKey.mk.injEq, String.ofList_inj, normalizeName_inj]
  tauto

theorem NamedAlike.key_eq (alike : NamedAlike f g) (plain : 'Σ' ∉ f.name.toList)
    (plain' : 'Σ' ∉ g.name.toList)
    (spaced : IsSpaced (toLower f.name.toList)) (spaced' : IsSpaced (toLower g.name.toList)) :
    f.key = g.key := by
  have between (name : List Char) (plain : 'Σ' ∉ name) (spaced : IsSpaced (toLower name)) :
      wordsBetween isSpace (toLower name) = nameWords name := by
    rw [nameWords, ← toLower_eq_flatMap plain]
    exact (wordsBetween_eq_iff (fun c => isBlank_of_isSpace) isBlank_eq_false_of_isAlphanumeric
      _).mpr spaced
  refine key_eq_iff_words.mpr ⟨alike.category, alike.lines, ?_⟩
  rw [between _ plain spaced, between _ plain' spaced', alike.words]

end Keys

open Consensus

/-- A name is read as its words between spaces. These are its words between blanks of any kind
exactly where it is spaced, and findings that are named alike with spaced names merge. -/
theorem normalizeName_byWords (name : List Char) :
    normalizeName name = joinWith [' '] (wordsBetween isSpace (toLower name)) ∧
      (normalizeName name = joinWith [' '] (wordsBetween isBlank (toLower name)) ↔
        IsSpaced (toLower name)) ∧ normalizeName (normalizeName name) = normalizeName name ∧
      ∀ f g : Finding,
        (f.key = g.key ↔ f.category = g.category ∧ f.affectedLines = g.affectedLines ∧
          wordsBetween isSpace (toLower f.name.toList) = wordsBetween isSpace
            (toLower g.name.toList)) ∧ (NamedAlike f g → 'Σ' ∉ f.name.toList → 'Σ' ∉ g.name.toList →
          IsSpaced (toLower f.name.toList) → IsSpaced (toLower g.name.toList) →
          f.key = g.key ∧ ∀ fs : List Finding, f ∈ fs → g ∈ fs →
            ∃ m, (merged fs).filter (·.key = f.key) = [m] ∧
              IsMerge (fs.filter (·.key = f.key)) m) := by
  refine ⟨normalizeName_eq name, normalizeName_eq_joinWith_blanks name, normalizeName_idem name, ?_⟩
  intro f g
  refine ⟨key_eq_iff_words, ?_⟩
  intro alike plain plain' spaced spaced'
  refine ⟨alike.key_eq plain plain' spaced spaced', ?_⟩
  intro fs member member'
  exact exists_filter_merged (List.mem_map_of_mem member)

/-- Case, punctuation inside words and further spaces do not keep findings apart. -/
theorem normalizeName_byWords_reentrant :
    let f : Finding :=
      { (default : Finding) with name := "Re-entrant call", detectedBy := ["security"] }
    let g : Finding :=
      { (default : Finding) with name := " reentrant\t  CALL!", detectedBy := ["static"] }
    f.key = g.key ∧ ∃ m, (merged [f, g]).filter (·.key = f.key) = [m] ∧
      IsMerge ([f, g].filter (·.key = f.key)) m := by
  intro f g
  have alike : NamedAlike f g := ⟨rfl, rfl, by decide⟩
  obtain ⟨-, inSpaces, -, findings⟩ := normalizeName_byWords f.name.toList
  obtain ⟨-, inSpaces', -⟩ := normalizeName_byWords g.name.toList
  have spaced : IsSpaced (toLower f.name.toList) := inSpaces.mp (by decide)
  have spaced' : IsSpaced (toLower g.name.toList) := inSpaces'.mp (by decide)
  obtain ⟨same, merges⟩ := (findings f g).2 alike (by decide) (by decide) spaced spaced'
  exact ⟨same, merges [f, g] (by simp) (by simp)⟩

/-- A tab between words is dropped and the words become one. A capital sigma before punctuation is
the last of its word in lower case, and not where the punctuation is left out. -/
theorem normalizeName_tabbed :
    let named (name : String) : Finding := { (default : Finding) with name := name }
    normalizeName "Unsafe\tcall".toList = "unsafecall".toList ∧
      joinWith [' '] (wordsBetween isBlank (toLower "Unsafe\tcall".toList)) = "unsafe call".toList ∧
      NamedAlike (named "Unsafe\tcall") (named "Unsafe call") ∧
      (named "Unsafe\tcall").key ≠ (named "Unsafe call").key ∧
      NamedAlike (named "ΑΣ(Β)") (named "ΑΣΒ") ∧ (named "ΑΣ(Β)").key ≠ (named "ΑΣΒ").key := by
  refine ⟨?_, ?_, ⟨rfl, rfl, ?_⟩, ?_, ⟨rfl, rfl, ?_⟩, ?_⟩ <;> decide

end AuditPanel
