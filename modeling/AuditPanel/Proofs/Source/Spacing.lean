import AuditPanel.Proofs.Source.Header
import AuditPanel.Proofs.Text.Words

/-!
Blanks in headers. What is read from the header of a function does not depend on which of its blanks
are spaces and which are line feeds or tabs.
-/

set_option autoImplicit false

namespace AuditPanel.Source

open AuditPanel.Text

/-- A character, or a space for a blank of any kind. -/
def spaceOf (c : Char) : Char :=
  if isBlank c then ' ' else c

/-- A text with a space for each blank. -/
def spaced (s : List Char) : List Char :=
  s.map spaceOf

private theorem spaceOf_of_solid {c : Char} (solid : isBlank c = false) : spaceOf c = c := by
  rw [spaceOf, solid, if_neg Bool.false_ne_true]

theorem spaceOf_of_blank {c : Char} (blank : isBlank c) : spaceOf c = ' ' :=
  if_pos blank

private theorem isBlank_spaceOf (c : Char) : isBlank (spaceOf c) = isBlank c := by
  cases blank : isBlank c with
  | true =>
    rw [spaceOf_of_blank blank]
    decide
  | false => rw [spaceOf_of_solid blank, blank]

private theorem spaceOf_eq_iff {c d : Char} (solid : isBlank d = false) :
    spaceOf c = d ↔ c = d := by
  cases blank : isBlank c with
  | true =>
    refine iff_of_false ?_ ?_
    · rintro rfl
      rw [isBlank_spaceOf, blank] at solid
      cases solid
    · rintro rfl
      rw [blank] at solid
      cases solid
  | false => rw [spaceOf_of_solid blank]

private theorem isWordChar_spaceOf (c : Char) : isWordChar (spaceOf c) = isWordChar c := by
  cases blank : isBlank c with
  | true =>
    rw [spaceOf_of_blank blank, (not_word_of_isBlank blank).1]
    decide
  | false => rw [spaceOf_of_solid blank]

private theorem isNameStart_spaceOf (c : Char) : isNameStart (spaceOf c) = isNameStart c := by
  cases blank : isBlank c with
  | true =>
    rw [spaceOf_of_blank blank, (not_word_of_isBlank blank).2]
    decide
  | false => rw [spaceOf_of_solid blank]

private theorem bne_spaceOf {d : Char} (solid : isBlank d = false) (c : Char) :
    (spaceOf c != d) = (c != d) := by
  rw [Bool.eq_iff_iff, bne_iff_ne, bne_iff_ne, ne_eq, ne_eq, spaceOf_eq_iff solid]

private theorem spaced_of_solid {s : List Char} (solid : ∀ c ∈ s, isBlank c = false) :
    spaced s = s := by
  rw [spaced, List.map_congr_left fun c member => spaceOf_of_solid (solid c member), List.map_id']

private theorem length_spaced (s : List Char) : (spaced s).length = s.length :=
  List.length_map spaceOf

theorem spaced_append (s t : List Char) : spaced (s ++ t) = spaced s ++ spaced t :=
  List.map_append

section Parts

variable {p : Char → Bool} (same : ∀ c, p (spaceOf c) = p c) (s : List Char)

include same in
private theorem dropWhile_spaced : (spaced s).dropWhile p = spaced (s.dropWhile p) := by
  rw [spaced, List.dropWhile_map, (funext same : p ∘ spaceOf = p), ← spaced]

include same in
private theorem takeWhile_spaced : (spaced s).takeWhile p = spaced (s.takeWhile p) := by
  rw [spaced, List.takeWhile_map, (funext same : p ∘ spaceOf = p), ← spaced]

private theorem trimStart_spaced : trimStart (spaced s) = spaced (trimStart s) :=
  dropWhile_spaced isBlank_spaceOf s

private theorem trim_spaced : trim (spaced s) = spaced (trim s) := by
  rw [trim, trimEnd, trimStart_spaced, spaced, ← List.map_reverse, ← spaced,
    dropWhile_spaced isBlank_spaceOf, spaced, ← List.map_reverse, ← spaced, ← trimEnd, ← trim]

private theorem runsFrom_spaced (run : List Char) (out : List (List Char)) :
    runsFrom isBlank run out (spaced s) = runsFrom isBlank run out s := by
  induction s generalizing run out with
  | nil => rfl
  | cons c s ih =>
    rw [spaced, List.map_cons, ← spaced, runsFrom.eq_def, runsFrom.eq_def _ _ _ (c :: s)]
    simp only [isBlank_spaceOf]
    cases blank : isBlank c with
    | true => cases run <;> simp [ih]
    | false => simp [ih, spaceOf_of_solid blank]

private theorem words_spaced : words (spaced s) = words s :=
  runsFrom_spaced s [] []

private theorem splitAtChar?_spaced {sep : Char} (solid : isBlank sep = false) :
    splitAtChar? sep (spaced s) = (splitAtChar? sep s).map (Prod.map spaced spaced) := by
  rw [splitAtChar?, splitAtChar?, dropWhile_spaced (bne_spaceOf solid),
    takeWhile_spaced (bne_spaceOf solid)]
  cases s.dropWhile (· != sep) <;> rfl

private theorem isPrefixOf_spaced {w : List Char} (solid : ∀ c ∈ w, isBlank c = false) :
    w.isPrefixOf (spaced s) = w.isPrefixOf s := by
  induction w generalizing s with
  | nil => rfl
  | cons d w ih =>
    obtain ⟨first, later⟩ := List.forall_mem_cons.mp solid
    cases s with
    | nil => rfl
    | cons c s =>
      have here : (d == spaceOf c) = (d == c) := by
        rw [Bool.eq_iff_iff, beq_iff_eq, beq_iff_eq, eq_comm, spaceOf_eq_iff first, eq_comm]
      rw [spaced, List.map_cons, ← spaced, List.isPrefixOf, List.isPrefixOf, here, ih s later]

private theorem before_spaced {word : String} (solid : word.toList.any isBlank = false) :
    before word (spaced s) = spaced (before word s) := by
  have solid_ : ∀ c ∈ word.toList, isBlank c = false :=
    fun c member => Bool.eq_false_of_not_eq_true (List.any_eq_false.mp solid c member)
  induction s with
  | nil => rfl
  | cons c s ih =>
    have front := isPrefixOf_spaced (c :: s) solid_
    rw [Bool.eq_iff_iff, List.isPrefixOf_iff_prefix, List.isPrefixOf_iff_prefix, spaced,
      List.map_cons, ← spaced] at front
    rw [spaced, List.map_cons, ← spaced, before_cons, before_cons, ih]
    simp only [front]
    split <;> rfl

private theorem identifier?_spaced :
    identifier? (spaced s) = (identifier? s).map (Prod.map id spaced) := by
  cases s with
  | nil => rfl
  | cons c s =>
    rw [spaced, List.map_cons, ← spaced, identifier?, identifier?, isNameStart_spaceOf]
    split
    · next starts =>
      have word : spaced (s.takeWhile isWordChar) = s.takeWhile isWordChar := by
        refine spaced_of_solid ?_
        intro d member
        exact isBlank_eq_false_of_isWordChar (List.all_eq_true.mp List.all_takeWhile d member)
      rw [takeWhile_spaced isWordChar_spaceOf, dropWhile_spaced isWordChar_spaceOf, word,
        spaceOf_of_solid (isBlank_eq_false_of_isNameStart starts)]
      rfl
    · rfl

end Parts

section Header

variable (s : List Char)

private theorem closingParenFrom_spaced (depth : Nat) (inside : List Char) :
    closingParenFrom depth (spaced inside) (spaced s) =
      (closingParenFrom depth inside s).map (Prod.map spaced spaced) := by
  induction s generalizing depth inside with
  | nil => rfl
  | cons c s ih =>
    have closes : spaceOf c = ')' ↔ c = ')' := spaceOf_eq_iff (by decide)
    have opens : spaceOf c = '(' ↔ c = '(' := spaceOf_eq_iff (by decide)
    rw [spaced, spaced, List.map_cons, closingParenFrom.eq_def,
      closingParenFrom.eq_def depth inside]
    simp only [closes, opens]
    split
    · cases depth with
      | zero => simp [spaced]
      | succ depth => exact ih depth (c :: inside)
    · exact ih _ (c :: inside)

private theorem headerParts_spaced :
    headerParts (spaced s) = Prod.map spaced spaced (headerParts s) := by
  rw [headerParts, headerParts, splitAtChar?_spaced s (by decide)]
  cases splitAtChar? '(' s with
  | none => rfl
  | some parts =>
    have closed := closingParenFrom_spaced parts.2 0 []
    simp only [Option.map_some, Prod.map]
    rw [show closingParenFrom 0 [] (spaced parts.2) = _ from closed]
    cases closingParenFrom 0 [] parts.2 <;> rfl

private theorem skipArguments_spaced : skipArguments (spaced s) = spaced (skipArguments s) := by
  rw [skipArguments.eq_def, skipArguments.eq_def s, trimStart_spaced]
  cases trimStart s with
  | nil => rfl
  | cons c args =>
    rw [spaced, List.map_cons, ← spaced]
    by_cases opens : c = '('
    · subst opens
      have closing : (spaced args).dropWhile (· != ')') = spaced (args.dropWhile (· != ')')) :=
        dropWhile_spaced (bne_spaceOf (by decide)) args
      rw [spaceOf_of_solid (by decide)]
      simp only [closing]
      cases args.dropWhile (· != ')') <;> rfl
    · have opens' : spaceOf c ≠ '(' := mt (spaceOf_eq_iff (by decide)).mp opens
      split
      · next here => exact absurd (List.cons.inj here).1 opens'
      · split
        · next here => exact absurd (List.cons.inj here).1 opens
        · rfl

private theorem attributeWords_spaced (fuel : Nat) :
    attributeWords fuel (spaced s) = attributeWords fuel s := by
  induction fuel generalizing s with
  | zero => rfl
  | succ fuel ih =>
    rw [attributeWords, attributeWords, dropWhile_spaced (fun c => by rw [isNameStart_spaceOf]),
      identifier?_spaced]
    cases identifier? (s.dropWhile (!isNameStart ·)) with
    | none => rfl
    | some parts =>
      simp only [Option.map_some, Prod.map, id]
      rw [skipArguments_spaced, ih]

private theorem attributesOf_spaced : attributesOf (spaced s) = attributesOf s := by
  have solid : "returns".toList.any isBlank = false := by decide
  simp only [attributesOf, before_spaced s solid, length_spaced, attributeWords_spaced]

private theorem splitTopLevelFrom_spaced (depth : Int) (piece : List Char)
    (out : List (List Char)) :
    splitTopLevelFrom ',' depth (spaced piece) (out.map spaced) (spaced s) =
      (splitTopLevelFrom ',' depth piece out s).map spaced := by
  have trimmed (piece : List Char) : trim (spaced piece).reverse = spaced (trim piece.reverse) := by
    rw [spaced, ← List.map_reverse, ← spaced, trim_spaced]
  induction s generalizing depth piece out with
  | nil =>
    -- The last piece is dropped if it is empty, which it is in both or in neither.
    have empty (t : List Char) : (spaced t).isEmpty = t.isEmpty := by cases t <;> rfl
    simp only [splitTopLevelFrom, spaced, List.map_nil]
    rw [← spaced, trimmed, empty]
    split <;> simp
  | cons c s ih =>
    have opens : spaceOf c = '(' ↔ c = '(' := spaceOf_eq_iff (by decide)
    have closes : spaceOf c = ')' ↔ c = ')' := spaceOf_eq_iff (by decide)
    have separates : spaceOf c = ',' ↔ c = ',' := spaceOf_eq_iff (by decide)
    rw [spaced, spaced, List.map_cons, ← spaced, ← spaced, splitTopLevelFrom, splitTopLevelFrom]
    simp only [opens, closes, separates, trimmed]
    generalize (if c = '(' then depth + 1 else if c = ')' then depth - 1 else depth) = depth'
    split
    · exact ih _ [] (trim piece.reverse :: out)
    · exact ih _ (c :: piece) out

private theorem parameters_spaced : parameters (spaced s) = parameters s := by
  have split : splitTopLevel ',' (spaced s) = (splitTopLevel ',' s).map spaced :=
    splitTopLevelFrom_spaced s 0 [] []
  have read (t : List Char) : parameter? (spaced t) = parameter? t := by
    rw [parameter?, words_spaced, parameter?]
  rw [parameters, split, List.filterMap_map, (funext read : parameter? ∘ spaced = parameter?),
    parameters]

theorem functionOf_spaced (name : String) (kind : FunctionKind) (owner : Option String)
    (line : Nat) :
    functionOf (spaced s) name kind owner line = functionOf s name kind owner line := by
  simp only [functionOf, headerParts_spaced, Prod.map, attributesOf_spaced, parameters_spaced]

end Header

end AuditPanel.Source
