import AuditPanel.Proofs.Source.Layout
import Mathlib.Data.List.Forall2

/-!
Blanking in place. Every character stays where it is or becomes a blank, line feeds stay, and what
was blanked once is left alone by another pass. So no comment and no literal begins or ends in a
blanked text where none did before.
-/

set_option autoImplicit false

namespace AuditPanel.Source

variable {s t : List Char}

namespace KeepsLayout

private theorem getElem?_cases (h : KeepsLayout s t) (i : Nat) :
    s[i]? = none ∧ t[i]? = none ∨ ∃ c d, s[i]? = some c ∧ t[i]? = some d ∧ Stays c d := by
  induction h generalizing i with
  | nil => exact .inl ⟨rfl, rfl⟩
  | @cons c d s t here later ih =>
    cases i with
    | zero => exact .inr ⟨c, d, rfl, rfl, here⟩
    | succ i => exact ih i

theorem getElem?_lineFeed_iff (h : KeepsLayout s t) (i : Nat) :
    t[i]? = some '\n' ↔ s[i]? = some '\n' := by
  obtain ⟨before, after⟩ | ⟨c, d, before, after, stays⟩ := h.getElem?_cases i
  · rw [before, after]
  · rcases stays with rfl | ⟨inside, rfl⟩
    · rw [before, after]
    · simp [before, after, inside]

private theorem getElem?_eq_or (h : KeepsLayout s t) (i : Nat) :
    t[i]? = s[i]? ∨ t[i]? = some ' ' := by
  obtain ⟨before, after⟩ | ⟨c, d, before, after, stays⟩ := h.getElem?_cases i
  · exact .inl (after.trans before.symm)
  · rcases stays with rfl | ⟨-, rfl⟩
    · exact .inl (after.trans before.symm)
    · exact .inr after

private theorem prefix_of_prefix {d : List Char} (h : KeepsLayout s t) (solid : ' ' ∉ d)
    (starts : d <+: t) : d <+: s := by
  induction d generalizing s t with
  | nil => exact List.nil_prefix
  | cons c d ih =>
    obtain ⟨rest, rfl⟩ := starts
    rw [List.mem_cons, not_or] at solid
    cases h with
    | cons here later =>
      rcases here with rfl | ⟨-, blank⟩
      · exact List.cons_prefix_cons.mpr ⟨rfl, ih later solid.2 (List.prefix_append d rest)⟩
      · exact absurd blank.symm solid.1

end KeepsLayout

/-- What opens or closes a comment or a string literal. -/
def delimiters : List (List Char) :=
  ["//", "/*", "*/", "\"", "'"].map String.toList

/-- A change of texts that leaves each character in its place or a blank instead of it, moves no
line feed, has no more to do after one pass, and shows no delimiter that did not stand there. -/
structure IsBlanking (blank : List Char → List Char) : Prop where
  length_eq : ∀ s, (blank s).length = s.length
  lineFeed_iff : ∀ s (i : Nat), (blank s)[i]? = some '\n' ↔ s[i]? = some '\n'
  kept_or_blank : ∀ s (i : Nat), (blank s)[i]? = s[i]? ∨ (blank s)[i]? = some ' '
  idempotent : ∀ s, blank (blank s) = blank s
  delimiter_stood : ∀ s, ∀ d ∈ delimiters, ∀ i, d <+: (blank s).drop i → d <+: s.drop i

private theorem IsBlanking.of_keepsLayout {blank : List Char → List Char}
    (layout : ∀ s, KeepsLayout s (blank s))
    (again : ∀ s, blank (blank s) = blank s) : IsBlanking blank where
  length_eq s := (layout s).length_eq.symm
  lineFeed_iff s := (layout s).getElem?_lineFeed_iff
  kept_or_blank s := (layout s).getElem?_eq_or
  idempotent := again
  delimiter_stood := by
    intro s d delimits i starts
    have solid : ∀ d ∈ delimiters, ' ' ∉ d := by decide
    exact KeepsLayout.prefix_of_prefix (List.forall₂_drop i (layout s)) (solid d delimits) starts

private theorem keepsLayout_blankComments (s : List Char) : KeepsLayout s (blankComments s) := by
  rw [blankComments_eq]
  exact keepsLayout_writtenFrom .code s

private theorem blankComments_blankComments (s : List Char) :
    blankComments (blankComments s) = blankComments s := by
  rw [blankComments_eq, written_blankComments, ← blankComments_eq]

private theorem blankedFrom_of_holdsBlanks {quote : Option Char} (opened : IsOpen quote)
    (blanks : HoldsBlanks quote s) :
    blankedFrom quote s = s := by
  induction s generalizing quote with
  | nil => cases quote <;> rfl
  | cons c s ih =>
    cases quote with
    | none => rw [blankedFrom, ih (isOpen_after c) (holdsBlanks_none_cons.mp blanks)]
    | some quote =>
      have quoted := isOpen_some.mp opened
      obtain ⟨noBackslash, -⟩ := ne_of_isQuote quoted
      rw [holdsBlanks_some_cons] at blanks
      split at blanks
      · next ends =>
        have other : c ≠ '\\' := by rcases ends with rfl | rfl <;> simp [noBackslash]
        have later := ih isOpen_none blanks
        rcases ends with rfl | rfl <;> simp [blankedFrom, other, later]
      · obtain ⟨rfl, blanks⟩ := blanks
        have other : ' ' ≠ quote := (ne_of_isQuote quoted).2.symm
        simp [blankedFrom, other, ih opened blanks]

private theorem blankLiterals_blankLiterals (s : List Char) :
    blankLiterals (blankLiterals s) = blankLiterals s := by
  rw [blankLiterals_eq, blankLiterals_eq]
  exact blankedFrom_of_holdsBlanks isOpen_none (holdsBlanks_blankedFrom isOpen_none s)

/-- Comments and the contents of literals are blanked in place, in one pass. -/
theorem isBlanking_comments_literals : IsBlanking blankComments ∧ IsBlanking blankLiterals := by
  constructor
  · exact .of_keepsLayout keepsLayout_blankComments blankComments_blankComments
  · refine .of_keepsLayout (fun s => ?_) blankLiterals_blankLiterals
    rw [blankLiterals_eq]
    exact keepsLayout_blankedFrom none s

end AuditPanel.Source
