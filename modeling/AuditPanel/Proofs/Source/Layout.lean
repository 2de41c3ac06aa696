import AuditPanel.Proofs.Source.Blanking
import AuditPanel.Proofs.Text.Lines

/-!
The layout of blanked texts. Blanking leaves every line feed where it is and puts blanks in place of
other characters, so that the lines stay; in the literals nothing but blanks is left.
-/

set_option autoImplicit false

namespace AuditPanel.Source

open AuditPanel.Text

/-- A character as it was, or a blank in place of one that is no line feed. -/
def Stays (c d : Char) : Prop :=
  d = c ∨ c ≠ '\n' ∧ d = ' '

/-- A text whose characters stay, some of them as blanks. -/
def KeepsLayout (s t : List Char) : Prop :=
  List.Forall₂ Stays s t

theorem Stays.refl (c : Char) : Stays c c :=
  .inl rfl

theorem Stays.blank {c : Char} (inside : c ≠ '\n') : Stays c ' ' :=
  .inr ⟨inside, rfl⟩

theorem Stays.trans {c d e : Char} (h : Stays c d) (h' : Stays d e) : Stays c e := by
  rcases h with rfl | ⟨inside, rfl⟩
  · exact h'
  · rcases h' with rfl | ⟨-, rfl⟩
    · exact .blank inside
    · exact .blank inside

namespace KeepsLayout

variable {s t u : List Char}

theorem trans (h : KeepsLayout s t) (h' : KeepsLayout t u) : KeepsLayout s u := by
  induction h generalizing u with
  | nil => exact h'
  | cons here later ih =>
    cases h' with
    | cons here' later' => exact .cons (here.trans here') (ih later')

private theorem length_linesFrom (h : KeepsLayout s t) {line line' : List Char}
    (begun : line = [] ↔ line' = [])
    {out out' : List (List Char)} (before : out.length = out'.length) :
    (linesFrom line out s).length = (linesFrom line' out' t).length := by
  induction h generalizing line line' out out' with
  | nil => cases line <;> cases line' <;> simp_all [linesFrom]
  | @cons c d s t here later ih =>
    have feed : c = '\n' ↔ d = '\n' := by
      rcases here with rfl | ⟨inside, rfl⟩
      · rfl
      · exact iff_of_false inside (by decide)
    rw [linesFrom.eq_def, linesFrom.eq_def line']
    by_cases ends : c = '\n'
    · simp only [ends, feed.mp ends, if_true]
      exact ih Iff.rfl (by simp [before])
    · simp only [ends, mt feed.mpr ends, if_false]
      exact ih (by simp) before

theorem length_lines (h : KeepsLayout s t) : (lines s).length = (lines t).length :=
  h.length_linesFrom Iff.rfl rfl

end KeepsLayout

theorem keepsLayout_writtenFrom (region : Region) (s : List Char) :
    KeepsLayout s ((writtenFrom region s).map (·.char)) := by
  fun_induction writtenFrom region s with
  | case1 => exact .nil
  | case2 rest ih => exact .cons (.blank (by decide)) (.cons (.blank (by decide)) ih)
  | case3 rest ih => exact .cons (.blank (by decide)) (.cons (.blank (by decide)) ih)
  | case4 c rest noLine noBlock ih => exact .cons (.refl c) ih
  | case5 rest ih => exact .cons (.refl _) ih
  | case6 c rest goesOn ih => exact .cons (.blank goesOn) ih
  | case7 rest ih => exact .cons (.blank (by decide)) (.cons (.blank (by decide)) ih)
  | case8 c rest goesOn ih =>
    refine .cons ?_ ih
    by_cases feed : c = '\n'
    · simp [feed, Stays]
    · simp [feed, Stays]
  | case9 quote c rest ih => exact .cons (.refl _) (.cons (.refl c) ih)
  | case10 quote c rest unescaped ends ih => exact .cons (.refl c) ih
  | case11 quote c rest unescaped goesOn ih => exact .cons (.refl c) ih

/-- What the blanking of literals leaves of the rest of a text, where `quote` is the open quote. -/
def blankedFrom : Option Char → List Char → List Char
  | _, [] => []
  | none, c :: rest => c :: blankedFrom (if isQuote c then some c else none) rest
  | some _, '\\' :: '\n' :: rest => ' ' :: '\n' :: blankedFrom none rest
  | some quote, '\\' :: _ :: rest => ' ' :: ' ' :: blankedFrom (some quote) rest
  | some quote, c :: rest =>
    if c = '\n' ∨ c = quote ∧ c ≠ '\\' then c :: blankedFrom none rest
      else ' ' :: blankedFrom (some quote) rest

private theorem blankLiteralsFrom_eq (quote : Option Char) (out s : List Char) :
    blankLiteralsFrom quote out s = out.reverse ++ blankedFrom quote s := by
  fun_induction blankedFrom quote s generalizing out with
  | case1 => simp [blankLiteralsFrom]
  | case2 c rest ih => simp [blankLiteralsFrom, ih]
  | case3 quote rest ih => simp [blankLiteralsFrom, ih]
  | case4 quote c rest inside ih => simp [blankLiteralsFrom, ih]
  | case5 quote c rest noBreak unescaped ends ih => simp [blankLiteralsFrom, ih, ends]
  | case6 quote c rest noBreak unescaped goesOn ih => simp [blankLiteralsFrom, ih, goesOn]

theorem blankLiterals_eq (s : List Char) : blankLiterals s = blankedFrom none s :=
  blankLiteralsFrom_eq none [] s

theorem keepsLayout_blankedFrom (quote : Option Char) (s : List Char) :
    KeepsLayout s (blankedFrom quote s) := by
  fun_induction blankedFrom quote s with
  | case1 => exact .nil
  | case2 c rest ih => exact .cons (.refl c) ih
  | case3 quote rest ih => exact .cons (.blank (by decide)) (.cons (.refl _) ih)
  | case4 quote c rest inside ih => exact .cons (.blank (by decide)) (.cons (.blank inside) ih)
  | case5 quote c rest noBreak unescaped ends ih => exact .cons (.refl c) ih
  | case6 quote c rest noBreak unescaped goesOn ih => exact .cons (.blank (not_or.mp goesOn).1) ih

theorem keepsLayout_codeOnly (s : List Char) : KeepsLayout s (codeOnly s) := by
  have comments : KeepsLayout s (blankComments s) := by
    rw [blankComments_eq]
    exact keepsLayout_writtenFrom .code s
  rw [codeOnly, blankLiterals_eq]
  exact comments.trans (keepsLayout_blankedFrom none _)

/-- After an open quote, if there is one, a text has nothing but blanks in its literals. -/
def HoldsBlanks : Option Char → List Char → Prop
  | _, [] => True
  | none, c :: s => HoldsBlanks (if isQuote c then some c else none) s
  | some quote, c :: s =>
    if c = '\n' ∨ c = quote then HoldsBlanks none s else c = ' ' ∧ HoldsBlanks (some quote) s

@[simp] theorem holdsBlanks_nil (quote : Option Char) : HoldsBlanks quote [] := by
  cases quote <;> trivial

theorem holdsBlanks_none_cons {c : Char} {s : List Char} :
    HoldsBlanks none (c :: s) ↔ HoldsBlanks (if isQuote c then some c else none) s := Iff.rfl

theorem holdsBlanks_some_cons {quote c : Char} {s : List Char} : HoldsBlanks (some quote) (c :: s) ↔
    if c = '\n' ∨ c = quote then HoldsBlanks none s else c = ' ' ∧ HoldsBlanks (some quote) s :=
      Iff.rfl

private theorem holdsBlanks_blank {quote : Char} (quoted : isQuote quote) {s : List Char} :
    HoldsBlanks (some quote) (' ' :: s) ↔ HoldsBlanks (some quote) s := by
  have other : ' ' ≠ quote := (ne_of_isQuote quoted).2.symm
  simp [holdsBlanks_some_cons, other]

/-- What is open is a quote, if anything. -/
def IsOpen (quote : Option Char) : Prop :=
  ∀ q ∈ quote, isQuote q

theorem isOpen_none : IsOpen none := by
  intro q opened
  cases opened

theorem isOpen_some {quote : Char} : IsOpen (some quote) ↔ isQuote quote := by
  simp [IsOpen]

theorem isOpen_after (c : Char) : IsOpen (if isQuote c then some c else none) := by
  split
  · next quote => exact isOpen_some.mpr quote
  · exact isOpen_none

theorem holdsBlanks_blankedFrom {quote : Option Char} (opened : IsOpen quote) (s : List Char) :
    HoldsBlanks quote (blankedFrom quote s) := by
  fun_induction blankedFrom quote s with
  | case1 => exact holdsBlanks_nil _
  | case2 c rest ih => exact holdsBlanks_none_cons.mpr (ih (isOpen_after c))
  | case3 quote rest ih =>
    rw [holdsBlanks_blank (isOpen_some.mp opened), holdsBlanks_some_cons, if_pos (.inl rfl)]
    exact ih isOpen_none
  | case4 quote c rest inside ih =>
    rw [holdsBlanks_blank (isOpen_some.mp opened), holdsBlanks_blank (isOpen_some.mp opened)]
    exact ih opened
  | case5 quote c rest noBreak unescaped ends ih =>
    rw [holdsBlanks_some_cons, if_pos (ends.imp_right And.left)]
    exact ih isOpen_none
  | case6 quote c rest noBreak unescaped goesOn ih =>
    rw [holdsBlanks_blank (isOpen_some.mp opened)]
    exact ih opened

theorem holdsBlanks_codeOnly (s : List Char) : HoldsBlanks none (codeOnly s) := by
  rw [codeOnly, blankLiterals_eq]
  exact holdsBlanks_blankedFrom isOpen_none _

theorem holdsBlanks_append {quote : Option Char} {s t : List Char}
    (h : HoldsBlanks quote (s ++ t)) :
    HoldsBlanks quote s := by
  induction s generalizing quote with
  | nil => exact holdsBlanks_nil quote
  | cons c s ih =>
    cases quote with
    | none => exact ih h
    | some quote =>
      rw [List.cons_append, holdsBlanks_some_cons] at h
      rw [holdsBlanks_some_cons]
      split at h
      · next ends => rw [if_pos ends]; exact ih h
      · next goesOn => rw [if_neg goesOn]; exact ⟨h.1, ih h.2⟩

theorem holdsBlanks_append_cons {quote : Option Char} {l s : List Char}
    (h : HoldsBlanks quote (l ++ '\n' :: s)) :
    HoldsBlanks none s := by
  induction l generalizing quote with
  | nil =>
    cases quote with
    | none => exact h
    | some quote => exact h
  | cons c l ih =>
    cases quote with
    | none => exact ih h
    | some quote =>
      rw [List.cons_append, holdsBlanks_some_cons] at h
      split at h
      · exact ih h
      · exact ih h.2

end AuditPanel.Source
