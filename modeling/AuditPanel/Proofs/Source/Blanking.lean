import AuditPanel.Source.Blanking

/-!
The two readings of a source agree on what a string literal holds. The blanking of comments marks
which characters it copies as the contents of literals; the blanking of literals takes exactly those
away, unless a literal holds an escaped line feed. There the first reading goes on in the literal
and the second one ends it, so contents are left over as code.
-/

set_option autoImplicit false

namespace AuditPanel.Source

/-- A character of a comment-blanked text, and whether it was copied as the content of a string
literal: after the opening quote and before the quote or the line feed that ends the literal,
escapes included. -/
structure Written where
  char : Char
  content : Bool
  deriving Repr, DecidableEq

namespace Written

def code (c : Char) : Written :=
  ⟨c, false⟩

def inside (c : Char) : Written :=
  ⟨c, true⟩

/-- What is left of a character when contents are blank. -/
def shown (w : Written) : Char :=
  if w.content then ' ' else w.char

def blanked (w : Written) : Written :=
  ⟨w.shown, w.content⟩

@[simp] theorem char_code (c : Char) : (code c).char = c := rfl
@[simp] theorem char_inside (c : Char) : (inside c).char = c := rfl
@[simp] theorem shown_code (c : Char) : (code c).shown = c := rfl
@[simp] theorem shown_inside (c : Char) : (inside c).shown = ' ' := rfl
@[simp] theorem blanked_code (c : Char) : (code c).blanked = code c := rfl
@[simp] theorem blanked_inside (c : Char) : (inside c).blanked = inside ' ' := rfl

private theorem shown_of_content {w : Written} (h : w.content) : w.shown = ' ' := by
  simp [shown, h]

private theorem shown_blanked (w : Written) : w.blanked.shown = w.shown := by
  cases content : w.content <;> simp [blanked, shown, content]

end Written

/-- What the blanking of comments writes for the rest of a source, from an open region on. -/
def writtenFrom : Region → List Char → List Written
  | _, [] => []
  | .code, '/' :: '/' :: rest => .code ' ' :: .code ' ' :: writtenFrom .lineComment rest
  | .code, '/' :: '*' :: rest => .code ' ' :: .code ' ' :: writtenFrom .blockComment rest
  | .code, c :: rest => .code c :: writtenFrom (if isQuote c then .literal c else .code) rest
  | .lineComment, c :: rest =>
    if c = '\n' then .code '\n' :: writtenFrom .code rest else .code ' ' ::
      writtenFrom .lineComment rest
  | .blockComment, '*' :: '/' :: rest => .code ' ' :: .code ' ' :: writtenFrom .code rest
  | .blockComment, c :: rest =>
    .code (if c = '\n' then '\n' else ' ') :: writtenFrom .blockComment rest
  | .literal quote, '\\' :: c :: rest =>
    .inside '\\' :: .inside c :: writtenFrom (.literal quote) rest
  | .literal quote, c :: rest =>
    if c = quote ∨ c = '\n' then .code c :: writtenFrom .code rest else .inside c ::
      writtenFrom (.literal quote) rest

/-- What the blanking of comments writes for a source. -/
def written (s : List Char) : List Written :=
  writtenFrom .code s

private theorem blankCommentsFrom_eq (region : Region) (out s : List Char) :
    blankCommentsFrom region out s = out.reverse ++ (writtenFrom region s).map (·.char) := by
  fun_induction writtenFrom region s generalizing out with
  | case1 => simp [blankCommentsFrom]
  | case2 rest ih => simp [blankCommentsFrom, ih]
  | case3 rest ih => simp [blankCommentsFrom, ih]
  | case4 c rest noLine noBlock ih => simp [blankCommentsFrom, ih]
  | case5 rest ih => simp [blankCommentsFrom, ih]
  | case6 c rest goesOn ih => simp [blankCommentsFrom, ih, goesOn]
  | case7 rest ih => simp [blankCommentsFrom, ih]
  | case8 c rest goesOn ih => simp [blankCommentsFrom, ih]
  | case9 quote c rest ih => simp [blankCommentsFrom, ih]
  | case10 quote c rest unescaped ends ih => simp [blankCommentsFrom, ih, ends]
  | case11 quote c rest unescaped goesOn ih => simp [blankCommentsFrom, ih, goesOn]

theorem blankComments_eq (s : List Char) : blankComments s = (written s).map (·.char) :=
  blankCommentsFrom_eq .code [] s

namespace Region

def openQuote? : Region → Option Char
  | .literal quote => some quote
  | _ => none

/-- A literal is opened by a quote. -/
def isQuoted : Region → Bool
  | .literal quote => isQuote quote
  | _ => true

@[simp] theorem openQuote?_code : openQuote? .code = none := rfl
@[simp] theorem openQuote?_lineComment : openQuote? .lineComment = none := rfl
@[simp] theorem openQuote?_blockComment : openQuote? .blockComment = none := rfl
@[simp] theorem openQuote?_literal (quote : Char) : openQuote? (.literal quote) = some quote := rfl

private theorem isQuoted_after (c : Char) :
    (if isQuote c then Region.literal c else .code).isQuoted = true := by
  split
  · next quote => exact quote
  · rfl

end Region

/-- No literal holds a line feed. Only behind a backslash could it. -/
def Unbroken (ws : List Written) : Prop :=
  ∀ w ∈ ws, w.content → w.char ≠ '\n'

instance (ws : List Written) : Decidable (Unbroken ws) :=
  inferInstanceAs (Decidable (∀ w ∈ ws, w.content → w.char ≠ '\n'))

@[simp] theorem unbroken_cons_code (c : Char) (ws : List Written) :
    Unbroken (.code c :: ws) ↔ Unbroken ws := by
  simp [Unbroken, Written.code]

@[simp] theorem unbroken_cons_inside (c : Char) (ws : List Written) :
    Unbroken (.inside c :: ws) ↔ c ≠ '\n' ∧ Unbroken ws := by
  simp [Unbroken, Written.inside]

theorem ne_of_isQuote {c : Char} (quote : isQuote c) : c ≠ '\\' ∧ c ≠ ' ' := by
  constructor <;> rintro rfl <;> exact absurd quote (by decide)

private theorem blankLiteralsFrom_written {region : Region} {s : List Char}
    (quoted : region.isQuoted) (unbroken : Unbroken (writtenFrom region s)) (out : List Char) :
    blankLiteralsFrom region.openQuote? out ((writtenFrom region s).map (·.char)) =
      out.reverse ++ (writtenFrom region s).map Written.shown := by
  fun_induction writtenFrom region s generalizing out
  case case1 region => cases region <;> simp [blankLiteralsFrom]
  -- Comments are blanks here, and what stands around them is code.
  case case2 | case3 | case5 | case6 | case7 =>
    simp_all [blankLiteralsFrom, isQuote, Region.isQuoted]
  case case8 c rest goesOn ih => split <;> simp_all [blankLiteralsFrom, isQuote, Region.isQuoted]
  case case4 c rest noLine noBlock ih =>
    rw [unbroken_cons_code] at unbroken
    have later := ih (Region.isQuoted_after c) unbroken
    by_cases quote : isQuote c
    · simp only [quote, if_true, Region.openQuote?_literal] at later
      simp [blankLiteralsFrom, quote, later]
    · simp only [quote, Bool.false_eq_true, if_false, Region.openQuote?_code] at later
      simp [blankLiteralsFrom, quote, later]
  case case9 quote c rest ih =>
    rw [unbroken_cons_inside, unbroken_cons_inside] at unbroken
    obtain ⟨-, noLineFeed, unbroken⟩ := unbroken
    have later := ih quoted unbroken
    rw [Region.openQuote?_literal] at later
    simp [blankLiteralsFrom, later]
  case case10 quote c rest unescaped ends ih =>
    rw [unbroken_cons_code] at unbroken
    have later := ih rfl unbroken
    rw [Region.openQuote?_code] at later
    obtain ⟨noBackslash, -⟩ := ne_of_isQuote quoted
    rcases ends with rfl | rfl <;> simp [blankLiteralsFrom, noBackslash, later]
  case case11 quote c rest unescaped goesOn ih =>
    rw [unbroken_cons_inside] at unbroken
    have later := ih quoted unbroken.2
    rw [Region.openQuote?_literal] at later
    by_cases escape : c = '\\'
    · -- A backslash that escapes nothing is the last character.
      cases rest with
      | nil => simp [blankLiteralsFrom, writtenFrom, escape]
      | cons d rest => exact (unescaped d rest escape rfl).elim
    · rw [not_or] at goesOn
      simp [blankLiteralsFrom, escape, goesOn, later]

theorem codeOnly_eq {s : List Char} (unbroken : Unbroken (written s)) :
    codeOnly s = (written s).map Written.shown := by
  have quoted : Region.code.isQuoted := rfl
  rw [codeOnly, blankLiterals, blankComments_eq]
  exact blankLiteralsFrom_written quoted unbroken []

/-- The region in which a text goes on once the comments before it are blank. -/
def Region.uncommented : Region → Region
  | .literal quote => .literal quote
  | _ => .code

private theorem head_writtenFrom {s : List Char} {w : Written} {ws : List Written}
    (starts : writtenFrom .code s = w :: ws) :
    w = .code ' ' ∨ ∃ c rest, s = c :: rest ∧ w = .code c := by
  unfold writtenFrom at starts
  split at starts
  case h_4 c rest _ _ _ =>
    rw [List.cons.injEq] at starts
    exact .inr ⟨c, rest, rfl, starts.1.symm⟩
  case h_2 | h_3 =>
    rw [List.cons.injEq] at starts
    exact .inl starts.1.symm
  all_goals simp_all

def Written.drawn (draw : Written → Char) (w : Written) : Written :=
  ⟨draw w, w.content⟩

@[simp] theorem Written.drawn_char (w : Written) : w.drawn Written.char = w := rfl
@[simp] theorem Written.drawn_shown (w : Written) : w.drawn Written.shown = w.blanked := rfl

section Again

variable {draw : Written → Char} (draws : draw = Written.char ∨ draw = Written.shown)
include draws

private theorem writtenFrom_map {region : Region} {s : List Char} (quoted : region.isQuoted) :
    writtenFrom region.uncommented ((writtenFrom region s).map draw) =
      (writtenFrom region s).map (Written.drawn draw) := by
  have code (c : Char) : draw (.code c) = c := by rcases draws with rfl | rfl <;> rfl
  have again (c : Char) : (Written.code c).drawn draw = .code c :=
    congrArg (Written.mk · false) (code c)
  fun_induction writtenFrom region s
  case case1 region => cases region <;> simp [writtenFrom, Region.uncommented]
  case case2 | case3 | case5 | case6 | case7 =>
    simp_all [writtenFrom, isQuote, Region.isQuoted, Region.uncommented]
  case case8 c rest goesOn ih =>
    split <;> simp_all [writtenFrom, isQuote, Region.isQuoted, Region.uncommented]
  case case4 c rest noLine noBlock ih =>
    have later := ih (Region.isQuoted_after c)
    have stays : (if isQuote c then Region.literal c else .code).uncommented =
        if isQuote c then .literal c else .code := by
      split <;> rfl
    rw [stays] at later
    -- A slash opens no comment now, because the character behind it opened none with it before.
    have alone (d : Char) (t : List Char) (slash : c = '/')
        (behind : (writtenFrom (if isQuote c then .literal c else .code) rest).map draw = d :: t) :
        d ≠ '/' ∧ d ≠ '*' := by
      subst slash
      obtain ⟨w, ws, starts, rfl, -⟩ := List.map_eq_cons_iff.mp behind
      rcases head_writtenFrom starts with rfl | ⟨d, rest, rfl, rfl⟩
      · rw [code]
        decide
      · rw [code]
        exact ⟨fun same => noLine rest rfl (same ▸ rfl), fun same => noBlock rest rfl (same ▸ rfl)⟩
    simp only [List.map_cons, code, again, Region.uncommented]
    rw [writtenFrom, later]
    · intro t slash behind
      exact (alone _ t slash behind).1 rfl
    · intro t slash behind
      exact (alone _ t slash behind).2 rfl
  case case9 quote c rest ih =>
    obtain ⟨-, noBlank⟩ := ne_of_isQuote quoted
    have later := ih quoted
    simp only [Region.uncommented] at later ⊢
    rcases draws with rfl | rfl
    · simp [writtenFrom, later]
    · simp [writtenFrom, noBlank.symm, later]
  case case10 quote c rest unescaped ends ih =>
    obtain ⟨noBackslash, -⟩ := ne_of_isQuote quoted
    have later := ih rfl
    simp only [Region.uncommented] at later ⊢
    rcases ends with rfl | rfl <;> simp [writtenFrom, noBackslash, later, code, again]
  case case11 quote c rest unescaped goesOn ih =>
    obtain ⟨-, noBlank⟩ := ne_of_isQuote quoted
    have later := ih quoted
    simp only [Region.uncommented] at later ⊢
    rcases draws with rfl | rfl
    · by_cases escape : c = '\\'
      · -- A backslash that escapes nothing is the last character.
        cases rest with
        | nil => simp [writtenFrom, goesOn]
        | cons d rest => exact (unescaped d rest escape rfl).elim
      · simp [writtenFrom, escape, goesOn, later]
    · simp [writtenFrom, noBlank.symm, later]

end Again

private theorem written_shown (s : List Char) :
    written ((written s).map Written.shown) = (written s).map Written.blanked := by
  have quoted : Region.code.isQuoted := rfl
  exact writtenFrom_map (.inr rfl) quoted

theorem written_blankComments (s : List Char) : written (blankComments s) = written s := by
  have quoted : Region.code.isQuoted := rfl
  rw [blankComments_eq]
  exact (writtenFrom_map (.inl rfl) quoted).trans (List.map_id _)

private theorem unbroken_map_blanked (ws : List Written) : Unbroken (ws.map Written.blanked) := by
  intro w member content
  obtain ⟨w, -, rfl⟩ := List.mem_map.mp member
  rw [show w.blanked.char = ' ' from Written.shown_of_content content]
  decide

private theorem codeOnly_shown (s : List Char) :
    codeOnly ((written s).map Written.shown) = (written s).map Written.shown := by
  have again := written_shown s
  rw [codeOnly_eq (again ▸ unbroken_map_blanked _), again, List.map_map]
  exact List.map_congr_left fun w _ => w.shown_blanked

/-- Where no literal holds a line feed, the contents that the blanking of comments copies are blank
in the text of the code alone, and blanking that text again changes nothing. -/
theorem codeOnly_blanks_contents (s : List Char) (unbroken : Unbroken (written s)) :
    blankComments s = (written s).map (·.char) ∧
      (∀ (i : Nat) (w : Written), (written s)[i]? = some w → w.content →
        (codeOnly s)[i]? = some ' ') ∧ codeOnly (codeOnly s) = codeOnly s := by
  refine ⟨blankComments_eq s, ?_, ?_⟩
  · intro i w place content
    rw [codeOnly_eq unbroken, List.getElem?_map, place, Option.map_some,
      Written.shown_of_content content]
  · rw [codeOnly_eq unbroken]
    exact codeOnly_shown s

/-- A comment with a quote, and a literal with a comment and an escaped quote. -/
theorem codeOnly_blanks_mixture :
    let s := "/* \" */ a = \"// \\\" \"; // '".toList
    Unbroken (written s) ∧ codeOnly s = "        a = \"      \";     ".toList ∧
      blankComments s = (written s).map (·.char) ∧
      (∀ (i : Nat) (w : Written), (written s)[i]? = some w → w.content →
        (codeOnly s)[i]? = some ' ') ∧ codeOnly (codeOnly s) = codeOnly s := by
  intro s
  have unbroken : Unbroken (written s) := by decide
  exact ⟨unbroken, by decide, codeOnly_blanks_contents s unbroken⟩

/-- A literal that goes on in the next line behind a backslash. -/
def continuedLiteral : List Char :=
  "contract A \x7b string s = \"\\\n// selfdestruct(x)\"; \x7d".toList

/-- Behind an escaped line feed, the contents of a literal are left over as code, and blanking the
text again takes them for a comment. -/
theorem codeOnly_shows_continued_literal :
    (written continuedLiteral)[30]? = some (.inside 's') ∧ (codeOnly continuedLiteral)[30]? =
      some 's' ∧ codeOnly (codeOnly continuedLiteral) ≠ codeOnly continuedLiteral := by
  decide

end AuditPanel.Source
