import AuditPanel.Proofs.Source.Snippets
import AuditPanel.Proofs.Text.Search
import Mathlib.Algebra.BigOperators.Group.List.Basic
import Mathlib.Algebra.Ring.Int.Defs

/-!
Lines in unchecked blocks. A line counts as one of a block from a line on that has the word and an
opening brace, as long as the depth at the beginnings of the lines stays above that of the first. So
a block is found where its word, with no closing brace before it on the line, has the opening brace
on the same line; others may be missed.
-/

set_option autoImplicit false

namespace AuditPanel.Source

open AuditPanel.Text

/-- Whether a line is taken for one that opens an unchecked block: it has the word and an opening
brace. -/
def opensBlock (line : List Char) : Bool :=
  contains "unchecked" line && line.contains '\x7b'

def depthBefore (ls : List (List Char)) (n : Nat) : Int :=
  ((ls.take n).map braceDelta).sum

/-- A block is opened on a line, and the depth has been above that of its beginning ever since. -/
structure OpenSince (ls : List (List Char)) (i n : Nat) : Prop where
  opens : ∃ line, ls[i]? = some line ∧ opensBlock line
  above : ∀ j, i < j → j ≤ n → depthBefore ls i < depthBefore ls j

/-- The depth kept for the open block is that of the lowest line before `k` on which a block has
been opened that is open since. -/
structure Tracks (ls : List (List Char)) (k n : Nat) (opened : Option Int) : Prop where
  sound : ∀ start, opened = some start → ∃ i < k, OpenSince ls i n ∧ depthBefore ls i = start
  lowest : ∀ i < k, OpenSince ls i n → ∃ start, opened = some start ∧ start ≤ depthBefore ls i

section Track

variable {ls : List (List Char)} {n : Nat} {line : List Char} {opened : Option Int}

private theorem depthBefore_succ (place : ls[n]? = some line) :
    depthBefore ls (n + 1) = depthBefore ls n + braceDelta line := by
  rw [depthBefore, List.take_add_one, place, List.map_append, List.sum_append, ← depthBefore]
  simp

private theorem openSince_self (place : ls[n]? = some line) :
    OpenSince ls n n ↔ opensBlock line := by
  constructor
  · rintro ⟨⟨line', place', opens⟩, -⟩
    obtain rfl : line = line' := by simpa [place] using place'
    exact opens
  · intro opens
    exact ⟨⟨line, place, opens⟩, fun j after upTo => by omega⟩

private theorem openSince_succ {i : Nat} (earlier : i ≤ n) :
    OpenSince ls i (n + 1) ↔ OpenSince ls i n ∧ depthBefore ls i < depthBefore ls (n + 1) := by
  constructor
  · rintro ⟨opens, above⟩
    exact ⟨⟨opens, fun j after upTo => above j after (by omega)⟩,
      above (n + 1) (by omega) (Nat.le_refl _)⟩
  · rintro ⟨⟨opens, above⟩, last⟩
    refine ⟨opens, ?_⟩
    intro j after upTo
    by_cases now : j = n + 1
    · rwa [now]
    · exact above j after (by omega)

theorem Tracks.open (h : Tracks ls n n opened) (place : ls[n]? = some line) :
    Tracks ls (n + 1) n
      (opened.or (if opensBlock line then some (depthBefore ls n) else none)) where
  sound := by
    intro start kept
    cases opened with
    | some d =>
      obtain ⟨i, before, since, depth⟩ := h.sound start kept
      exact ⟨i, by omega, since, depth⟩
    | none =>
      by_cases opens : opensBlock line
      · obtain rfl : depthBefore ls n = start := by simpa [opens] using kept
        exact ⟨n, by omega, (openSince_self place).mpr opens, rfl⟩
      · simp [opens] at kept
  lowest := by
    intro i before since
    by_cases earlier : i < n
    · obtain ⟨start, kept, low⟩ := h.lowest i earlier since
      exact ⟨start, by simp [kept], low⟩
    · obtain rfl : i = n := by omega
      cases opened with
      | some start =>
        -- The block that is open already has begun below this line.
        obtain ⟨i', before', since', depth⟩ := h.sound start rfl
        have above := since'.above i before' (Nat.le_refl i)
        exact ⟨start, rfl, by omega⟩
      | none => exact ⟨depthBefore ls i, by simp [(openSince_self place).mp since], Int.le_refl _⟩

theorem Tracks.close (h : Tracks ls (n + 1) n opened) :
    Tracks ls (n + 1) (n + 1) (opened.filter (· < depthBefore ls (n + 1))) where
  sound := by
    intro start kept
    obtain ⟨same, above⟩ := Option.filter_eq_some_iff.mp kept
    obtain ⟨i, before, since, rfl⟩ := h.sound start same
    exact ⟨i, before, (openSince_succ (by omega)).mpr ⟨since, by simpa using above⟩, rfl⟩
  lowest := by
    intro i before since
    obtain ⟨since, above⟩ := (openSince_succ (by omega)).mp since
    obtain ⟨start, kept, low⟩ := h.lowest i before since
    exact ⟨start, Option.filter_eq_some_iff.mpr ⟨kept, by simpa using by omega⟩, low⟩

end Track

namespace BlockState

/-- The depth kept for the open block on a line, which may be the one that opens it. -/
def openedOn (b : BlockState) (line : List Char) : Option Int :=
  b.opened.or (if opensBlock line then some b.depth else none)

private theorem step_eq (b : BlockState) (line : List Char) :
    b.step line = ((b.openedOn line).isSome,
      ⟨b.depth + braceDelta line, (b.openedOn line).filter (· < b.depth + braceDelta line)⟩) := by
  have kept (opened : Option Int) (depth : Int) :
      (opened.bind fun start => if depth ≤ start then none else some start) =
        opened.filter (· < depth) := by
    cases opened with
    | none => rfl
    | some start => by_cases low : depth ≤ start <;> simp [low, Option.filter_some]
  cases opened : b.opened with
  | none =>
    simp only [step, opened, kept, openedOn, Option.none_or]
    rfl
  | some start => simp only [step, opened, kept, openedOn, Option.some_or]

def after (b : BlockState) (ls : List (List Char)) : BlockState :=
  ls.foldl (fun b line => (b.step line).2) b

end BlockState

theorem uncheckedFrom_eq_append (b : BlockState) (out : List Bool) (ls : List (List Char)) :
    uncheckedFrom b out ls = out.reverse ++ uncheckedFrom b [] ls := by
  induction ls generalizing b out with
  | nil => simp [uncheckedFrom]
  | cons line ls ih =>
    simp only [uncheckedFrom]
    rw [ih, ih _ [_]]
    simp

private theorem getElem?_uncheckedFrom (b : BlockState) (ls : List (List Char)) (n : Nat) :
    (uncheckedFrom b [] ls)[n]? = ls[n]?.map fun line =>
      ((b.after (ls.take n)).openedOn line).isSome := by
  induction ls generalizing b n with
  | nil => simp [uncheckedFrom]
  | cons line ls ih =>
    simp only [uncheckedFrom]
    rw [uncheckedFrom_eq_append]
    cases n with
    | zero => simp [BlockState.step_eq, BlockState.after]
    | succ n => simp [ih, BlockState.after]

private theorem tracks_after {ls : List (List Char)} {n : Nat} (listed : n ≤ ls.length) :
    (BlockState.after ⟨0, none⟩ (ls.take n)).depth = depthBefore ls n ∧
      Tracks ls n n (BlockState.after ⟨0, none⟩ (ls.take n)).opened := by
  induction n with
  | zero => exact ⟨rfl, nofun, nofun⟩
  | succ n ih =>
    obtain ⟨depth, tracks⟩ := ih (by omega)
    have place : ls[n]? = some ls[n] := List.getElem?_eq_getElem listed
    have next : BlockState.after ⟨0, none⟩ (ls.take (n + 1)) =
        ((BlockState.after ⟨0, none⟩ (ls.take n)).step ls[n]).2 := by
      rw [BlockState.after, List.take_add_one, place, List.foldl_append]
      rfl
    have later := (tracks.open place).close
    rw [next, BlockState.step_eq, BlockState.openedOn, depth, ← depthBefore_succ place]
    exact ⟨rfl, later⟩

private theorem uncheckedLines_iff {ls : List (List Char)} {n : Nat} :
    (uncheckedLines ls)[n]? = some true ↔ n < ls.length ∧ ∃ i ≤ n, OpenSince ls i n := by
  rw [uncheckedLines, getElem?_uncheckedFrom]
  by_cases listed : n < ls.length
  · have place : ls[n]? = some ls[n] := List.getElem?_eq_getElem listed
    obtain ⟨depth, tracks⟩ := tracks_after (Nat.le_of_lt listed)
    have here := tracks.open place
    rw [place, Option.map_some, Option.some.injEq, BlockState.openedOn, depth]
    constructor
    · intro inside
      obtain ⟨start, kept⟩ := Option.isSome_iff_exists.mp inside
      obtain ⟨i, before, since, -⟩ := here.sound start kept
      exact ⟨listed, i, by omega, since⟩
    · rintro ⟨-, i, before, since⟩
      obtain ⟨start, kept, -⟩ := here.lowest i (by omega) since
      rw [kept]
      rfl
  · rw [List.getElem?_eq_none (by omega)]
    simp [listed]

/-- Opening less closing braces of a text, wherever they stand. -/
def balance (s : List Char) : Int :=
  s.count '\x7b' - s.count '\x7d'

@[simp] theorem balance_nil : balance [] = 0 := rfl

@[simp] theorem balance_append (s t : List Char) : balance (s ++ t) = balance s + balance t := by
  simp only [balance, List.count_append]
  omega

private theorem balance_cons (c : Char) (s : List Char) :
    balance (c :: s) = LineState.code.weight c + balance s := by
  have here : balance [c] = LineState.code.weight c := by
    by_cases opens : c = '\x7b'
    · rw [opens]
      rfl
    · by_cases closes : c = '\x7d'
      · rw [closes]
        rfl
      · simp [balance, LineState.weight, opens, closes]
  rw [← List.singleton_append, balance_append, here]

theorem weight_of_ne {c : Char} (opens : c ≠ '\x7b') (closes : c ≠ '\x7d') (state : LineState) :
    state.weight c = 0 := by
  cases state <;> simp [LineState.weight, opens, closes]

private theorem balance_of_isAllBlank {s : List Char} (blank : isAllBlank s) : balance s = 0 := by
  have none (brace : Char) (solid : isBlank brace = false) : s.count brace = 0 := by
    refine List.count_eq_zero_of_not_mem ?_
    intro member
    exact absurd (List.all_eq_true.mp blank brace member) (by simp [solid])
  rw [balance, none '\x7b' (by decide), none '\x7d' (by decide)]
  rfl

private theorem balance_closeLine (l : List Char) : balance (closeLine l.reverse) = balance l := by
  rcases closeLine_reverse l with same | shorter
  · rw [same]
  · calc balance (closeLine l.reverse) = balance (closeLine l.reverse ++ ['\r']) := by
          rw [balance_append, show balance ['\r'] = 0 by decide, Int.add_zero]
      _ = balance l := by rw [shorter]

/-- What a line has open behind the quote of a literal or outside of literals. -/
def LineState.ofQuote : Option Char → LineState
  | none => .code
  | some quote => .literal quote

@[simp] theorem LineState.ofQuote_none : ofQuote none = .code := rfl
@[simp] theorem LineState.ofQuote_some (quote : Char) : ofQuote (some quote) = .literal quote := rfl
@[simp] theorem LineState.weight_literal (quote c : Char) : (literal quote).weight c = 0 := by
    simp [weight]
@[simp] theorem LineState.weight_escaped (quote c : Char) : (escaped quote).weight c = 0 := by
    simp [weight]

theorem LineState.next_code (c : Char) :
    code.next c = ofQuote (if isQuote c then some c else none) := by
  by_cases quote : isQuote c <;> simp [next, quote]

private theorem LineState.next_blank {quote : Char} (quoted : isQuote quote) :
    (literal quote).next ' ' = literal quote := by
  simp [next, (ne_of_isQuote quoted).2.symm]

private theorem braceDeltaFrom_eq {quote : Option Char} {l : List Char} (opened : IsOpen quote)
    (one : '\n' ∉ l) (blanks : HoldsBlanks quote l) (delta : Int) :
    braceDeltaFrom (.ofQuote quote) delta l = delta + balance l := by
  induction l generalizing quote delta with
  | nil => simp [braceDeltaFrom]
  | cons c l ih =>
    obtain ⟨inside, later⟩ : c ≠ '\n' ∧ '\n' ∉ l := by simpa [eq_comm] using one
    rw [braceDeltaFrom, balance_cons, ← Int.add_assoc]
    cases quote with
    | none =>
      rw [LineState.ofQuote_none, LineState.next_code]
      exact ih (isOpen_after c) later blanks _
    | some quote =>
      have quoted := isOpen_some.mp opened
      by_cases ends : c = quote
      · have weightless (state : LineState) : state.weight c = 0 := by
          refine weight_of_ne ?_ ?_ state <;> rintro rfl
            <;> exact absurd quoted (by rw [← ends]; decide)
        have next : (LineState.ofQuote (some quote)).next c = .ofQuote none := by
          simp [LineState.ofQuote, LineState.next, ends, (ne_of_isQuote quoted).1]
        rw [holdsBlanks_some_cons, if_pos (.inr ends)] at blanks
        rw [next, weightless, weightless]
        exact ih isOpen_none later blanks _
      · rw [holdsBlanks_some_cons, if_neg (by simp [inside, ends])] at blanks
        obtain ⟨rfl, blanks⟩ := blanks
        rw [LineState.ofQuote_some, LineState.next_blank quoted]
        exact ih opened later blanks _

private theorem braceDelta_eq {l : List Char} (one : '\n' ∉ l) (blanks : HoldsBlanks none l) :
    braceDelta l = balance l := by
  have whole := braceDeltaFrom_eq isOpen_none one blanks 0
  rwa [Int.zero_add] at whole

private theorem sum_braceDelta_lines {s : List Char} (blanks : HoldsBlanks none s) :
    ((lines s).map braceDelta).sum = balance s := by
  induction s using line_induction with
  | nil => rfl
  | last l filled one =>
    rw [lines_of_not_mem filled one, List.map_singleton, List.sum_singleton,
      braceDelta_eq one blanks]
  | cons l s one ih =>
    have here := holdsBlanks_append blanks
    have later := holdsBlanks_append_cons blanks
    have closed : HoldsBlanks none (closeLine l.reverse) := by
      rcases closeLine_reverse l with same | shorter
      · rwa [same]
      · rw [← shorter] at here
        exact holdsBlanks_append here
    have inLine : '\n' ∉ closeLine l.reverse := fun feed => one (mem_of_mem_closeLine feed)
    rw [lines_append_cons one, List.map_cons, List.sum_cons, ih later, braceDelta_eq inLine closed,
      balance_closeLine]
    simp [balance_cons, LineState.weight]

private theorem depthBefore_lines {front rest : List Char} (ended : IsEnded front)
    (blanks : HoldsBlanks none (front ++ rest)) :
    depthBefore (lines (front ++ rest)) (front.count '\n') = balance front := by
  rw [depthBefore, lines_append ended, ← length_lines ended, List.take_left,
    sum_braceDelta_lines (holdsBlanks_append blanks)]

/-- A text with an unchecked block: what stands before the line of the word and before the word on
that line, the blanks behind the word, what stands between the two braces, and what comes after
them. -/
structure UncheckedBlock where
  front : List Char
  lead : List Char
  gap : List Char
  body : List Char
  rest : List Char
  ended : IsEnded front
  oneLine : '\n' ∉ lead
  blank : isAllBlank gap
  nested : ∀ inner, inner <+: body → 0 ≤ balance inner
  matching : balance body = 0

namespace UncheckedBlock

variable (block : UncheckedBlock)

/-- The brace stands on the line of the word, and no closing brace before the word reaches below
that line. -/
def OpensInPlace : Prop :=
  '\n' ∉ block.gap ∧ 0 ≤ balance block.lead

def header : List Char :=
  block.lead ++ ("unchecked".toList ++ (block.gap ++ ['\x7b']))

def text : List Char :=
  block.front ++ (block.header ++ (block.body ++ '\x7d' :: block.rest))

/-- The number of the line, from zero, on which the body goes on behind a part of it. -/
def lineBehind (inner : List Char) : Nat :=
  (block.front ++ (block.header ++ inner)).count '\n'

private theorem text_eq {inner more : List Char} (split : inner ++ more = block.body) :
    block.text = block.front ++ (block.header ++ inner) ++ (more ++ '\x7d' :: block.rest) := by
  rw [text, ← split]
  simp only [List.append_assoc]

private theorem lineBehind_lt {inner more : List Char} {c : Char}
    (split : inner ++ c :: more = block.body) :
    block.lineBehind inner < (lines block.text).length := by
  rw [block.text_eq split]
  exact count_lt_length_lines _ c (more ++ '\x7d' :: block.rest)

private theorem front_le_lineBehind (inner : List Char) :
    block.front.count '\n' ≤ block.lineBehind inner := by
  rw [lineBehind, List.count_append]
  exact Nat.le_add_right _ _

private theorem balance_header : balance block.header = balance block.lead + 1 := by
  have word : balance "unchecked".toList = 0 := by decide
  have brace : balance ['\x7b'] = 1 := by decide
  rw [header, balance_append, balance_append, balance_append, word, brace,
    balance_of_isAllBlank block.blank]
  omega

variable {block}

private theorem OpensInPlace.not_mem_header (inPlace : block.OpensInPlace) :
    '\n' ∉ block.header := by
  simp [header, block.oneLine, inPlace.1]

private theorem OpensInPlace.exists_opening (inPlace : block.OpensInPlace) :
    ∃ line, (lines block.text)[block.front.count '\n']? = some line ∧ opensBlock line := by
  have one : '\n' ∉ block.lead ++ ("unchecked".toList ++ block.gap) := by
    simp [block.oneLine, inPlace.1]
  obtain ⟨more, later, begun⟩ :=
    exists_line_append (c := '\x7b') (by decide) (block.body ++ '\x7d' :: block.rest)
  replace begun := begun _ one
  have split : block.header ++ (block.body ++ '\x7d' :: block.rest) =
      block.lead ++ ("unchecked".toList ++ block.gap) ++ '\x7b' ::
        (block.body ++ '\x7d' :: block.rest) := by
    simp only [header, List.append_assoc, List.singleton_append]
  have place : (lines block.text)[block.front.count '\n']? =
      some (block.lead ++ ("unchecked".toList ++ block.gap) ++ '\x7b' :: more) := by
    rw [text, lines_append block.ended, ← length_lines block.ended, split, begun,
      List.getElem?_append_right (Nat.le_refl _), Nat.sub_self]
    rfl
  refine ⟨_, place, ?_⟩
  have word :
      contains "unchecked" (block.lead ++ ("unchecked".toList ++ block.gap) ++ '\x7b' :: more) :=
    contains_iff.mpr ⟨block.lead, block.gap ++ '\x7b' :: more, by simp only [List.append_assoc]⟩
  rw [opensBlock, word]
  simp

private theorem OpensInPlace.lineStart (inPlace : block.OpensInPlace) {inner head tail : List Char}
    (split : block.front ++ (block.header ++ inner) = head ++ tail)
    (later : block.front.count '\n' < head.count '\n') :
    ∃ start, start <+: inner ∧ head = block.front ++ (block.header ++ start) := by
  rw [← List.append_assoc] at split
  rcases List.append_eq_append_iff.mp split with ⟨start, rfl, behind⟩ | ⟨between, whole, -⟩
  · exact ⟨start, ⟨tail, behind.symm⟩, List.append_assoc _ _ _⟩
  · -- The line of the word has not ended there.
    have count := congrArg (List.count '\n') whole
    rw [List.count_append, List.count_append, List.count_eq_zero_of_not_mem inPlace.not_mem_header]
      at count
    omega

private theorem OpensInPlace.openSince (inPlace : block.OpensInPlace)
    (blanks : HoldsBlanks none block.text) {inner : List Char} (begun : inner <+: block.body) :
    OpenSince (lines block.text) (block.front.count '\n') (block.lineBehind inner) where
  opens := inPlace.exists_opening
  above := by
    intro j after upTo
    obtain ⟨head, tail, split, ended, rfl⟩ := exists_isEnded upTo
    obtain ⟨start, part, rfl⟩ := inPlace.lineStart split after
    obtain ⟨more, body⟩ := part.trans begun
    have first : depthBefore (lines block.text) (block.front.count '\n') = balance block.front :=
      depthBefore_lines block.ended blanks
    have here : depthBefore (lines block.text)
      ((block.front ++ (block.header ++ start)).count '\n') =
        balance (block.front ++ (block.header ++ start)) := by
      rw [block.text_eq body] at blanks ⊢
      exact depthBefore_lines ended blanks
    have nested := block.nested start ⟨more, body⟩
    have lead := inPlace.2
    rw [first, here, balance_append, balance_append, balance_header]
    omega

end UncheckedBlock

private theorem appliesIn_of_inside (checked : Bool) : appliesIn checked true = fun _ => true := by
  ext r
  simp [appliesIn]

private theorem appliesIn_of_unchecked (inside : Bool) : appliesIn false inside = fun _ =>
    true := by
  ext r
  simp [appliesIn]

/-- In the text of the code, a line lies in an unchecked block if and only if one is open since a
line up to it. Every block that opens in place covers the lines of its body, and on them all rules
are tried, that about overflows too. -/
theorem uncheckedLines_cover (s : List Char) :
    (∀ n, (uncheckedLines (lines (codeOnly s)))[n]? = some true ↔
      n < (lines (codeOnly s)).length ∧ ∃ i ≤ n, OpenSince (lines (codeOnly s)) i n) ∧
    ∀ block : UncheckedBlock, block.text = codeOnly s → block.OpensInPlace →
      ∀ inner c more, inner ++ c :: more = block.body →
        (uncheckedLines (lines (codeOnly s)))[block.lineBehind inner]? = some true ∧
        ∃ code line, (lines (codeOnly s))[block.lineBehind inner]? = some code ∧
          (lines s)[block.lineBehind inner]? = some line ∧
          (findingsOf s).filter (·.affectedLines = [block.lineBehind inner + 1]) =
            lineFindings (fun _ => true) (block.lineBehind inner + 1) code (trim line) := by
  refine ⟨fun n => uncheckedLines_iff, ?_⟩
  intro block text inPlace inner c more split
  have listed := block.lineBehind_lt split
  have since := inPlace.openSince (text ▸ holdsBlanks_codeOnly s) ⟨c :: more, split⟩
  rw [text] at listed since
  have inside : (uncheckedLines (lines (codeOnly s)))[block.lineBehind inner]? = some true :=
    uncheckedLines_iff.mpr ⟨listed, _, block.front_le_lineBehind inner, since⟩
  obtain ⟨line, shown, found⟩ := filter_findingsOf (List.getElem?_eq_getElem listed)
  refine ⟨inside, _, line, List.getElem?_eq_getElem listed, shown, ?_⟩
  have applied : appliesIn (pinsChecked s) ((insideOf s)[block.lineBehind inner]?.getD false) =
      fun _ => true := by
    cases checked : pinsChecked s with
    | true => rw [insideOf, checked, if_pos rfl, inside, Option.getD_some, appliesIn_of_inside]
    | false => exact appliesIn_of_unchecked _
  rw [found, applied]

private theorem nested_of_take {body : List Char}
    (nested : ∀ n ≤ body.length, 0 ≤ balance (body.take n)) (inner : List Char)
    (begun : inner <+: body) : 0 ≤ balance inner := by
  rw [List.prefix_iff_eq_take.mp begun]
  exact nested inner.length begun.length_le

/-- A contract for a compiler with checked arithmetic, with an addition in an unchecked block. -/
def addition (front lead gap : String) (ended : IsEnded front.toList) (oneLine : '\n' ∉ lead.toList)
    (blank : isAllBlank gap.toList) : UncheckedBlock where
  front := "pragma solidity ^0.8.0;\ncontract A \x7b\nfunction f() public \x7b\n".toList ++
    front.toList
  lead := lead.toList
  gap := gap.toList
  body := "\nx += 1;\n".toList
  rest := "\n\x7d\n\x7d".toList
  ended := by
    rcases ended with empty | ended
    · rw [empty]
      exact .inr rfl
    · exact .inr (by rw [List.getLast?_append, ended]; rfl)
  oneLine := oneLine
  blank := blank
  nested := nested_of_take (by decide)
  matching := by decide

/-- With the brace behind the word, the addition is found. -/
theorem uncheckedLines_cover_addition :
    let block := addition "" "  " " " (.inl rfl) (by decide) (by decide)
    block.text = codeOnly block.text ∧ block.OpensInPlace ∧ pinsChecked block.text ∧
      (uncheckedLines (lines (codeOnly block.text)))[block.lineBehind ['\n']]? = some true ∧
      (findingsOf block.text).map (·.affectedLines) = [[5]] := by
  intro block
  have code : block.text = codeOnly block.text := by decide
  have inPlace : block.OpensInPlace := ⟨by decide, by decide⟩
  have split : ['\n'] ++ 'x' :: " += 1;\n".toList = block.body := by decide
  have covered := (uncheckedLines_cover block.text).2 block code inPlace ['\n'] 'x' _ split
  exact ⟨code, inPlace, by decide, covered.1, by decide⟩

/-- The addition in the body stands on a line that does not count as one of an unchecked block, and
no finding tells of it. -/
def MissesAddition (block : UncheckedBlock) : Prop :=
  block.text = codeOnly block.text ∧ balance block.text = 0 ∧ pinsChecked block.text = true ∧
    (lines block.text)[block.lineBehind ['\n']]? = some "x += 1;".toList ∧
    (uncheckedLines (lines block.text))[block.lineBehind ['\n']]? = some false ∧
    (findingsOf block.text).length = 0 ∧
    ∃ r ∈ ruleTable, r.category = overflowCategory ∧ r.hit? "x += 1;".toList = some .low

instance (block : UncheckedBlock) : Decidable (MissesAddition block) :=
  inferInstanceAs (Decidable (_ ∧ _))

/-- With the brace on the line behind the word, or with the word behind a closing brace, the
addition is missed. -/
theorem uncheckedLines_misses_addition :
    MissesAddition (addition "" "" "\n" (.inl rfl) (by decide) (by decide)) ∧
      MissesAddition (addition "if (b) \x7b\n" "\x7d " " " (.inr rfl) (by decide) (by decide)) := by
  constructor <;> decide

end AuditPanel.Source
