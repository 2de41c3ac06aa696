import AuditPanel.Proofs.Audit.Outcome
import AuditPanel.Proofs.Source.Extraction
import AuditPanel.Proofs.Text.LowerCase
import AuditPanel.Proofs.Text.Search
import Mathlib.Data.List.DropRight

/-!
Where a text declares a contract. The check of a source takes a contract word with a name after it
anywhere in the text; the extraction takes it only at the front of a line that holds the name too.
The two differ exactly on texts all of whose declarations stand elsewhere.
-/

set_option autoImplicit false

namespace AuditPanel.Source

open AuditPanel.Text

/-- A contract word, blanks and the start of a name. -/
def NamesContract (s : List Char) : Prop :=
  ∃ word ∈ contractWords.map (·.1), ∃ blanks c rest,
    s = word.toList ++ (blanks ++ c :: rest) ∧ blanks ≠ [] ∧ isAllBlank blanks ∧ isNameStart c

/-- The text of a line before a contract word in a header: blanks, or the word `abstract` between
blanks. -/
def IsLeadIn (s : List Char) : Prop :=
  isAllBlank s ∨
    ∃ lead blanks, s = lead ++ ("abstract".toList ++ blanks) ∧ isAllBlank lead ∧ blanks ≠ [] ∧
      isAllBlank blanks

/-- Whether a character goes on with its line. -/
def inLine (c : Char) : Bool :=
  c != '\n'

def lastLine (s : List Char) : List Char :=
  s.rtakeWhile inLine

/-- Between two texts a contract is declared. -/
def Declares (front rest : List Char) : Prop :=
  isWordAt front.getLast? = false ∧ NamesContract rest

/-- Between two texts the front of a line ends, and on the same line a contract is named. -/
def HeadsLine (front rest : List Char) : Prop :=
  IsLeadIn (lastLine front) ∧ NamesContract (rest.takeWhile inLine)

/-- The text falls into two parts of a kind. -/
def HasPlace (kind : List Char → List Char → Prop) (s : List Char) : Prop :=
  ∃ front rest, front ++ rest = s ∧ kind front rest

theorem not_word_of_isBlank {c : Char} (blank : isBlank c) :
    isWordChar c = false ∧ isNameStart c = false := by
  have points : ∀ r ∈ blankRanges, ∀ n ∈ List.range' r.1 (r.2 + 1 - r.1),
      isWordChar (Char.ofNat n) = false ∧ isNameStart (Char.ofNat n) = false := by decide +kernel
  exact of_inRanges (P := fun c => isWordChar c = false ∧ isNameStart c = false) points blank

theorem exists_of_wordOf? {α : Type} {list : List (String × α)} {s rest : List Char} {a : α}
    (found : wordOf? list s = some (a, rest)) :
    ∃ word, (word, a) ∈ list ∧ s = word.toList ++ rest := by
  induction list with
  | nil => simp [wordOf?] at found
  | cons entry list ih =>
    obtain ⟨word, b⟩ := entry
    simp only [wordOf?] at found
    split at found
    · next tail here =>
      obtain ⟨rfl, rfl⟩ : b = a ∧ tail = rest := by simpa using found
      exact ⟨word, List.mem_cons_self, after?_eq_some_iff.mp here⟩
    · obtain ⟨word', member, split⟩ := ih found
      exact ⟨word', List.mem_cons_of_mem _ member, split⟩

private theorem wordOf?_contractWords {word : String} (member : word ∈ contractWords.map (·.1))
    (rest : List Char) :
    ∃ kind, wordOf? contractWords (word.toList ++ rest) = some (kind, rest) := by
  have words : word = "contract" ∨ word = "interface" ∨ word = "library" := by
    simpa [contractWords] using member
  rcases words with rfl | rfl | rfl
  · exact ⟨.contract, rfl⟩
  · exact ⟨.interface, rfl⟩
  · exact ⟨.library, rfl⟩

private theorem contractHead?_isSome_iff {s : List Char} :
    (contractHead? s).isSome ↔ NamesContract s := by
  constructor
  · intro headed
    obtain ⟨head, found⟩ := Option.isSome_iff_exists.mp headed
    simp only [contractHead?, bind, Option.bind_eq_some_iff] at found
    obtain ⟨⟨kind, rest⟩, opened, rest', spaced, ⟨name, rest''⟩, named, -⟩ := found
    obtain ⟨word, member, rfl⟩ := exists_of_wordOf? opened
    obtain ⟨blanks, rfl, some_, blank⟩ := exists_of_afterBlanks? spaced
    cases rest' with
    | nil => simp [identifier?] at named
    | cons c rest' =>
      have starts : isNameStart c := by
        by_contra starts
        simp [identifier?, starts] at named
      exact ⟨word, List.mem_map_of_mem member, blanks, c, rest', rfl, some_, blank, starts⟩
  · rintro ⟨word, member, blanks, c, rest, rfl, some_, blank, starts⟩
    obtain ⟨kind, found⟩ := wordOf?_contractWords member (blanks ++ c :: rest)
    have solid : isBlank c = false := by
      by_contra blank
      simp [(not_word_of_isBlank (Bool.of_not_eq_false blank)).2] at starts
    simp [contractHead?, found, afterBlanks?_append some_ blank, trimStart_cons solid,
      identifier?, starts]

theorem NamesContract.append {s : List Char} (named : NamesContract s) (later : List Char) :
    NamesContract (s ++ later) := by
  obtain ⟨word, member, blanks, c, rest, rfl, some_, blank, starts⟩ := named
  exact ⟨word, member, blanks, c, rest ++ later, by simp, some_, blank, starts⟩

private theorem namesContract_concat_blank {s : List Char} {c : Char} (blank : isBlank c) :
    NamesContract (s ++ [c]) ↔ NamesContract s := by
  refine ⟨?_, fun named => named.append [c]⟩
  rintro ⟨word, member, blanks, first, rest, split, some_, allBlank, starts⟩
  rcases List.eq_nil_or_concat' rest with rfl | ⟨rest, last, rfl⟩
  · have same : c = first := by
      have ends := congrArg List.getLast? split
      simpa using ends
    rw [← same, (not_word_of_isBlank blank).2] at starts
    simp at starts
  · have parts : s = word.toList ++ (blanks ++ first :: rest) ∧ c = last := by
      have split : s ++ [c] = (word.toList ++ (blanks ++ first :: rest)) ++ [last] := by
        simp [split]
      simpa using List.append_inj' split rfl
    exact ⟨word, member, blanks, first, rest, parts.1, some_, allBlank, starts⟩

private theorem not_namesContract_nil : ¬NamesContract [] := by
  rintro ⟨word, member, blanks, c, rest, split, -⟩
  simp at split

private theorem NamesContract.trimStart_eq {s : List Char} (named : NamesContract s) :
    trimStart s = s ∧ after? "abstract" s = none := by
  obtain ⟨word, member, blanks, c, rest, rfl, -⟩ := named
  have words : word = "contract" ∨ word = "interface" ∨ word = "library" := by
    simpa [contractWords] using member
  rcases words with rfl | rfl | rfl <;> exact ⟨rfl, rfl⟩

private theorem isContractHeader_iff {l : List Char} :
    isContractHeader l ↔ HasPlace (fun front rest => IsLeadIn front ∧ NamesContract rest) l := by
  obtain ⟨lead, split, blank⟩ := exists_trimStart l
  have header : isContractHeader l ↔
      NamesContract (((after? "abstract" (trimStart l)).bind afterBlanks?).getD (trimStart l)) := by
    rw [← contractHead?_isSome_iff, isContractHeader, contractLine?]
    cases (after? "abstract" (trimStart l)).bind afterBlanks? <;> simp
  rw [header]
  constructor
  · cases marked : (after? "abstract" (trimStart l)).bind afterBlanks? with
    | none => exact fun named => ⟨lead, trimStart l, split.symm, .inl blank, named⟩
    | some rest =>
      intro named
      obtain ⟨behind, marked, spaced⟩ := Option.bind_eq_some_iff.mp marked
      obtain ⟨blanks, rfl, some_, allBlank⟩ := exists_of_afterBlanks? spaced
      rw [after?_eq_some_iff] at marked
      refine ⟨lead ++ ("abstract".toList ++ blanks), rest, ?_,
        .inr ⟨lead, blanks, rfl, blank, some_, allBlank⟩, named⟩
      rw [split, marked]
      simp
  · rintro ⟨front, rest, rfl, leadIn, named⟩
    obtain ⟨trimmed, unmarked⟩ := named.trimStart_eq
    rcases leadIn with blank | ⟨lead, blanks, rfl, blank, some_, allBlank⟩
    · rw [trimStart_append blank, trimmed, unmarked]
      exact named
    · have marked : after? "abstract" (trimStart (lead ++ ("abstract".toList ++ blanks) ++ rest)) =
          some (blanks ++ rest) := by
        rw [List.append_assoc, trimStart_append blank, List.append_assoc]
        exact after?_eq_some_iff.mpr rfl
      rw [marked, Option.bind_some, afterBlanks?_append some_ allBlank, trimmed]
      exact named

private theorem isContractHeader_closeLine (line : List Char) :
    isContractHeader (closeLine line) ↔ isContractHeader line.reverse := by
  rcases line with _ | ⟨c, line⟩
  · rfl
  by_cases carriage : c = '\r'
  · subst carriage
    have blank : isBlank '\r' := by decide
    rw [closeLine, List.reverse_cons, isContractHeader_iff, isContractHeader_iff]
    constructor
    · rintro ⟨front, rest, split, leadIn, named⟩
      refine ⟨front, rest ++ ['\r'], ?_, leadIn, named.append _⟩
      rw [← List.append_assoc, split]
    · rintro ⟨front, rest, split, leadIn, named⟩
      rcases List.eq_nil_or_concat' rest with rfl | ⟨rest, last, rfl⟩
      · exact absurd named not_namesContract_nil
      · have parts : front ++ rest = line.reverse ∧ last = '\r' := by
          have split : (front ++ rest) ++ [last] = line.reverse ++ ['\r'] := by simp [← split]
          simpa using List.append_inj' split rfl
        rw [parts.2, namesContract_concat_blank blank] at named
        exact ⟨front, rest, parts.1, leadIn, named⟩
  · have kept : closeLine (c :: line) = (c :: line).reverse := by
      unfold closeLine
      split
      · next same => simp_all
      · rfl
    rw [kept]

private theorem inLine_of_not_mem {s : List Char} (one : '\n' ∉ s) : ∀ c ∈ s, inLine c := by
  intro c member
  have differs : c ≠ '\n' := fun same => one (same ▸ member)
  simpa [inLine] using differs

private theorem lastLine_of_not_mem {s : List Char} (one : '\n' ∉ s) : lastLine s = s :=
  List.rtakeWhile_eq_self_iff.mpr (inLine_of_not_mem one)

private theorem lastLine_append_cons (s t : List Char) :
    lastLine (s ++ '\n' :: t) = lastLine t := by
  induction t using List.reverseRecOn with
  | nil => exact List.rtakeWhile_concat_neg _ _ _ (by decide)
  | append_singleton t c ih =>
    have grouped : s ++ '\n' :: (t ++ [c]) = (s ++ '\n' :: t) ++ [c] := by simp
    rw [lastLine, grouped, List.rtakeWhile_concat, lastLine, List.rtakeWhile_concat, ← lastLine, ih,
      lastLine]

private theorem takeWhile_of_not_mem {s : List Char} (one : '\n' ∉ s) : s.takeWhile inLine = s :=
  List.takeWhile_eq_self_iff.mpr (inLine_of_not_mem one)

private theorem takeWhile_append_cons {s : List Char} (one : '\n' ∉ s) (t : List Char) :
    (s ++ '\n' :: t).takeWhile inLine = s := by
  rw [List.takeWhile_append_of_pos (inLine_of_not_mem one), List.takeWhile_cons_of_neg (by decide),
    List.append_nil]

private theorem hasPlace_headsLine_of_not_mem {s : List Char} (one : '\n' ∉ s) :
    HasPlace HeadsLine s ↔ isContractHeader s := by
  rw [isContractHeader_iff]
  refine exists_congr fun front => exists_congr fun rest => and_congr_right fun split => ?_
  have parts : '\n' ∉ front ∧ '\n' ∉ rest := by simpa [← split] using one
  rw [HeadsLine, lastLine_of_not_mem parts.1, takeWhile_of_not_mem parts.2]

private theorem hasPlace_headsLine_append {first : List Char} (one : '\n' ∉ first)
    (later : List Char) :
    HasPlace HeadsLine (first ++ '\n' :: later) ↔ isContractHeader first ∨
      HasPlace HeadsLine later := by
  rw [← hasPlace_headsLine_of_not_mem one]
  constructor
  · rintro ⟨front, rest, split, leadIn, named⟩
    rcases List.append_eq_append_iff.mp split with ⟨between, rfl, behind⟩ | ⟨between, rfl, behind⟩
    · -- The place is on the first line, which goes on with the text in between.
      left
      have parts : '\n' ∉ front ∧ '\n' ∉ between := by simpa using one
      rw [behind, takeWhile_append_cons parts.2] at named
      refine ⟨front, between, rfl, leadIn, ?_⟩
      rwa [takeWhile_of_not_mem parts.2]
    · cases between with
      | nil =>
        have started : rest = '\n' :: later := by simpa using behind.symm
        rw [started] at named
        exact absurd named not_namesContract_nil
      | cons c between =>
        obtain ⟨rfl, rfl⟩ : '\n' = c ∧ later = between ++ rest := by simpa using behind
        rw [lastLine_append_cons] at leadIn
        exact .inr ⟨between, rest, rfl, leadIn, named⟩
  · rintro (⟨front, rest, rfl, leadIn, named⟩ | ⟨front, rest, rfl, leadIn, named⟩)
    · have parts : '\n' ∉ front ∧ '\n' ∉ rest := by simpa using one
      refine ⟨front, rest ++ '\n' :: later, by simp, leadIn, ?_⟩
      rw [takeWhile_append_cons parts.2]
      rwa [takeWhile_of_not_mem parts.2] at named
    · refine ⟨first ++ '\n' :: front, rest, by simp, ?_, named⟩
      rwa [lastLine_append_cons]

private theorem exists_header_lines (s : List Char) :
    (∃ l ∈ lines s, isContractHeader l) ↔ HasPlace HeadsLine s := by
  induction s using line_induction with
  | nil =>
    rw [hasPlace_headsLine_of_not_mem List.not_mem_nil]
    decide
  | last l filled one =>
    rw [lines_of_not_mem filled one, hasPlace_headsLine_of_not_mem one]
    simp
  | cons l s one ih =>
    rw [lines_append_cons one, hasPlace_headsLine_append one, ← ih, ← List.reverse_reverse l,
      ← isContractHeader_closeLine, List.reverse_reverse]
    simp

private theorem exists_contract_itemsFrom (p : Position) (line : Nat) (ls : List (List Char)) :
    (∃ d, Item.contract d ∈ itemsFrom p line [] ls) ↔ ∃ l ∈ ls, isContractHeader l := by
  induction ls generalizing p line with
  | nil => simp [itemsFrom]
  | cons s ls ih =>
    have here : (∃ d, item? p (s :: ls) line = some (.contract d)) ↔ isContractHeader s := by
      have header := contractLine?_down s 0 line
      rw [Nat.zero_add] at header
      cases found : contractLine? s 0 with
      | some d =>
        rw [found] at header
        simp [isContractHeader, found, item?, header]
      | none =>
        rw [found] at header
        simp only [isContractHeader, found, item?, List.headD_cons, header, Option.map_none,
          Option.isSome_none, Bool.false_eq_true, iff_false, not_exists]
        intro d
        repeat' split
        all_goals simp
    simp only [itemsFrom_cons, List.mem_append, Option.mem_toList, exists_or, here, ih,
      List.exists_mem_cons_iff]

private theorem extract_contracts_ne_nil (s : List Char) :
    (extract s).contracts ≠ [] ↔ HasPlace HeadsLine s := by
  rw [← exists_header_lines, ← exists_contract_itemsFrom ⟨0, none⟩ 1]
  constructor
  · intro some_
    obtain ⟨d, member⟩ := List.exists_mem_of_ne_nil _ some_
    obtain ⟨item, listed, picked⟩ := List.mem_filterMap.mp member
    cases item with
    | contract d => exact ⟨d, listed⟩
    | _ => simp at picked
  · rintro ⟨d, member⟩
    exact List.ne_nil_of_mem (List.mem_filterMap.mpr ⟨_, member, rfl⟩)

private theorem hasDeclaration_iff (s : List Char) :
    hasDeclaration s ↔ HasPlace Declares (blankComments s) := by
  rw [hasDeclaration, holdsSomewhere, anyPosition_iff]
  simp [HasPlace, Declares, contractHead?_isSome_iff]

theorem HeadsLine.declares {front rest : List Char} (heads : HeadsLine front rest) :
    Declares front rest := by
  obtain ⟨leadIn, named⟩ := heads
  refine ⟨?_, ?_⟩
  · rcases List.eq_nil_or_concat' front with rfl | ⟨front, c, rfl⟩
    · rfl
    rw [List.getLast?_concat, isWordAt]
    by_cases feed : c = '\n'
    · rw [feed]
      decide
    -- The last character of a lead-in is a blank.
    have goesOn : lastLine (front ++ [c]) = lastLine front ++ [c] :=
      List.rtakeWhile_concat_pos _ _ _ (by simpa [inLine] using feed)
    rw [goesOn] at leadIn
    have blank : isBlank c := by
      rcases leadIn with blank | ⟨lead, blanks, split, -, some_, blank⟩
      · exact List.all_eq_true.mp blank c (by simp)
      · obtain ⟨blanks, last, rfl⟩ := (List.eq_nil_or_concat' blanks).resolve_left some_
        have ends : lastLine front ++ [c] = lead ++ ("abstract".toList ++ blanks) ++ [last] := by
          simp [split]
        obtain rfl : c = last := by simpa using (List.append_inj' ends rfl).2
        exact List.all_eq_true.mp blank c (by simp)
    exact (not_word_of_isBlank blank).1
  · have whole := named.append (rest.dropWhile inLine)
    rwa [List.takeWhile_append_dropWhile] at whole

end AuditPanel.Source

namespace AuditPanel.Auditor

open AuditPanel.Source

section Completed

variable {a : Auditor} {o : Occasion} {source : String} {options : AuditOptions}
  {s s' : AuditorState} {r : AuditReport}
    (completed : auditSource a o source options s = (.ok r, s'))
include completed

private theorem hasDeclaration_of_completed : hasDeclaration source.toList := by
  obtain ⟨after, run, -⟩ := auditSource_ok completed
  obtain ⟨p, view, elapsed, prepared, -⟩ := runSource_ok run
  rcases prepare_cases a.settings source options with ⟨-, e, invalid, -⟩ | ⟨accepted, -⟩
  · cases invalid.symm.trans prepared
  · by_contra undeclared
    exact accepted (.inr (.inr (Bool.of_not_eq_true undeclared)))

private theorem contracts_of_completed :
    r.contractInfo.contracts = (extract (blankComments source.toList)).contracts.map (·.name) := by
  obtain ⟨after, run, -⟩ := auditSource_ok completed
  obtain ⟨p, view, elapsed, prepared, -, rfl⟩ := runSource_ok run
  obtain ⟨-, analysed, -⟩ := prepare_ok prepared
  have analysis : p.analysis = .ofSource source.toList := by
    unfold analyze at analysed
    split at analysed
    · simp at analysed
    · simpa [eq_comm] using analysed
  simp only [completedReport, analysis]
  rfl

end Completed

/-- The check of a source looks for a place where a contract is declared, and the extraction for
such a place that heads its line. Reports of sources that pass the check name a contract in the
second case only. -/
theorem declared_iff (source : String) :
    (hasDeclaration source.toList ↔ HasPlace Declares (blankComments source.toList)) ∧
    ((extract (blankComments source.toList)).contracts ≠ [] ↔
      HasPlace (fun front rest => Declares front rest ∧ HeadsLine front rest)
        (blankComments source.toList)) ∧
    ∀ (a : Auditor) (o : Occasion) (options : AuditOptions) (s s' : AuditorState) (r : AuditReport),
      auditSource a o source options s = (.ok r, s') →
        HasPlace Declares (blankComments source.toList) ∧
        (r.contractInfo.contracts ≠ [] ↔
          HasPlace (fun front rest => Declares front rest ∧ HeadsLine front rest)
            (blankComments source.toList)) := by
  have extracted : (extract (blankComments source.toList)).contracts ≠ [] ↔
      HasPlace (fun front rest => Declares front rest ∧ HeadsLine front rest)
        (blankComments source.toList) := by
    rw [extract_contracts_ne_nil]
    refine exists_congr fun front => exists_congr fun rest => and_congr_right fun _ => ?_
    exact ⟨fun heads => ⟨heads.declares, heads⟩, And.right⟩
  refine ⟨hasDeclaration_iff _, extracted, fun a o options s s' r completed => ?_⟩
  refine ⟨(hasDeclaration_iff _).mp (hasDeclaration_of_completed completed), ?_⟩
  rw [← extracted, contracts_of_completed completed, Ne, List.map_eq_nil_iff]

/-- A contract on a line of its own is found by both, and its report names it. -/
theorem declared_iff_indented :
    ∃ (r : AuditReport) (after : AuditorState),
      auditSource terse ⟨"1", default⟩ "  abstract contract A \x7b\x7d"
        ⟨none, .fast, some ["security"]⟩ (.initial terse.settings) = (.ok r, after) ∧
      r.contractInfo.contracts ≠ [] := by
  have answered :
      isAnswered terse ⟨"1", default⟩ "  abstract contract A \x7b\x7d"
        ⟨none, .fast, some ["security"]⟩ Requests.none = true := by
    decide +kernel
  have found : (extract (blankComments "  abstract contract A \x7b\x7d".toList)).contracts ≠
      [] := by
    decide
  obtain ⟨r, after, completed⟩ :=
    auditSource_initial_completes answered (by decide)
  obtain ⟨-, extracted, reported⟩ := declared_iff "  abstract contract A \x7b\x7d"
  exact ⟨r, after, completed, (reported _ _ _ _ _ _ completed).2.mpr (extracted.mp found)⟩

/-- A contract that is declared in a string literal only passes the check, and its report names no
contract. -/
theorem declared_in_literal :
    hasDeclaration "string constant NAME = \"contract A\";".toList = true ∧
    (extract (blankComments "string constant NAME = \"contract A\";".toList)).contracts = [] ∧
    ∃ (r : AuditReport) (after : AuditorState),
      auditSource terse ⟨"1", default⟩ "string constant NAME = \"contract A\";"
        ⟨none, .fast, some ["security"]⟩ (.initial terse.settings) = (.ok r, after) ∧
      r.contractInfo.contracts = [] := by
  have declared : hasDeclaration "string constant NAME = \"contract A\";".toList = true := by decide
  have none_ : (extract (blankComments "string constant NAME = \"contract A\";".toList)).contracts =
      [] := by
    decide
  have answered :
      isAnswered terse ⟨"1", default⟩ "string constant NAME = \"contract A\";"
        ⟨none, .fast, some ["security"]⟩ Requests.none = true := by
    decide +kernel
  obtain ⟨r, after, completed⟩ :=
    auditSource_initial_completes answered (by decide)
  refine ⟨declared, none_, r, after, completed, ?_⟩
  rw [contracts_of_completed completed, none_, List.map_nil]

end AuditPanel.Auditor
