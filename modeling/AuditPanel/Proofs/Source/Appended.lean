import AuditPanel.Proofs.Source.Snippets
import AuditPanel.Proofs.Source.Unchecked

/-!
Code put behind a source. What is known of a text that ends with its last line stays known: both
lexers read the lines that follow from the state in which they come to them and never look back,
even in an open comment or literal. So the findings stay, apart from those about overflows, which a
version requirement switches off, and no term of a vocabulary goes away.
-/

set_option autoImplicit false

namespace AuditPanel.Text

private theorem isEnded_of_cons {c : Char} {s : List Char} (ended : IsEnded (c :: s)) :
    IsEnded s := by
  cases s with
  | nil => exact .inl rfl
  | cons d s =>
    rcases ended with empty | ended
    · cases empty
    · exact .inr (by rwa [List.getLast?_cons_cons] at ended)

private theorem append_ne_cons {c d : Char} {s : List Char} (ended : IsEnded (c :: s))
    (other : c ≠ '\n')
    (apart : ∀ inner, s = d :: inner → False) (later more : List Char) :
    s ++ later = d :: more → False := by
  intro next
  cases s with
  | nil =>
    rcases ended with empty | ended
    · cases empty
    · exact other (by simpa using ended)
  | cons e s =>
    obtain ⟨rfl, -⟩ : e = d ∧ s ++ later = more := by simpa using next
    exact apart s rfl

end AuditPanel.Text

namespace AuditPanel.Source

open AuditPanel.Text

private theorem exists_writtenFrom_append (region : Region) {s : List Char} (ended : IsEnded s) :
    ∃ behind, ∀ later, writtenFrom region (s ++ later) = writtenFrom region s ++
      writtenFrom behind later := by
  fun_induction writtenFrom region s with
  | case1 region =>
    refine ⟨region, ?_⟩
    intro later
    rfl
  | case2 rest ih | case3 rest ih | case7 rest ih | case9 quote c rest ih =>
    obtain ⟨behind, same⟩ := ih (isEnded_of_cons (isEnded_of_cons ended))
    exact ⟨behind, fun later => by simp [writtenFrom, same]⟩
  | case5 rest ih =>
    obtain ⟨behind, same⟩ := ih (isEnded_of_cons ended)
    exact ⟨behind, fun later => by simp [writtenFrom, same]⟩
  | case6 c rest goesOn ih =>
    obtain ⟨behind, same⟩ := ih (isEnded_of_cons ended)
    exact ⟨behind, fun later => by simp [writtenFrom, same, goesOn]⟩
  | case4 c rest noLine noBlock ih =>
    obtain ⟨behind, same⟩ := ih (isEnded_of_cons ended)
    refine ⟨behind, ?_⟩
    intro later
    -- A slash at the end would look at what follows, but a line feed stands there.
    rw [List.cons_append, writtenFrom, same, List.cons_append]
    · intro more slash
      exact append_ne_cons ended (by simp [slash]) (fun inner => noLine inner slash) later more
    · intro more slash
      exact append_ne_cons ended (by simp [slash]) (fun inner => noBlock inner slash) later more
  | case8 c rest goesOn ih =>
    obtain ⟨behind, same⟩ := ih (isEnded_of_cons ended)
    refine ⟨behind, ?_⟩
    intro later
    rw [List.cons_append, writtenFrom, same, List.cons_append]
    intro more star
    exact append_ne_cons ended (by simp [star]) (fun inner => goesOn inner star) later more
  | case10 quote c rest unescaped ends ih =>
    obtain ⟨behind, same⟩ := ih (isEnded_of_cons ended)
    refine ⟨behind, ?_⟩
    intro later
    rw [List.cons_append, writtenFrom, if_pos ends, same, List.cons_append]
    intro d more escape
    exact append_ne_cons ended (by simp [escape]) (fun inner => unescaped d inner escape) later more
  | case11 quote c rest unescaped goesOn ih =>
    obtain ⟨behind, same⟩ := ih (isEnded_of_cons ended)
    refine ⟨behind, ?_⟩
    intro later
    rw [List.cons_append, writtenFrom, if_neg goesOn, same, List.cons_append]
    intro d more escape
    exact append_ne_cons ended (by simp [escape]) (fun inner => unescaped d inner escape) later more

private theorem exists_blankedFrom_append (quote : Option Char) {s : List Char}
    (ended : IsEnded s) :
    ∃ behind, ∀ later, blankedFrom quote (s ++ later) = blankedFrom quote s ++
      blankedFrom behind later := by
  fun_induction blankedFrom quote s with
  | case1 quote =>
    refine ⟨quote, ?_⟩
    intro later
    rfl
  | case2 c rest ih =>
    obtain ⟨behind, same⟩ := ih (isEnded_of_cons ended)
    exact ⟨behind, fun later => by simp [blankedFrom, same]⟩
  | case3 quote rest ih | case4 quote c rest inside ih =>
    obtain ⟨behind, same⟩ := ih (isEnded_of_cons (isEnded_of_cons ended))
    exact ⟨behind, fun later => by simp [blankedFrom, same]⟩
  | case5 quote c rest noBreak unescaped ends ih =>
    obtain ⟨behind, same⟩ := ih (isEnded_of_cons ended)
    refine ⟨behind, ?_⟩
    intro later
    rw [List.cons_append, blankedFrom, if_pos ends, same, List.cons_append]
    · intro more escape
      exact append_ne_cons ended (by simp [escape]) (fun inner => noBreak inner escape) later more
    · intro d more escape
      exact append_ne_cons ended (by simp [escape]) (fun inner => unescaped d inner escape)
        later more
  | case6 quote c rest noBreak unescaped goesOn ih =>
    obtain ⟨behind, same⟩ := ih (isEnded_of_cons ended)
    refine ⟨behind, ?_⟩
    intro later
    rw [List.cons_append, blankedFrom, if_neg goesOn, same, List.cons_append]
    · intro more escape
      exact append_ne_cons ended (by simp [escape]) (fun inner => noBreak inner escape) later more
    · intro d more escape
      exact append_ne_cons ended (by simp [escape]) (fun inner => unescaped d inner escape)
        later more

private theorem KeepsLayout.isEnded {s t : List Char} (layout : KeepsLayout s t)
    (ended : IsEnded s) : IsEnded t := by
  induction layout with
  | nil => exact .inl rfl
  | @cons c d s t here later ih =>
    have below := ih (isEnded_of_cons ended)
    cases later with
    | nil =>
      rcases ended with empty | ended
      · cases empty
      · rcases here with rfl | ⟨inside, -⟩
        · exact .inr ended
        · exact absurd (by simpa using ended) inside
    | cons here' later' =>
      rcases below with empty | below
      · cases empty
      · exact .inr (by rwa [List.getLast?_cons_cons])

private theorem exists_codeOnly_append {s : List Char} (ended : IsEnded s) (later : List Char) :
    ∃ more, codeOnly (s ++ later) = codeOnly s ++ more := by
  obtain ⟨region, comments⟩ := exists_writtenFrom_append .code ended
  have layout := keepsLayout_writtenFrom .code s
  obtain ⟨quote, literals⟩ := exists_blankedFrom_append none (layout.isEnded ended)
  refine ⟨blankedFrom quote ((writtenFrom region later).map (·.char)), ?_⟩
  simp only [codeOnly, blankLiterals_eq, blankComments_eq, written]
  rw [comments, List.map_append, literals]

section Scan

variable {raw ls : List (List Char)} (checked : Bool) (number : Nat) (inside : List Bool)

private theorem scanFrom_append (shown : raw.length = ls.length) (raw' ls' : List (List Char)) :
    scanFrom checked number (raw ++ raw') inside (ls ++ ls') [] =
      scanFrom checked number raw inside ls [] ++
        scanFrom checked (number + ls.length) raw' (inside.drop ls.length) ls' [] := by
  induction ls generalizing number raw inside with
  | nil =>
    obtain rfl : raw = [] := List.length_eq_zero_iff.mp shown
    rfl
  | cons line ls ih =>
    obtain ⟨first, raw, rfl⟩ := List.exists_cons_of_length_eq_add_one shown
    have later := ih (number + 1) inside.tail (by simpa using shown)
    rw [List.cons_append, List.cons_append, scanFrom_cons, scanFrom_cons]
    simp only [List.headD_cons, List.tail_cons, later, List.append_assoc, List.length_cons,
      List.drop_tail]
    rw [Nat.add_assoc, Nat.add_comm 1]

private theorem scanFrom_inside_append (counted : inside.length = ls.length) (inside' : List Bool) :
    scanFrom checked number raw (inside ++ inside') ls [] = scanFrom checked number raw inside ls
      [] := by
  induction ls generalizing number raw inside with
  | nil => rfl
  | cons line ls ih =>
    obtain ⟨first, inside, rfl⟩ := List.exists_cons_of_length_eq_add_one counted
    rw [List.cons_append, scanFrom_cons, scanFrom_cons, List.tail_cons,
      ih (number + 1) inside (by simpa using counted)]
    rfl

end Scan

private theorem uncheckedFrom_append (b : BlockState) (ls ls' : List (List Char)) :
    uncheckedFrom b [] (ls ++ ls') = uncheckedFrom b [] ls ++ uncheckedFrom (b.after ls) []
      ls' := by
  induction ls generalizing b with
  | nil => rfl
  | cons line ls ih =>
    simp only [List.cons_append, uncheckedFrom]
    rw [uncheckedFrom_eq_append, ih, uncheckedFrom_eq_append _ [_] ls]
    simp [BlockState.after]

private theorem length_uncheckedFrom (b : BlockState) (ls : List (List Char)) :
    (uncheckedFrom b [] ls).length = ls.length := by
  induction ls generalizing b with
  | nil => rfl
  | cons line ls ih =>
    simp only [uncheckedFrom]
    rw [uncheckedFrom_eq_append]
    simp [ih]

section Findings

variable {s : List Char} (ended : IsEnded s) (later : List Char)
include ended

/-- The findings of a source with code behind it begin with those that the lines of the source give
if the whole text tells which arithmetic is checked. -/
private theorem exists_findingsOf_append :
    ∃ more, findingsOf (s ++ later) =
      scanFrom (pinsChecked (s ++ later)) 1 (lines s)
        (if pinsChecked (s ++ later) then uncheckedLines (lines (codeOnly s)) else [])
          (lines (codeOnly s)) [] ++ more := by
  obtain ⟨code, split⟩ := exists_codeOnly_append ended later
  have shown : (lines s).length = (lines (codeOnly s)).length :=
    (keepsLayout_codeOnly s).length_lines
  have codeLines := lines_append ((keepsLayout_codeOnly s).isEnded ended) code
  rw [findingsOf_eq, scan, split, codeLines, lines_append ended, scanFrom_append _ _ _ shown]
  refine ⟨_, congrArg (· ++ _) ?_⟩
  split
  · rw [uncheckedLines, uncheckedFrom_append,
      scanFrom_inside_append _ _ _ (length_uncheckedFrom _ _)]
    rfl
  · rfl

private theorem findingsOf_filter_prefix :
    (findingsOf s).filter (·.category ≠ overflowCategory) <+:
      (findingsOf (s ++ later)).filter (·.category ≠ overflowCategory) := by
  obtain ⟨more, split⟩ := exists_findingsOf_append ended later
  rw [split, List.filter_append, findingsOf_eq, scan, scanFrom_filter_shown (pinsChecked s)
    (pinsChecked (s ++ later))]
  exact List.prefix_append _ _

private theorem findingsOf_prefix (same : pinsChecked (s ++ later) = pinsChecked s) :
    findingsOf s <+: findingsOf (s ++ later) := by
  obtain ⟨more, split⟩ := exists_findingsOf_append ended later
  rw [split, same, findingsOf_eq]
  exact List.prefix_append _ _

end Findings

private theorem identifiersFrom_eq_append (part : List Char) (out : List (List Char))
    (s : List Char) :
    identifiersFrom part out s = out.reverse ++ identifiersFrom part [] s := by
  induction s generalizing part out with
  | nil => cases part <;> simp [identifiersFrom]
  | cons c s ih =>
    cases part with
    | nil =>
      simp only [identifiersFrom]
      split
      · exact ih [c] out
      · exact ih [] out
    | cons p part =>
      simp only [identifiersFrom]
      split
      · exact ih _ out
      · rw [ih, ih [] [_]]
        simp

private theorem identifiersFrom_append_cons (part s later : List Char) :
    identifiersFrom part [] (s ++ '\n' :: later) = identifiersFrom part [] s ++
      identifiers later := by
  induction s generalizing part with
  | nil =>
    cases part with
    | nil => rfl
    | cons p part =>
      have ends : isIdentifierChar '\n' = false := by decide
      simp only [List.nil_append, identifiersFrom, ends]
      exact identifiersFrom_eq_append [] [_] later
  | cons c s ih =>
    cases part with
    | nil =>
      simp only [List.cons_append, identifiersFrom]
      split
      · exact ih [c]
      · exact ih []
    | cons p part =>
      simp only [List.cons_append, identifiersFrom]
      split
      · exact ih _
      · rw [identifiersFrom_eq_append, ih, identifiersFrom_eq_append _ [_] s, List.append_assoc]

private theorem identifiers_append {s : List Char} (ended : IsEnded s) (later : List Char) :
    identifiers (s ++ later) = identifiers s ++ identifiers later := by
  rcases List.eq_nil_or_concat' s with rfl | ⟨front, c, rfl⟩
  · rfl
  · rcases ended with empty | ended
    · simp at empty
    · obtain rfl : c = '\n' := by simpa using ended
      have grouped : front ++ ['\n'] ++ later = front ++ '\n' :: later := by simp
      simp only [grouped, identifiers, identifiersFrom_append_cons]
      simp [identifiersFrom]

private theorem termsOf_sublist (vocabulary : List String) {ws ws' : List String}
    (kept : ws ⊆ ws') :
    (termsOf vocabulary ws).Sublist (termsOf vocabulary ws') := by
  apply List.monotone_filter_right
  intro term listed
  simp only [Bool.or_eq_true, List.contains_iff_mem] at listed ⊢
  exact listed.imp (@kept _) (@kept _)

private theorem identifierWords_subset {s : List Char} (ended : IsEnded s) (later : List Char) :
    identifierWords (codeOnly s) ⊆ identifierWords (codeOnly (s ++ later)) := by
  obtain ⟨more, split⟩ := exists_codeOnly_append ended later
  rw [split, identifierWords, identifierWords,
    identifiers_append ((keepsLayout_codeOnly s).isEnded ended), List.flatMap_append]
  exact List.subset_append_left _ _

/-- What the analysis of one source has found is found in another source too: its findings about all
but overflows with their lines, snippets and confidences, and its terms, all in the same order. -/
structure Analysis.Keeps (s s' : List Char) (a a' : Analysis) : Prop where
  findings : a.findings.filter (·.category ≠ overflowCategory) <+: a'.findings.filter
    (·.category ≠ overflowCategory)
  defiTerms : (a.characteristics s).defiTerms.Sublist (a'.characteristics s').defiTerms
  bridgeTerms : (a.characteristics s).bridgeTerms.Sublist (a'.characteristics s').bridgeTerms
  mevTerms : (a.characteristics s).mevTerms.Sublist (a'.characteristics s').mevTerms
  isDefi : (a.characteristics s).isDefi → (a'.characteristics s').isDefi
  isCrossChain : (a.characteristics s).isCrossChain → (a'.characteristics s').isCrossChain

private theorem not_isEmpty_of_sublist {α : Type} {l l' : List α} (kept : l.Sublist l')
    (filled : !l.isEmpty) : !l'.isEmpty := by
  cases l' with
  | nil => simp [List.sublist_nil.mp kept] at filled
  | cons => rfl

private theorem findingsOf_ofSource {s : List Char} (filled : isAllBlank s = false) :
    analyze s = .ok (.ofSource s) ∧ (Analysis.ofSource s).findings = findingsOf s := by
  have analysed : analyze s = .ok (.ofSource s) := by
    rw [analyze, filled]
    rfl
  refine ⟨analysed, ?_⟩
  rw [findingsOf, analysed]

/-- Code behind a source that ends with its last line hides nothing that the analysis of the source
has found. Findings about overflows stay too unless a version requirement in the code tells
otherwise of the arithmetic. -/
theorem analyze_append_keeps (s later : List Char) (ended : s.getLast? = some '\n') (a : Analysis)
    (analysed : analyze s = .ok a) :
    ∃ a', analyze (s ++ later) = .ok a' ∧ a.Keeps s (s ++ later) a' ∧
      (pinsChecked (s ++ later) = pinsChecked s → a.findings <+: a'.findings) := by
  have filled : isAllBlank s = false := by
    by_contra blank
    rw [analyze, if_pos (Bool.of_not_eq_false blank)] at analysed
    cases analysed
  have filled' : isAllBlank (s ++ later) = false := by
    rw [isAllBlank, List.all_append, ← isAllBlank, filled, Bool.false_and]
  obtain ⟨analysed', found'⟩ := findingsOf_ofSource filled'
  obtain ⟨own, found⟩ := findingsOf_ofSource filled
  obtain rfl : Analysis.ofSource s = a := Except.ok.inj (own.symm.trans analysed)
  have words := identifierWords_subset (.inr ended) later
  refine ⟨_, analysed', ⟨?_, ?_, ?_, ?_, ?_, ?_⟩, ?_⟩
  · rw [found, found']
    exact findingsOf_filter_prefix (.inr ended) later
  · exact termsOf_sublist defiVocabulary words
  · exact termsOf_sublist bridgeVocabulary words
  · exact termsOf_sublist mevVocabulary words
  · exact not_isEmpty_of_sublist (termsOf_sublist defiVocabulary words)
  · exact not_isEmpty_of_sublist (termsOf_sublist bridgeVocabulary words)
  · intro same
    rw [found, found']
    exact findingsOf_prefix (.inr ended) later same

/-- A vault with a destructor, whose last line ends in an open comment. -/
def openVault : List Char :=
  "contract Vault \x7b\n  function kill() external \x7b selfdestruct(owner); \x7d /* it's\n".toList

/-- The comment is closed behind the vault, and the destructor is found all the same. -/
theorem analyze_append_keeps_openVault :
    openVault.getLast? = some '\n' ∧ ∃ a a', analyze openVault = .ok a ∧
      analyze (openVault ++ "*/ \x7d // /*".toList) = .ok a' ∧
      a.Keeps openVault (openVault ++ "*/ \x7d // /*".toList) a' ∧
      (a.characteristics openVault).defiTerms = ["vault"] ∧
      a.findings.map (·.category) = ["access-control", "selfdestruct"] ∧
        a.findings <+: a'.findings := by
  have ended : openVault.getLast? = some '\n' := by decide
  have filled : isAllBlank openVault = false := by decide
  have terms : ((Analysis.ofSource openVault).characteristics openVault).defiTerms = ["vault"] := by
    decide
  have found : (Analysis.ofSource openVault).findings.map (·.category) =
      ["access-control", "selfdestruct"] := by
    decide
  have same : pinsChecked (openVault ++ "*/ \x7d // /*".toList) = pinsChecked openVault := by decide
  obtain ⟨analysed, -⟩ := findingsOf_ofSource filled
  obtain ⟨a', analysed', keeps, all⟩ :=
    analyze_append_keeps openVault "*/ \x7d // /*".toList ended _ analysed
  exact ⟨ended, _, a', analysed, analysed', keeps, terms, found, all same⟩

end AuditPanel.Source
