import AuditPanel.Proofs.Source.Blanking
import AuditPanel.Proofs.Source.RuleScan
import AuditPanel.Proofs.Text.Lines

/-!
What the static findings depend on. Apart from their snippets they are those of the text whose
comments and literal contents are blank, as long as the version requirement is one of that text. A
literal that holds a version requirement is taken for one, and hides findings about overflows.
-/

set_option autoImplicit false

namespace AuditPanel

def Finding.withoutSnippet (f : Finding) : Finding :=
  { f with codeSnippet := "" }

namespace Source

open AuditPanel.Text

/-- The static findings of a source; a blank one has none. -/
def findingsOf (s : List Char) : List Finding :=
  match analyze s with
  | .ok a => a.findings
  | .error _ => []

/-- Whether the version requirement found in a source pins a compiler with checked arithmetic. -/
def pinsChecked (s : List Char) : Bool :=
  (extract (blankComments s)).hasCheckedArithmetic

/-- The version requirement found in a source is the one of its code. -/
def RequiresInCode (s : List Char) : Prop :=
  pragma? (blankComments s) = pragma? (codeOnly s)

instance (s : List Char) : Decidable (RequiresInCode s) :=
  inferInstanceAs (Decidable (_ = _))

private theorem appliesIn_of_ne {r : Rule} (other : r.category ≠ overflowCategory)
    (checked inside : Bool) :
    appliesIn checked inside r = true := by
  simp [appliesIn, beq_eq_false_iff_ne.mpr other]

section Line

variable {applies applies' : Rule → Bool} (number : Nat) (line snippet : List Char)

private theorem lineFindings_withoutSnippet (applies : Rule → Bool) :
    (lineFindings applies number line snippet).map Finding.withoutSnippet =
      lineFindings applies number line [] := by
  unfold lineFindings
  split
  · rfl
  · rw [List.map_filterMap]
    refine List.filterMap_congr ?_
    intro r _
    split
    · cases r.hit? line <;> rfl
    · rfl

private theorem lineFindings_sublist (applied : ∀ r, applies r → applies' r) :
    (lineFindings applies number line snippet).Sublist
      (lineFindings applies' number line snippet) := by
  have narrowed (p : Rule → Bool) (f : Rule → Option Finding) :
      ruleTable.filterMap (fun r => if p r then f r else none) =
        (ruleTable.filter p).filterMap f := by
    rw [List.filterMap_filter]
  unfold lineFindings
  split
  · exact List.Sublist.refl _
  · rw [narrowed, narrowed]
    exact (List.monotone_filter_right ruleTable applied).filterMap _

private theorem lineFindings_filter
    (agree : ∀ r, r.category ≠ overflowCategory → applies r = applies' r) :
    (lineFindings applies number line snippet).filter (·.category ≠ overflowCategory) =
      (lineFindings applies' number line snippet).filter (·.category ≠ overflowCategory) := by
  unfold lineFindings
  split
  · rfl
  · rw [List.filter_filterMap, List.filter_filterMap]
    refine List.filterMap_congr ?_
    intro r _
    by_cases overflow : r.category = overflowCategory
    · have gone (on : Bool) :
        (if on then (r.hit? line).map fun c => r.finding c number snippet else none).filter
          (·.category ≠ overflowCategory) = none := by
        cases on <;> cases r.hit? line <;> simp [Rule.finding, overflow]
      rw [gone, gone]
    · rw [agree r overflow]

end Line

section Lines

variable (checked checked' : Bool) (number : Nat) (raw raw' : List (List Char))
  (inside inside' : List Bool) (ls : List (List Char))

private theorem scanFrom_cons_withoutSnippet (line : List Char) :
    (scanFrom checked number raw inside (line :: ls) []).map Finding.withoutSnippet =
      lineFindings (appliesIn checked (inside.headD false)) number line [] ++
        (scanFrom checked (number + 1) raw.tail inside.tail ls []).map Finding.withoutSnippet := by
  rw [scanFrom_cons, List.map_append, lineFindings_withoutSnippet]

private theorem scanFrom_withoutSnippet :
    (scanFrom checked number raw inside ls []).map Finding.withoutSnippet =
      (scanFrom checked number raw' inside ls []).map Finding.withoutSnippet := by
  induction ls generalizing number raw raw' inside with
  | nil => rfl
  | cons line ls ih =>
    rw [scanFrom_cons_withoutSnippet, scanFrom_cons_withoutSnippet,
      ih (number + 1) raw.tail raw'.tail inside.tail]

theorem scanFrom_filter_shown :
    (scanFrom checked number raw inside ls []).filter (·.category ≠ overflowCategory) =
      (scanFrom checked' number raw inside' ls []).filter (·.category ≠ overflowCategory) := by
  induction ls generalizing number raw inside inside' with
  | nil => rfl
  | cons line ls ih =>
    have agree (r : Rule) (other : r.category ≠ overflowCategory) :
        appliesIn checked (inside.headD false) r = appliesIn checked' (inside'.headD false) r := by
      rw [appliesIn_of_ne other, appliesIn_of_ne other]
    have here := lineFindings_filter number line (trim (raw.headD line)) agree
    rw [scanFrom_cons, scanFrom_cons, List.filter_append, List.filter_append, here,
      ih (number + 1) raw.tail inside.tail inside'.tail]

private theorem scanFrom_filter :
    ((scanFrom checked number raw inside ls []).map Finding.withoutSnippet).filter
      (·.category ≠ overflowCategory) =
      ((scanFrom checked' number raw' inside' ls []).map Finding.withoutSnippet).filter
        (·.category ≠ overflowCategory) := by
  rw [scanFrom_withoutSnippet checked number raw raw' inside ls, List.filter_map, List.filter_map]
  exact congrArg _ (scanFrom_filter_shown checked checked' number raw' inside inside' ls)

private theorem scanFrom_sublist :
    ((scanFrom checked number raw inside ls []).map Finding.withoutSnippet).Sublist
      ((scanFrom false number raw' inside' ls []).map Finding.withoutSnippet) := by
  induction ls generalizing number raw raw' inside inside' with
  | nil => exact List.Sublist.refl _
  | cons line ls ih =>
    rw [scanFrom_cons_withoutSnippet, scanFrom_cons_withoutSnippet]
    refine List.Sublist.append ?_ (ih (number + 1) raw.tail raw'.tail inside.tail inside'.tail)
    refine lineFindings_sublist number line [] ?_
    intro r _
    simp [appliesIn]

end Lines

section Blank

variable {s : List Char}

private theorem written_of_isAllBlank (blank : isAllBlank s) : written s = s.map Written.code := by
  induction s with
  | nil => simp [written, writtenFrom]
  | cons c s ih =>
    simp only [isAllBlank, List.all_cons, Bool.and_eq_true] at blank ih
    have slash : c ≠ '/' := by
      rintro rfl
      exact absurd blank.1 (by decide)
    have quote : isQuote c = false := by
      cases quote : isQuote c with
      | false => rfl
      | true =>
        simp only [isQuote, Bool.or_eq_true, beq_iff_eq] at quote
        rcases quote with rfl | rfl <;> exact absurd blank.1 (by decide)
    have later := ih blank.2
    rw [written] at later
    simp [written, writtenFrom, slash, quote, later]

private theorem codeOnly_of_isAllBlank (blank : isAllBlank s) : codeOnly s = s := by
  have plain := written_of_isAllBlank blank
  have unbroken : Unbroken (written s) := by
    rw [plain]
    intro w member content
    obtain ⟨c, -, rfl⟩ := List.mem_map.mp member
    cases content
  rw [codeOnly_eq unbroken, plain, List.map_map]
  exact List.map_id s

private theorem isAllBlank_of_mem_lines {l : List Char} (blank : isAllBlank s)
    (line : l ∈ lines s) : isAllBlank l := by
  rw [isAllBlank, List.all_eq_true] at blank ⊢
  intro c member
  exact blank c (mem_of_mem_lines line member)

private theorem scanFrom_of_isAllBlank {checked : Bool} {number : Nat} {raw : List (List Char)}
    {inside : List Bool}
    {ls : List (List Char)} (blank : ∀ l ∈ ls, isAllBlank l) :
    scanFrom checked number raw inside ls [] = [] := by
  induction ls generalizing number raw inside with
  | nil => rfl
  | cons line ls ih =>
    rw [List.forall_mem_cons] at blank
    rw [scanFrom_cons, ih blank.2, lineFindings, if_pos blank.1, List.append_nil]

end Blank

theorem findingsOf_eq (s : List Char) : findingsOf s = scan s (codeOnly s) (pinsChecked s) := by
  unfold findingsOf analyze
  split
  · next a analysed =>
    split at analysed
    · cases analysed
    · cases analysed
      rfl
  · next e failed =>
    split at failed
    · next blank =>
      rw [codeOnly_of_isAllBlank blank]
      exact (scanFrom_of_isAllBlank fun l line => isAllBlank_of_mem_lines blank line).symm
    · cases failed

section Alike

variable {s s' : List Char} (same : codeOnly s = codeOnly s')
include same

private theorem findingsOf_withoutSnippet (pins : pinsChecked s = pinsChecked s') :
    (findingsOf s).map Finding.withoutSnippet = (findingsOf s').map Finding.withoutSnippet := by
  rw [findingsOf_eq, findingsOf_eq, same, pins]
  exact scanFrom_withoutSnippet _ _ _ _ _ _

private theorem pinsChecked_eq (required : RequiresInCode s) (required' : RequiresInCode s') :
    pinsChecked s = pinsChecked s' := by
  have requirement : pragma? (blankComments s) = pragma? (blankComments s') := by
    rw [required, same, ← required']
  simp only [pinsChecked, Declarations.hasCheckedArithmetic, extract, requirement]

end Alike

/-- Sources that differ only in comments and literals have the same findings apart from the
snippets, if their version requirements stand in the code or at least agree on checked arithmetic.
In any case they have the same findings about all but overflows, and a requirement of checked
arithmetic only takes findings away. -/
theorem findings_alike (s s' : List Char) (same : codeOnly s = codeOnly s') :
    (RequiresInCode s → RequiresInCode s' →
        (findingsOf s).map Finding.withoutSnippet = (findingsOf s').map Finding.withoutSnippet) ∧
      (pinsChecked s = pinsChecked s' →
        (findingsOf s).map Finding.withoutSnippet = (findingsOf s').map Finding.withoutSnippet) ∧
      ((findingsOf s).map Finding.withoutSnippet).filter (·.category ≠ overflowCategory) =
        ((findingsOf s').map Finding.withoutSnippet).filter (·.category ≠ overflowCategory) ∧
      (pinsChecked s' = false →
        ((findingsOf s).map Finding.withoutSnippet).Sublist
          ((findingsOf s').map Finding.withoutSnippet)) := by
  refine ⟨?_, findingsOf_withoutSnippet same, ?_, ?_⟩
  · intro required required'
    exact findingsOf_withoutSnippet same (pinsChecked_eq same required required')
  · rw [findingsOf_eq, findingsOf_eq, same]
    exact scanFrom_filter _ _ _ _ _ _ _ _
  · intro unchecked
    rw [findingsOf_eq, findingsOf_eq, same, unchecked]
    exact scanFrom_sublist _ _ _ _ _ _ _

/-- A contract for an early compiler with a literal, a comment and an addition. -/
def remarked : List Char :=
  "pragma solidity 0.7; contract A \x7b string s = \"tx.origin\"; // now\n function f() \x7b x += 1; \x7d \x7d".toList

/-- The same contract with another literal and another comment. -/
def reworded : List Char :=
  "pragma solidity 0.7; contract A \x7b string s = \"?;pragma \"; // '\"'\n function f() \x7b x += 1; \x7d \x7d".toList

/-- Both spellings have the finding about the addition. -/
theorem findings_alike_reworded :
    codeOnly remarked = codeOnly reworded ∧ RequiresInCode remarked ∧ RequiresInCode reworded ∧
      (findingsOf remarked).map (·.category) = [overflowCategory] ∧
      (findingsOf remarked).map Finding.withoutSnippet =
        (findingsOf reworded).map Finding.withoutSnippet := by
  have same : codeOnly remarked = codeOnly reworded := by decide
  have required : RequiresInCode remarked := by decide
  have required' : RequiresInCode reworded := by decide
  have found : (findingsOf remarked).map (·.category) = [overflowCategory] := by decide
  exact ⟨same, required, required', found, (findings_alike _ _ same).1 required required'⟩

/-- A contract with an addition and the given literal. -/
def lettered (literal : String) : List Char :=
  ("contract A \x7b\n  string s = \"" ++ literal ++
    "\";\n  function f() public \x7b x += 1; \x7d\n\x7d").toList

/-- A version requirement in a literal hides the finding about the addition. -/
theorem lettered_requirement_hides_overflow :
    codeOnly (lettered "pragma solidity 0.8;") = codeOnly (lettered "                    ") ∧
      (findingsOf (lettered "pragma solidity 0.8;")).map Finding.withoutSnippet ≠
        (findingsOf (lettered "                    ")).map Finding.withoutSnippet := by
  refine ⟨by decide, fun equal => ?_⟩
  have hidden : (findingsOf (lettered "pragma solidity 0.8;")).length = 0 := by decide
  have found : (findingsOf (lettered "                    ")).length = 1 := by decide
  have lengths := congrArg List.length equal
  rw [List.length_map, List.length_map, hidden, found] at lengths
  cases lengths

end Source

end AuditPanel
