import AuditPanel.Proofs.Source.Layout
import AuditPanel.Proofs.Source.Noninterference

/-!
What the static findings show. The text in which rules are looked for has the lines of the source,
and a finding on one of them shows that line of the source.
-/

set_option autoImplicit false

namespace AuditPanel.Source

open AuditPanel.Text

/-- For each line of the text of the code, as far as this counts, whether it lies in an unchecked
block. -/
def insideOf (s : List Char) : List Bool :=
  if pinsChecked s then uncheckedLines (lines (codeOnly s)) else []

theorem filter_findingsOf {s code : List Char} {n : Nat}
    (place : (lines (codeOnly s))[n]? = some code) :
    ∃ line, (lines s)[n]? = some line ∧ (findingsOf s).filter (·.affectedLines = [n + 1]) =
      lineFindings (appliesIn (pinsChecked s) ((insideOf s)[n]?.getD false)) (n + 1) code
        (trim line) := by
  have listed : n < (lines s).length := by
    rw [(keepsLayout_codeOnly s).length_lines]
    exact (List.getElem?_eq_some_iff.mp place).1
  refine ⟨(lines s)[n], List.getElem?_eq_getElem listed, ?_⟩
  have found := filter_scanFrom (pinsChecked s) 1 (lines s) (insideOf s) place
  rw [Nat.add_comm 1 n, List.getElem?_eq_getElem listed, Option.getD_some] at found
  rw [findingsOf_eq]
  exact found

private theorem exists_line_of_mem_findingsOf {s : List Char} {f : Finding}
    (member : f ∈ findingsOf s) :
    ∃ n code, (lines (codeOnly s))[n]? = some code ∧ f.affectedLines = [n + 1] := by
  rw [findingsOf_eq] at member
  obtain ⟨n, code, place, line⟩ := exists_line_of_mem_scanFrom _ member
  exact ⟨n, code, place, by rw [line, Nat.add_comm]⟩

/-- A finding about one line of a source, which it shows without the blanks around it: a rule fits
the code of the line and has given the finding its severity. -/
structure PointsInto (s : List Char) (f : Finding) : Prop where
  line : ∃ n line code, f.affectedLines = [n] ∧ 1 ≤ n ∧ n ≤ (lines s).length ∧
    (lines s)[n - 1]? = some line ∧ f.codeSnippet = String.ofList (trim line) ∧
    (lines (codeOnly s))[n - 1]? = some code ∧
    ∃ r ∈ ruleTable, r.category = f.category ∧ r.hit? code = some f.confidence
  severity : categorySeverity? f.category = some f.severity
  sources : f.detectedBy = [staticSource]

private theorem categorySeverity?_of_mem {r : Rule} (member : r ∈ ruleTable) :
    categorySeverity? r.category = some r.severity := by
  have own : ∀ r ∈ ruleTable, categorySeverity? r.category = some r.severity := by decide
  exact own r member

private theorem pointsInto_of_mem_findingsOf {s : List Char} {f : Finding}
    (member : f ∈ findingsOf s) : PointsInto s f := by
  obtain ⟨n, code, place, number⟩ := exists_line_of_mem_findingsOf member
  obtain ⟨line, shown, found⟩ := filter_findingsOf place
  have listed : f ∈ (findingsOf s).filter (·.affectedLines = [n + 1]) :=
    List.mem_filter.mpr ⟨member, by simpa using number⟩
  rw [found] at listed
  obtain ⟨r, rule, c, -, hit, rfl⟩ := mem_lineFindings _ _ _ _ listed
  have bound := (List.getElem?_eq_some_iff.mp shown).1
  exact {
    line :=
      ⟨n + 1, line, code, rfl, Nat.le_add_left 1 n, bound, shown, rfl, place, r, rule, rfl, hit⟩
    severity := categorySeverity?_of_mem rule
    sources := rfl }

/-- Findings that point into a source, those of each line together, in the order of the lines and
then of the rules. -/
structure IsListing (s : List Char) (fs : List Finding) : Prop where
  points : ∀ f ∈ fs, PointsInto s f
  ordered : fs.Pairwise Precedes
  distinct : (fs.map Finding.key).Nodup
  lineByLine : ∀ n code, (lines (codeOnly s))[n]? = some code →
    ∃ line, (lines s)[n]? = some line ∧ fs.filter (·.affectedLines = [n + 1]) =
      lineFindings (appliesIn (pinsChecked s) ((insideOf s)[n]?.getD false)) (n + 1) code
        (trim line)

/-- A source that is not blank has an analysis. Its text without comments and literals has the lines
of the source, and the findings are those of these lines, each of which is shown as it stands in the
source. -/
theorem analyze_findings_located (source : List Char) (filled : isAllBlank source = false) :
    ∃ a, analyze source = .ok a ∧ (lines (codeOnly source)).length = (lines source).length ∧
      IsListing source a.findings := by
  have analysed : analyze source = .ok (.ofSource source) := by
    rw [analyze, filled]
    rfl
  have findings : (Analysis.ofSource source).findings = findingsOf source := by
    rw [findingsOf, analysed]
  refine ⟨_, analysed, (keepsLayout_codeOnly source).length_lines.symm, ?_⟩
  rw [findings]
  exact {
    points := fun f => pointsInto_of_mem_findingsOf
    ordered := by
      rw [findingsOf_eq]
      exact scanFrom_pairwise _ _ _ _ _
    distinct := findings ▸ analyze_keys_nodup analysed
    lineByLine := fun n code => filter_findingsOf }

/-- A contract with a comment over two lines, a carriage return in it, and a comment at the end that
is not closed. -/
def annotated : List Char :=
  "contract A \x7b /* \"\r\n é */ function kill() public \x7b selfdestruct(a); \x7d\r\n\x7d /* now".toList

/-- The two findings about the destructor point to the second line. -/
theorem analyze_findings_located_annotated :
    isAllBlank annotated = false ∧ (findingsOf annotated).map (·.affectedLines) = [[2], [2]] ∧
      ∃ a, analyze annotated = .ok a ∧ (lines (codeOnly annotated)).length =
        (lines annotated).length ∧ IsListing annotated a.findings := by
  have filled : isAllBlank annotated = false := by decide
  exact ⟨filled, by decide, analyze_findings_located annotated filled⟩

end AuditPanel.Source
