import AuditPanel.Audit.Cache
import AuditPanel.Proofs.Digest
import Mathlib.Data.List.Basic

/-!
Which requests to a panel have one cache key. Key texts name their parts one behind the other with
null characters between them, but the source in front and the chain at the end may hold null
characters too. So the key text tells two requests apart, up to the case of the chain, unless the
source of one goes on with what the other's chain ends in.
-/

set_option autoImplicit false

namespace AuditPanel

def foldChain (chain : Option String) : Option (List Char) :=
  chain.map fun name => Text.toAsciiLower name.toList

/-- What a panel is asked: a source, the reviewers, the mode and the chain. -/
structure PanelRequest where
  source : String
  reviewers : List Reviewer
  mode : AnalysisMode
  chain : Option String
  deriving Repr, DecidableEq

namespace PanelRequest

variable {q q' : PanelRequest}

/-- The text that the cache key of a request is the digest of. -/
def keyText (q : PanelRequest) : String :=
  analysisKeyText q.source q.reviewers q.mode q.chain

def key (q : PanelRequest) : String :=
  analysisKey q.source q.reviewers q.mode q.chain

def foldedChain (q : PanelRequest) : Option (List Char) :=
  foldChain q.chain

/-- Requests that differ at most in the case of ASCII letters of the chain. -/
structure Same (q q' : PanelRequest) : Prop where
  source : q.source = q'.source
  reviewers : q.reviewers = q'.reviewers
  mode : q.mode = q'.mode
  chain : q.foldedChain = q'.foldedChain

/-- The names of reviewers, each with a comma behind it. -/
def namesText (reviewers : List Reviewer) : List Char :=
  reviewers.flatMap fun r => r.name.toList ++ [',']

/-- A chain with the mark of its presence. -/
def markedChain : Option (List Char) → List Char
  | some name => '\x01' :: name
  | none => []

/-- What stands in a key text between the source and the chain. -/
def panelText (q : PanelRequest) : List Char :=
  '\x00' :: (namesText q.reviewers ++ '\x00' :: (q.mode.name.toList ++ ['\x00']))

def restText (q : PanelRequest) : List Char :=
  q.panelText ++ markedChain q.foldedChain

/-- A request whose chain is a name `shown` and, behind it, all that stands behind the source of
another request, where that source is the key text of the first request up to `shown`. -/
def Swallows (q q' : PanelRequest) : Prop :=
  ∃ shown, q.foldedChain = some (shown ++ q'.restText) ∧
    q'.source.toList = q.source.toList ++ q.panelText ++ markedChain (some shown)

private theorem toList_keyText (q : PanelRequest) :
    q.keyText.toList = q.source.toList ++ q.restText := by
  have names : (String.join (q.reviewers.map fun r => r.name ++ ",")).toList =
      namesText q.reviewers := by
    simp [namesText, List.flatMap_def, List.map_map, Function.comp_def]
  cases given : q.chain with
  | none =>
    simp [keyText, analysisKeyText, restText, panelText, foldedChain, foldChain, markedChain,
      names, given]
  | some name =>
    simp [keyText, analysisKeyText, restText, panelText, foldedChain, foldChain, markedChain,
      names, given]

private theorem restText_eq (q : PanelRequest) :
    q.restText = '\x00' :: (namesText q.reviewers ++ '\x00' :: (q.mode.name.toList ++
      '\x00' :: markedChain q.foldedChain)) := by
  simp [restText, panelText]

private theorem comma_notMem_name (r : Reviewer) : ',' ∉ r.name.toList := by
  cases r <;> decide

private theorem toList_name_injective : Function.Injective fun r : Reviewer => r.name.toList := by
  intro r r'
  cases r <;> cases r' <;> decide

private theorem lt_of_mem_namesText {reviewers : List Reviewer} {c : Char}
    (h : c ∈ namesText reviewers) : '\x01' < c := by
  obtain ⟨r, -, mem⟩ := List.mem_flatMap.mp h
  have letters : (r.name.toList ++ [',']).all ('\x01' < ·) := by cases r <;> decide
  simpa using List.all_eq_true.mp letters c mem

private theorem null_notMem_namesText (reviewers : List Reviewer) : '\x00' ∉ namesText reviewers :=
  fun mem => absurd (lt_of_mem_namesText mem) (by decide)

private theorem null_notMem_mode (m : AnalysisMode) : '\x00' ∉ m.name.toList := by
  cases m <;> decide

private theorem mode_injective : Function.Injective fun m : AnalysisMode => m.name.toList := by
  intro m m'
  cases m <;> cases m' <;> decide

private theorem markedChain_injective : Function.Injective markedChain := by
  intro c c'
  cases c <;> cases c' <;> simp [markedChain]

private theorem namesText_ne_mode (reviewers : List Reviewer) (m : AnalysisMode) :
    namesText reviewers ≠ m.name.toList := by
  intro same
  have comma : ',' ∉ m.name.toList := by cases m <;> decide
  cases reviewers with
  | nil => cases m <;> simp [namesText, AnalysisMode.name] at same
  | cons r rs => simp [← same, namesText] at comma

private theorem namesText_append_ne_markedChain (reviewers : List Reviewer) (rest : List Char)
    (c : Option (List Char)) :
    namesText reviewers ++ '\x00' :: rest ≠ markedChain c := by
  intro same
  cases c with
  | none => simp [markedChain] at same
  | some name =>
    cases names : namesText reviewers with
    | nil => simp [names, markedChain] at same
    | cons first others =>
      have large := lt_of_mem_namesText (names ▸ List.mem_cons_self : first ∈ namesText reviewers)
      simp only [names, markedChain, List.cons_append, List.cons.injEq] at same
      simp [same.1] at large

section Cut

variable {a : Char} {x y u v : List Char}

private theorem cut_of_append_cons_eq (first : a ∉ x) (same : x ++ a :: u = y ++ a :: v) :
    (y = x ∧ v = u) ∨ ∃ z, y = x ++ a :: z ∧ u = z ++ a :: v := by
  rcases List.append_eq_append_iff.mp same with ⟨w, rfl, tail⟩ | ⟨w, rfl, tail⟩
  · cases w with
    | nil => simp_all
    | cons c w =>
      obtain ⟨rfl, rfl⟩ := List.cons.inj tail
      exact .inr ⟨w, rfl, rfl⟩
  · cases w with
    | nil => simp_all
    | cons c w => simp_all

private theorem eq_of_append_cons_eq (first : a ∉ x) (first' : a ∉ y)
    (same : x ++ a :: u = y ++ a :: v) : x = y ∧ u = v := by
  rcases cut_of_append_cons_eq first same with ⟨rfl, rfl⟩ | ⟨z, rfl, -⟩
  · exact ⟨rfl, rfl⟩
  · simp at first'

end Cut

private theorem namesText_injective : Function.Injective namesText := by
  intro rs
  induction rs with
  | nil =>
    intro rs' same
    cases rs' with
    | nil => rfl
    | cons r' rs' => simp [namesText] at same
  | cons r rs ih =>
    intro rs' same
    cases rs' with
    | nil => simp [namesText] at same
    | cons r' rs' =>
      simp only [namesText, List.flatMap_cons, List.append_assoc, List.singleton_append] at same
      obtain ⟨first, others⟩ :=
        eq_of_append_cons_eq (comma_notMem_name r) (comma_notMem_name r') same
      rw [toList_name_injective first, ih others]

private theorem restText_inj (same : q.restText = q'.restText) :
    q.reviewers = q'.reviewers ∧ q.mode = q'.mode ∧ q.foldedChain = q'.foldedChain := by
  rw [restText_eq, restText_eq, List.cons.injEq] at same
  obtain ⟨names, same⟩ :=
    eq_of_append_cons_eq (null_notMem_namesText _) (null_notMem_namesText _) same.2
  obtain ⟨mode, chain⟩ := eq_of_append_cons_eq (null_notMem_mode _) (null_notMem_mode _) same
  exact ⟨namesText_injective names, mode_injective mode, markedChain_injective chain⟩

private theorem cut_restText {w : List Char} (same : q.restText = w ++ q'.restText) :
    w = [] ∨ ∃ shown, q.foldedChain = some (shown ++ q'.restText) ∧
      w = q.panelText ++ markedChain (some shown) := by
  rw [restText_eq q, restText_eq q'] at same
  -- The other text starts with a null character, so the cut is at the source's end, the names', the
  -- mode's or later.
  rcases cut_of_append_cons_eq (x := []) List.not_mem_nil same with ⟨rfl, -⟩ | ⟨w, rfl, names⟩
  · exact .inl rfl
  rcases cut_of_append_cons_eq (null_notMem_namesText _) names with ⟨-, cut⟩ | ⟨w, rfl, mode⟩
  · have both := eq_of_append_cons_eq (null_notMem_namesText _) (null_notMem_mode _) cut
    exact absurd both.1 (namesText_ne_mode _ _)
  rcases cut_of_append_cons_eq (null_notMem_mode _) mode with ⟨-, cut⟩ | ⟨w, rfl, marked⟩
  · exact absurd cut (namesText_append_ne_markedChain _ _ _)
  cases chain : q.foldedChain with
  | none => simp [chain, markedChain] at marked
  | some name =>
    cases w with
    | nil => simp [chain, markedChain] at marked
    | cons mark shown =>
      rw [chain, markedChain, List.cons_append, List.cons.injEq] at marked
      obtain ⟨rfl, rfl⟩ := marked
      exact .inr ⟨shown, by rw [restText_eq], by simp [panelText, markedChain]⟩

private theorem same_or_swallows {w : List Char} (source : q'.source.toList = q.source.toList ++ w)
    (rest : q.restText = w ++ q'.restText) : q.Same q' ∨ q.Swallows q' := by
  rcases cut_restText rest with rfl | ⟨shown, chain, rfl⟩
  · obtain ⟨reviewers, mode, chain⟩ := restText_inj rest
    rw [List.append_nil, String.toList_inj] at source
    exact .inl ⟨source.symm, reviewers, mode, chain⟩
  · exact .inr ⟨shown, chain, by rw [source, List.append_assoc]⟩

theorem Same.symm (h : q.Same q') : q'.Same q :=
  ⟨h.source.symm, h.reviewers.symm, h.mode.symm, h.chain.symm⟩

private theorem Same.keyText_eq (h : q.Same q') : q.keyText = q'.keyText := by
  rw [← String.toList_inj, toList_keyText, toList_keyText, restText_eq, restText_eq, h.source,
    h.reviewers, h.mode, h.chain]

private theorem Swallows.keyText_eq (h : q.Swallows q') : q.keyText = q'.keyText := by
  obtain ⟨shown, chain, source⟩ := h
  rw [← String.toList_inj, toList_keyText, toList_keyText, source, restText, chain]
  simp [markedChain]

private theorem keyText_eq_iff :
    q.keyText = q'.keyText ↔ q.Same q' ∨ q.Swallows q' ∨ q'.Swallows q := by
  constructor
  · intro same
    rw [← String.toList_inj, toList_keyText, toList_keyText] at same
    rcases List.append_eq_append_iff.mp same with ⟨w, source, rest⟩ | ⟨w, source, rest⟩
    · exact (same_or_swallows source rest).imp_right .inl
    · exact (same_or_swallows source rest).imp Same.symm .inr
  · rintro (same | swallows | swallows)
    · exact same.keyText_eq
    · exact swallows.keyText_eq
    · exact swallows.keyText_eq.symm

private theorem Swallows.null_mem (h : q.Swallows q') : '\x00' ∈ q'.source.toList := by
  obtain ⟨shown, -, source⟩ := h
  simp [source, panelText]

theorem key_eq (q : PanelRequest) : q.key = Digest.hex q.keyText.toUTF8 :=
  rfl

theorem Same.key_eq (h : q.Same q') : q.key = q'.key := by
  rw [q.key_eq, q'.key_eq, h.keyText_eq]

section Digests

variable (noCollision : Digest.sha256 q.keyText.toUTF8 = Digest.sha256 q'.keyText.toUTF8 →
  q.keyText.toUTF8 = q'.keyText.toUTF8)
include noCollision

private theorem keyText_eq_of_key_eq (same : q.key = q'.key) : q.keyText = q'.keyText := by
  rw [key_eq, key_eq, Digest.hex_eq_hex_iff] at same
  exact String.toByteArray_inj.mp (noCollision same)

theorem key_eq_iff_same (plain : '\x00' ∉ q.source.toList) (plain' : '\x00' ∉ q'.source.toList) :
    q.key = q'.key ↔ q.Same q' := by
  constructor
  · intro same
    rcases keyText_eq_iff.mp (keyText_eq_of_key_eq noCollision same) with same | swallows | swallows
    · exact same
    · exact absurd swallows.null_mem plain'
    · exact absurd swallows.null_mem plain
  · exact Same.key_eq

/-- Where the two key texts are no collision of the digest, requests have one key exactly when they
are the same up to the case of the chain, or the source of one goes on with what the other's chain
ends in. -/
theorem key_eq_iff : q.key = q'.key ↔ q.Same q' ∨ q.Swallows q' ∨ q'.Swallows q := by
  rw [← keyText_eq_iff]
  constructor
  · exact keyText_eq_of_key_eq noCollision
  · intro same
    rw [q.key_eq, q'.key_eq, same]

end Digests

/-- Two spellings of the chain have one key text, and so one key. -/
theorem key_eq_iff_capitalized :
    let q : PanelRequest := ⟨"contract A \x7b\x7d", [.security, .mev], .deep, some "Ethereum"⟩
    let respelled : PanelRequest :=
      ⟨"contract A \x7b\x7d", [.security, .mev], .deep, some "ethereum"⟩
    q.keyText.toUTF8 = respelled.keyText.toUTF8 ∧ q.Same respelled ∧ q.key = respelled.key := by
  intro q respelled
  have same : q.Same respelled := ⟨rfl, rfl, rfl, by decide⟩
  have text : q.keyText.toUTF8 = respelled.keyText.toUTF8 := by rw [same.keyText_eq]
  exact ⟨text, same, (key_eq_iff fun _ => text).mpr (.inl same)⟩

/-- A short source with null characters in the chain and a longer source without a chain have one
key text, and so one key. -/
theorem key_eq_key_of_null_characters :
    let q : PanelRequest :=
      ⟨"contract A \x7b\x7d", [.security], .fast, some "x\x00security,\x00fast\x00"⟩
    let q' : PanelRequest :=
      ⟨"contract A \x7b\x7d\x00security,\x00fast\x00\x01x", [.security], .fast, none⟩
    q.keyText.toUTF8 = q'.keyText.toUTF8 ∧ q.key = q'.key ∧ ¬ q.Same q' := by
  intro q q'
  have text : q.keyText = q'.keyText := by decide
  have sources : q.source ≠ q'.source := by decide
  exact ⟨by rw [text], by rw [key_eq, key_eq, text], fun same => sources same.source⟩

end PanelRequest

end AuditPanel
