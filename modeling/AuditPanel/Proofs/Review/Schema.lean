import AuditPanel.Proofs.Consensus.Taxonomy
import AuditPanel.Proofs.Ordered
import AuditPanel.Review.Reply
import Mathlib.Data.List.DropRight

/-!
What every report read out of an answer satisfies, whatever the answer is. Texts are trimmed, not
blank and within their limits; a finding has its reviewer as the only source, so no answer can pass
for the static scanner.
-/

set_option autoImplicit false

namespace AuditPanel

namespace Text

private theorem trimEnd_prefix (s : List Char) : trimEnd s <+: s :=
  List.rdropWhile_prefix isBlank s

private theorem isBlank_of_trim_eq_cons {s rest : List Char} {c : Char} (h : trim s = c :: rest) :
    isBlank c = false := by
  have front : c :: rest <+: trimStart s := h ▸ trimEnd_prefix (trimStart s)
  obtain ⟨after, same⟩ := front
  have first := List.head?_dropWhile_not isBlank s
  rw [show s.dropWhile isBlank = c :: (rest ++ after) from same.symm] at first
  exact first

end Text

namespace Review

open Text

/-- A text of at most `limit` characters that is not blank. -/
def IsText (limit : Nat) (t : String) : Prop :=
  isAllBlank t.toList = false ∧ t.length ≤ limit

instance (limit : Nat) (t : String) : Decidable (IsText limit t) :=
  inferInstanceAs (Decidable (_ ∧ _))

variable {limit : Nat} {t : String} {v : Json} {members : Members}

/-- What is left of a text after trimming and cutting still starts with the character it started
with. -/
private theorem isText_of_text? (positive : 0 < limit) (h : text? limit v = some t) :
    IsText limit t := by
  unfold text? at h
  split at h
  · cases h
  · next s _ =>
    dsimp only at h
    cases trimmed : trim s.toList with
    | nil => simp [trimmed] at h
    | cons c rest =>
      have solid := isBlank_of_trim_eq_cons trimmed
      obtain ⟨room, rfl⟩ := Nat.exists_eq_succ_of_ne_zero (Nat.ne_of_gt positive)
      simp only [trimmed, List.isEmpty_cons, Bool.false_eq_true, if_false, Option.some.injEq] at h
      subst h
      constructor
      · simp [truncate, isAllBlank, solid]
      · simp only [truncate, String.length_ofList]
        exact List.length_take_le _ _

private theorem isText_textOr {default : String} {names : List String} (positive : 0 < limit)
    (given : IsText limit default) :
    IsText limit (textOr default limit members names) := by
  unfold textOr
  cases found : (field members names).bind (text? limit) with
  | none => exact given
  | some t =>
    obtain ⟨v, -, read⟩ := Option.bind_eq_some_iff.mp found
    exact isText_of_text? positive read

private theorem length_textOr_le {default : String} {names : List String} (positive : 0 < limit)
    (given : default.length ≤ limit) : (textOr default limit members names).length ≤ limit := by
  unfold textOr
  cases found : (field members names).bind (text? limit) with
  | none => exact given
  | some t =>
    obtain ⟨v, -, read⟩ := Option.bind_eq_some_iff.mp found
    exact (isText_of_text? positive read).2

private theorem isText_of_item? (h : item? v = some t) : IsText itemLimit t := by
  have positive : 0 < itemLimit := by decide
  unfold item? at h
  split at h
  · obtain ⟨w, -, read⟩ := Option.bind_eq_some_iff.mp h
    exact isText_of_text? positive read
  · exact isText_of_text? positive h

private theorem isText_of_mem_stringList {value : Option Json} (h : t ∈ stringList value) :
    IsText itemLimit t := by
  unfold stringList at h
  split at h
  · cases h
  · obtain ⟨v, -, read⟩ := List.mem_filterMap.mp h
    exact isText_of_item? read
  · exact isText_of_item? (Option.mem_toList.mp h)

private theorem isText_of_mem_notes {value : Option Json} (h : t ∈ (qualityOf value).notes) :
    IsText itemLimit t := by
  unfold qualityOf at h
  split at h
  · next members =>
    change t ∈ stringList (field members _) at h
    exact isText_of_mem_stringList h
  · next items =>
    change t ∈ stringList (some (.array items)) at h
    exact isText_of_mem_stringList h
  · cases h
  · cases h
  · cases h

section Lines

variable {n a b : Nat}

private theorem lt_of_lineNumber? {s : List Char} (h : lineNumber? s = some n) : n < lineBound := by
  simp only [lineNumber?, Option.ite_none_left_eq_some, Option.ite_none_right_eq_some,
    Option.some.injEq] at h
  obtain ⟨-, below, same⟩ := h
  rwa [← same]

private theorem mem_interval : n ∈ interval a b ↔ a ≤ n ∧ n ≤ b := by
  simp only [interval, List.mem_map, List.mem_range]
  constructor
  · rintro ⟨k, inside, rfl⟩
    omega
  · rintro ⟨low, high⟩
    exact ⟨n - a, by omega, by omega⟩

private theorem bounds_of_mem_tokenLines {token : List Char} (h : n ∈ tokenLines token) :
    0 < n ∧ n < lineBound := by
  unfold tokenLines at h
  dsimp only at h
  split at h
  · split at h
    · next first last _ _ =>
      split at h
      · next range =>
        rw [mem_interval] at h
        have bound : 0 < lineBound := by decide
        omega
      · cases h
    · cases h
  · split at h
    · next number =>
      split at h
      · next positive =>
        rw [List.mem_singleton] at h
        subst h
        exact ⟨positive, lt_of_lineNumber? number⟩
      · cases h
    · cases h

mutual

private theorem bounds_of_mem_collectLines (out : List Nat) (v : Json)
    (h : n ∈ collectLines out v) :
    n ∈ out ∨ (0 < n ∧ n < lineBound) := by
  cases v with
  | integer m =>
    simp only [collectLines] at h
    split at h
    · next range =>
      rcases List.mem_cons.mp h with rfl | old
      · exact .inr ⟨by omega, range.2⟩
      · exact .inl old
    · exact .inl h
  | string s =>
    simp only [collectLines, textLines, List.mem_append, List.mem_flatMap] at h
    rcases h with ⟨token, -, named⟩ | old
    · exact .inr (bounds_of_mem_tokenLines named)
    · exact .inl old
  | array items =>
    simp only [collectLines] at h
    exact bounds_of_mem_collectAll out items h
  | null => exact .inl h
  | bool b => exact .inl h
  | real x => exact .inl h
  | object members => exact .inl h

private theorem bounds_of_mem_collectAll (out : List Nat) (items : List Json)
    (h : n ∈ collectAll out items) :
    n ∈ out ∨ (0 < n ∧ n < lineBound) := by
  cases items with
  | nil => exact .inl h
  | cons v rest =>
    simp only [collectAll] at h
    rcases bounds_of_mem_collectAll (collectLines out v) rest h with earlier | bounds
    · exact bounds_of_mem_collectLines out v earlier
    · exact .inr bounds

end

theorem bounds_of_mem_linesOf {value : Option Json} (h : n ∈ linesOf value) :
    0 < n ∧ n < lineBound := by
  unfold linesOf at h
  split at h
  · cases h
  · next v =>
    rw [Ordered.mem_nats] at h
    exact (bounds_of_mem_collectLines [] v h).resolve_left nofun

end Lines

end Review

open Review (IsText)

/-- A finding as it is read out of the answer of a reviewer. -/
structure Finding.IsNormalized (r : Reviewer) (f : Finding) : Prop where
  sources : f.detectedBy = [r.name]
  name : IsText 500 f.name
  description : IsText 2000 f.description
  recommendation : IsText 2000 f.recommendation
  impact : IsText 2000 f.impact
  codeSnippet : f.codeSnippet.length ≤ 2000
  category : f.category ≠ ""
  lines : ∀ n ∈ f.affectedLines, 1 ≤ n
  consensus : f.consensus = 0.0
  finalConfidence : f.finalConfidence = 0.0
  foreign : f.isStatic = false

/-- A report as it is read out of the answer of a reviewer. -/
structure Review.IsNormalized (r : Reviewer) (a : Review) : Prop where
  reviewer : a.reviewer = r
  summary : IsText 1000 a.summary
  findings : ∀ f ∈ a.findings, f.IsNormalized r
  recommendations : ∀ t ∈ a.recommendations, IsText 500 t
  gasOptimizations : ∀ t ∈ a.gasOptimizations, IsText 500 t
  notes : ∀ t ∈ a.codeQuality.notes, IsText 500 t

namespace Review

private theorem findingOf_isNormalized (r : Reviewer) (members : Members) :
    (findingOf r members).IsNormalized r where
  sources := rfl
  name := isText_textOr (by decide) (by decide)
  description := isText_textOr (by decide) (by decide)
  recommendation := isText_textOr (by decide) (by decide)
  impact := isText_textOr (by decide) (by decide)
  codeSnippet := length_textOr_le (by decide) (by decide)
  category := by
    show (((field members ["category", "type"]).bind Json.asString?).map Taxonomy.canonicalize).getD
      _ ≠ ""
    cases (field members ["category", "type"]).bind Json.asString? with
    | none => decide
    | some raw => exact Taxonomy.canonicalize_ne_empty raw
  lines n member := (bounds_of_mem_linesOf member).1
  consensus := rfl
  finalConfidence := rfl
  foreign := by cases r <;> rfl

private theorem ofMembers_isNormalized (r : Reviewer) (members : Members) :
    (ofMembers r members).IsNormalized r where
  reviewer := rfl
  summary := by
    refine isText_textOr (by decide) ?_
    cases r <;> decide
  findings f member := by
    change f ∈ findingsOf r _ at member
    unfold findingsOf at member
    split at member
    · obtain ⟨own, -, rfl⟩ := List.mem_map.mp member
      exact findingOf_isNormalized r own
    · cases member
  recommendations t member := isText_of_mem_stringList member
  gasOptimizations t member := isText_of_mem_stringList member
  notes t member := isText_of_mem_notes member

private theorem neutral_isNormalized (r : Reviewer) : (neutral r).IsNormalized r where
  reviewer := rfl
  summary := by cases r <;> decide
  findings := nofun
  recommendations := nofun
  gasOptimizations := nofun
  notes := nofun

/-- Every answer is read into a report within the limits, all of whose findings name their reviewer
and nobody else. -/
theorem normalize_isNormalized (raw : List Char) (r : Reviewer) :
    (normalize raw r).IsNormalized r := by
  unfold normalize
  split
  · exact ofMembers_isNormalized r _
  · exact neutral_isNormalized r

example : (findingOf .defi [("detectedBy", .array [.string "static"])]).detectedBy = ["defi"] := rfl

end Review

end AuditPanel
