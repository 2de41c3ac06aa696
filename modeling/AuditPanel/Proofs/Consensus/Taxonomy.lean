import AuditPanel.Consensus.Aggregate
import AuditPanel.Proofs.Text.Words
import Mathlib.Data.List.Infix

/-!
Categories and their spellings. A category depends on the words of its spelling alone, whatever
their case and whatever stands between them. Taking the category of a category changes nothing,
unless the spelling holds a capital I with a dot above: the dot is kept in the slug, where it is
read as a separator the second time.
-/

set_option autoImplicit false

namespace AuditPanel.Taxonomy

open AuditPanel.Text

/-- Whether a character separates words of a category. -/
def separates (c : Char) : Bool :=
  !isAlphanumeric c

private theorem separates_of_isAlphanumeric (c : Char) (letter : isAlphanumeric c) :
    separates c = false := by
  simp [separates, letter]

def slugWords (s : List Char) : List (List Char) :=
  wordsBetween separates s

def lowered (w : List Char) : List Char :=
  w.flatMap lowerChar

def slugTail (ws : List (List Char)) : List Char :=
  ws.flatMap fun w => '-' :: lowered w

/-- Once a slug is begun, its text goes on with whole words after a gap, and else with the rest of a
word first. -/
private theorem slugFrom_eq {out : List Char} (begun : out ≠ []) (s : List Char) :
    slugFrom true out s = out.reverse ++ slugTail (slugWords s) ∧
      ∀ piece pieces, piecesOfWords separates s = piece :: pieces →
        slugFrom false out s = out.reverse ++
          (lowered piece ++ slugTail (pieces.filter (· ≠ []))) := by
  induction s generalizing out with
  | nil => simp [slugFrom, slugWords, slugTail, lowered, piecesOfWords, List.splitOnP_nil]
  | cons c s ih =>
    obtain ⟨piece, pieces, split⟩ :=
      List.exists_cons_of_ne_nil (piecesOfWords_ne_nil (p := separates) (s := s))
    cases letter : isAlphanumeric c with
    | true =>
      have inside := separates_of_isAlphanumeric c letter
      have longer (out : List Char) : (lowerChar c).reverse ++ out ≠ [] := by
        simp [lowerChar_ne_nil]
      have more : piecesOfWords separates (c :: s) = (c :: piece) :: pieces := by
        rw [piecesOfWords_cons_letter inside letter, split, List.modifyHead_cons]
      constructor
      · have later := (ih (longer ('-' :: out))).2 piece pieces split
        simp [slugFrom, letter, begun, later, slugWords, wordsBetween, more, slugTail, lowered]
      · intro piece' pieces' split'
        obtain ⟨rfl, rfl⟩ : c :: piece = piece' ∧ pieces = pieces' := by simpa [more] using split'
        have later := (ih (longer out)).2 piece pieces split
        simp [slugFrom, letter, later, lowered]
    | false =>
      have gap : separates c := by simp [separates, letter]
      have later := (ih begun).1
      constructor
      · rw [slugWords, wordsBetween_cons letter, ← slugWords, ← later]
        simp [slugFrom, letter]
      · intro piece' pieces' split'
        obtain ⟨rfl, rfl⟩ : [] = piece' ∧ piecesOfWords separates s = pieces' := by
          simpa [piecesOfWords_cons_sep gap] using split'
        rw [slugWords, wordsBetween] at later
        simpa [slugFrom, letter, lowered] using later

private theorem slugFrom_nil (gap : Bool) (s : List Char) :
    slugFrom gap [] s = joinWith ['-'] ((slugWords s).map lowered) := by
  induction s generalizing gap with
  | nil => simp [slugFrom, slugWords, joinWith]
  | cons c s ih =>
    cases letter : isAlphanumeric c with
    | true =>
      obtain ⟨piece, pieces, split⟩ :=
        List.exists_cons_of_ne_nil (piecesOfWords_ne_nil (p := separates) (s := s))
      have inside := separates_of_isAlphanumeric c letter
      have begun : (lowerChar c).reverse ≠ [] := by simp [lowerChar_ne_nil]
      have later := (slugFrom_eq begun s).2 piece pieces split
      have words : slugWords (c :: s) = (c :: piece) :: pieces.filter (· ≠ []) := by
        simp [slugWords, wordsBetween, piecesOfWords_cons_letter inside letter, split]
      rw [words, List.map_cons, joinWith_cons]
      simp [slugFrom, letter, later, lowered, slugTail, List.flatMap_map]
    | false =>
      rw [slugWords, wordsBetween_cons letter, ← slugWords, ← ih true]
      simp [slugFrom, letter]

private theorem slugify_eq (s : List Char) :
    slugify s = joinWith ['-'] ((slugWords s).map lowered) := by
  rw [slugify, slugFrom_nil, slugWords, wordsBetween_trim, slugWords]

private theorem mem_flatten_slugWords {s : List Char} {c : Char} :
    c ∈ (slugWords s).flatten ↔ c ∈ s ∧ isAlphanumeric c := by
  rw [slugWords, flatten_wordsBetween separates_of_isAlphanumeric, List.mem_filter]

private theorem mem_slugify {s : List Char} {d : Char} (other : d ≠ '-') :
    d ∈ slugify s ↔ ∃ c ∈ s, isAlphanumeric c ∧ d ∈ lowerChar c := by
  rw [slugify_eq, mem_joinWith (by simpa using other), ← List.flatMap_def]
  constructor
  · intro member
    obtain ⟨w, listed, inside⟩ := List.mem_flatMap.mp member
    obtain ⟨c, here, lower⟩ := List.mem_flatMap.mp inside
    obtain ⟨placed, letter⟩ := mem_flatten_slugWords.mp (List.mem_flatten.mpr ⟨w, listed, here⟩)
    exact ⟨c, placed, letter, lower⟩
  · rintro ⟨c, placed, letter, lower⟩
    obtain ⟨w, listed, here⟩ := List.mem_flatten.mp (mem_flatten_slugWords.mpr ⟨placed, letter⟩)
    exact List.mem_flatMap.mpr ⟨w, listed, List.mem_flatMap.mpr ⟨c, here, lower⟩⟩

/-- The words of a slug are those of the spelling in lower case. Only the dot above a capital I is
lost to them. -/
private theorem slugWords_slugify {s : List Char} (undotted : 'İ' ∉ s) :
    slugWords (slugify s) = (slugWords s).map lowered := by
  rw [slugify_eq]
  refine wordsBetween_joinWith (by decide) separates_of_isAlphanumeric ?_
  intro w listed
  obtain ⟨v, member, rfl⟩ := List.mem_map.mp listed
  obtain ⟨filled, letters⟩ := isWord_of_mem_wordsBetween member
  constructor
  · obtain ⟨c, rest, rfl⟩ := List.exists_cons_of_ne_nil filled
    simp [lowered, lowerChar_ne_nil]
  · intro d inside
    obtain ⟨c, here, lower⟩ := List.mem_flatMap.mp inside
    obtain ⟨placed, letter⟩ := mem_flatten_slugWords.mp (List.mem_flatten.mpr ⟨v, member, here⟩)
    exact isAlphanumeric_of_mem_lowerChar letter (fun dotted => undotted (dotted ▸ placed)) lower

private theorem lowered_lowered (w : List Char) : lowered (lowered w) = lowered w := by
  refine flatMap_lowerChar_of_lower ?_
  intro d member
  obtain ⟨c, -, lower⟩ := List.mem_flatMap.mp member
  exact lowerChar_of_mem lower

private theorem slugify_slugify {s : List Char} (undotted : 'İ' ∉ s) :
    slugify (slugify s) = slugify s := by
  rw [slugify_eq (slugify s), slugWords_slugify undotted, List.map_map, slugify_eq]
  exact congrArg _ (List.map_congr_left fun w _ => lowered_lowered w)

def categories : List String :=
  categoryWeights.map (·.1)

/-- The spellings that the table knows: those of the categories themselves and the others. -/
def knownSlugs : List String :=
  categories ++ aliases.map (·.1)

private theorem resolve?_mem {slug category : String} (resolved : resolve? slug = some category) :
    slug ∈ knownSlugs ∧ category ∈ categories := by
  have meant : ∀ entry ∈ aliases, entry.2 ∈ categories := by decide
  unfold resolve? at resolved
  split at resolved
  · next own weight found =>
    obtain rfl : own = category := by simpa using resolved
    obtain rfl : own = slug := by simpa using List.find?_some found
    have listed : own ∈ categories :=
      List.mem_map.mpr ⟨(own, weight), List.mem_of_find?_eq_some found, rfl⟩
    exact ⟨List.mem_append_left _ listed, listed⟩
  · obtain ⟨entry, found, rfl⟩ := Option.map_eq_some_iff.mp resolved
    obtain rfl : entry.1 = slug := by simpa using List.find?_some found
    have listed := List.mem_of_find?_eq_some found
    exact ⟨List.mem_append_right _ (List.mem_map.mpr ⟨entry, listed, rfl⟩), meant entry listed⟩

private theorem eq_append_of_withoutEnding? {ending s stem : String}
    (found : withoutEnding? ending s = some stem) :
    s.toList = stem.toList ++ ending.toList := by
  obtain ⟨rest, split, rfl⟩ := Option.map_eq_some_iff.mp found
  rw [List.isPrefixOf?_eq_some_iff_append_eq] at split
  have turned := congrArg List.reverse split
  rw [List.reverse_append, List.reverse_reverse, List.reverse_reverse] at turned
  rw [String.toList_ofList, turned]

/-- A category is canonical and the slug a known one, with or without an ending, or the category is
the slug. -/
private theorem canonicalize_cases (raw : String) :
    (canonicalize raw ∈ categories ∧
      (slugify raw.toList = [] ∨ ∃ known ∈ knownSlugs, ∃ ending ∈ "" :: noiseEndings,
        slugify raw.toList = known.toList ++ ending.toList)) ∨
    (canonicalize raw = String.ofList (slugify raw.toList) ∧ slugify raw.toList ≠ []) := by
  have fallback : defaultCategory ∈ categories := by decide
  by_cases empty : slugify raw.toList = []
  · left
    simp [canonicalize, empty, fallback]
  · have filled : (String.ofList (slugify raw.toList)).isEmpty = false := by simpa using empty
    simp only [canonicalize, filled, Bool.false_eq_true, if_false]
    cases resolved : resolve? (String.ofList (slugify raw.toList)) with
    | some category =>
      obtain ⟨known, canonical⟩ := resolve?_mem resolved
      exact .inl ⟨canonical, .inr ⟨_, known, "", List.mem_cons_self, by simp⟩⟩
    | none =>
      cases shortened : noiseEndings.findSome? fun ending =>
          (withoutEnding? ending (String.ofList (slugify raw.toList))).bind resolve? with
      | none => exact .inr ⟨rfl, empty⟩
      | some category =>
        obtain ⟨ending, listed, found⟩ := List.exists_of_findSome?_eq_some shortened
        obtain ⟨stem, split, resolved⟩ := Option.bind_eq_some_iff.mp found
        obtain ⟨known, canonical⟩ := resolve?_mem resolved
        have parts := eq_append_of_withoutEnding? split
        rw [String.toList_ofList] at parts
        exact .inl ⟨canonical, .inr ⟨stem, known, ending, List.mem_cons_of_mem _ listed, parts⟩⟩

theorem canonicalize_ne_empty (raw : String) : canonicalize raw ≠ "" := by
  have named : "" ∉ categories := by decide
  rcases canonicalize_cases raw with ⟨canonical, -⟩ | ⟨same, filled⟩
  · exact fun empty => named (empty ▸ canonical)
  · rw [same]
    simpa using filled

private theorem canonicalize_of_mem_categories {category : String}
    (canonical : category ∈ categories) :
    canonicalize category = category := by
  have own : ∀ category ∈ categories, canonicalize category = category := by decide +kernel
  exact own category canonical

private theorem canonicalize_congr {raw raw' : String}
    (same : slugify raw.toList = slugify raw'.toList) :
    canonicalize raw = canonicalize raw' := by
  simp only [canonicalize, same]

/-- The dot that is left of a capital I with a dot in lower case. -/
def dot : Char :=
  '\u0307'

private theorem dot_mem_slugify {s : List Char} : dot ∈ slugify s ↔ 'İ' ∈ s := by
  have mark : isAlphanumeric dot = false := by decide
  rw [mem_slugify (by decide)]
  constructor
  · rintro ⟨c, placed, letter, lower⟩
    by_cases dotted : c = 'İ'
    · exact dotted ▸ placed
    · exact absurd (isAlphanumeric_of_mem_lowerChar letter dotted lower) (by simp [mark])
  · intro placed
    exact ⟨'İ', placed, by decide, by simp [lowerChar_dotted, dot]⟩

private theorem dotted_notMem_slugify (s : List Char) : 'İ' ∉ slugify s := by
  intro member
  obtain ⟨c, -, -, lower⟩ := (mem_slugify (by decide)).mp member
  exact absurd (lowerChar_of_mem lower) (by simp [lowerChar_dotted])

private theorem dot_notMem_of_known {t : String} (known : t ∈ knownSlugs ++ "" :: noiseEndings) :
    dot ∉ t.toList := by
  have plain : ∀ t ∈ knownSlugs ++ "" :: noiseEndings, dot ∉ t.toList := by decide +kernel
  exact plain t known

private theorem canonicalize_of_dotted {raw : String} (dotted : 'İ' ∈ raw.toList) :
    canonicalize raw = String.ofList (slugify raw.toList) := by
  have inside := dot_mem_slugify.mpr dotted
  rcases canonicalize_cases raw with ⟨-, empty | ⟨known, listed, ending, listed', split⟩⟩ |
    ⟨same, -⟩
  · rw [empty] at inside
    exact absurd inside List.not_mem_nil
  · rw [split, List.mem_append] at inside
    rcases inside with front | back
    · exact absurd front (dot_notMem_of_known (List.mem_append_left _ listed))
    · exact absurd back (dot_notMem_of_known (List.mem_append_right _ listed'))
  · exact same

private theorem canonicalize_canonicalize_iff (raw : String) :
    canonicalize (canonicalize raw) = canonicalize raw ↔ 'İ' ∉ raw.toList := by
  constructor
  · intro stable dotted
    have slug := canonicalize_of_dotted dotted
    have undotted : dot ∉ (canonicalize (canonicalize raw)).toList := by
      rcases canonicalize_cases (canonicalize raw) with ⟨canonical, -⟩ | ⟨same, -⟩
      · exact dot_notMem_of_known (List.mem_append_left _ (List.mem_append_left _ canonical))
      · rw [same, slug, String.toList_ofList, String.toList_ofList, dot_mem_slugify]
        exact dotted_notMem_slugify raw.toList
    rw [stable, slug, String.toList_ofList, dot_mem_slugify] at undotted
    exact undotted dotted
  · intro undotted
    rcases canonicalize_cases raw with ⟨canonical, -⟩ | ⟨same, -⟩
    · exact canonicalize_of_mem_categories canonical
    · refine canonicalize_congr ?_
      rw [same, String.toList_ofList]
      exact slugify_slugify undotted

/-- Characters between words, none of them a letter or digit. -/
def IsGap (s : List Char) : Prop :=
  ∀ c ∈ s, isAlphanumeric c = false

instance (s : List Char) : Decidable (IsGap s) :=
  List.decidableBAll (fun c => isAlphanumeric c = false) s

/-- Two spellings of a category: in another ASCII case, with another gap in one place, or with gaps
at the ends. -/
inductive Respelled : List Char → List Char → Prop
  | recased {s s' : List Char} (same : toAsciiLower s = toAsciiLower s') : Respelled s s'
  | regapped {front gap gap' back : List Char} (filled : gap ≠ []) (filled' : gap' ≠ [])
      (isGap : IsGap gap)
      (isGap' : IsGap gap') : Respelled (front ++ gap ++ back) (front ++ gap' ++ back)
  | widened {lead s trail : List Char} (isGap : IsGap lead) (isGap' : IsGap trail) :
      Respelled s (lead ++ s ++ trail)

private theorem slugFrom_recased (gap : Bool) (out s : List Char) :
    slugFrom gap out (toAsciiLower s) = slugFrom gap out s := by
  induction s generalizing gap out with
  | nil => rfl
  | cons c s ih =>
    obtain ⟨lower, letter⟩ := lowerChar_toLower c
    rw [toAsciiLower, List.map_cons, ← toAsciiLower, slugFrom, slugFrom, lower, letter, ih, ih]

private theorem slugify_recased (s : List Char) : slugify (toAsciiLower s) = slugify s := by
  rw [slugify_eq, ← slugFrom_nil false, slugFrom_recased, slugFrom_nil, ← slugify_eq]

private theorem slugWords_gap {front gap back : List Char} (filled : gap ≠ []) (isGap : IsGap gap) :
    slugWords (front ++ gap ++ back) = slugWords front ++ slugWords back := by
  obtain ⟨c, gap, rfl⟩ := List.exists_cons_of_ne_nil filled
  obtain ⟨head, tail⟩ := List.forall_mem_cons.mp isGap
  have split : separates c := by simp [separates, head]
  rw [List.append_assoc, List.cons_append, slugWords, wordsBetween_append_sep split,
    wordsBetween_marks_append tail]
  rfl

private theorem slugify_respelled {s s' : List Char} (respelled : Respelled s s') :
    slugify s' = slugify s := by
  cases respelled with
  | recased same => rw [← slugify_recased s', ← same, slugify_recased]
  | regapped filled filled' isGap isGap' =>
    rw [slugify_eq, slugify_eq, slugWords_gap filled isGap, slugWords_gap filled' isGap']
  | widened isGap isGap' =>
    rw [slugify_eq, slugify_eq, slugWords, wordsBetween_append_marks isGap',
      wordsBetween_marks_append isGap, slugWords]

/-- A category is not empty and does not change with its spelling. Taken again, as a panel does with
the category that a reviewer's finding has already, it stays what it is unless it was spelled with a
dotted capital I. -/
theorem canonicalize_stable (raw : String) :
    (canonicalize (canonicalize raw) = canonicalize raw ↔ 'İ' ∉ raw.toList) ∧
      canonicalize raw ≠ "" ∧
      (∀ raw' : String, Respelled raw.toList raw'.toList → canonicalize raw' = canonicalize raw) ∧
      ∀ (r : Reviewer) (f : Finding), f.category = canonicalize raw →
        ((Consensus.candidate r f).key = f.key ↔ 'İ' ∉ raw.toList) := by
  refine ⟨canonicalize_canonicalize_iff raw, canonicalize_ne_empty raw, ?_, ?_⟩
  · intro raw' respelled
    exact canonicalize_congr (slugify_respelled respelled)
  · intro r f category
    rw [← canonicalize_canonicalize_iff]
    simp [Consensus.candidate, Finding.key, category]

/-- Another gap in the middle of an alias with an ending. -/
theorem canonicalize_stable_regapped :
    Respelled "Tx_origin attack".toList "Tx . origin attack".toList ∧
      canonicalize "Tx . origin attack" = canonicalize "Tx_origin attack" ∧
      canonicalize (canonicalize "Tx_origin attack") = "tx-origin" := by
  have respelled : Respelled "Tx_origin attack".toList "Tx . origin attack".toList :=
    @Respelled.regapped "Tx".toList ['_'] " . ".toList "origin attack".toList (by decide)
      (by decide) (by decide) (by decide)
  obtain ⟨again, -, spellings, -⟩ := canonicalize_stable "Tx_origin attack"
  have once : canonicalize "Tx_origin attack" = "tx-origin" := by decide +kernel
  exact ⟨respelled, spellings _ respelled, (again.mpr (by decide)).trans once⟩

/-- The category of a capital I with a dot is not its own category. -/
theorem canonicalize_dotted_twice :
    canonicalize "İ" = "i\u0307" ∧ canonicalize (canonicalize "İ") = "i" ∧
      canonicalize (canonicalize "İ") ≠ canonicalize "İ" := by
  decide +kernel

end AuditPanel.Taxonomy
