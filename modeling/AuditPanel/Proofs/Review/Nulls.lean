import AuditPanel.Proofs.Json.Keyed
import AuditPanel.Proofs.Json.Restored
import AuditPanel.Proofs.Review.Prose

/-!
Members that are null, against members that are missing. A field with several names takes the first
one that is there and only then asks whether it is null, so a null is the same as nothing unless it
stands before a value under another name of its field.
-/

set_option autoImplicit false

namespace AuditPanel.Review

variable {members : Members} {names : List String}

def withoutNulls (members : Members) : Members :=
  members.filter fun m => !m.2.isNull

/-- Whether a null under one of the names keeps a value under a later one from being seen. -/
def hides (members : Members) : List String → Bool
  | [] => false
  | name :: later =>
    match Json.member? name members with
    | none => hides members later
    | some v => v.isNull && later.any fun other => (Json.member? other members).any (!·.isNull)

private theorem hides_singleton (name : String) : hides members [name] = false := by
  simp only [hides]
  cases Json.member? name members <;> simp

private theorem member?_withoutNulls (distinct : (members.map (·.1)).Nodup) (key : String) :
    Json.member? key (withoutNulls members) = (Json.member? key members).filter (!·.isNull) := by
  have distinct' : ((withoutNulls members).map (·.1)).Nodup :=
    distinct.sublist (List.filter_sublist.map _)
  refine Option.ext fun v => ?_
  rw [Json.member?_eq_some_iff distinct', Option.filter_eq_some_iff,
    Json.member?_eq_some_iff distinct, withoutNulls, List.mem_filter]

private theorem field_cons (name : String) (later : List String) :
    field members (name :: later) =
      (Json.member? name members).elim (field members later) fun v =>
        if v.isNull then none else some v := by
  simp only [field, List.findSome?_cons]
  cases Json.member? name members <;> rfl

private theorem field_withoutNulls_eq_none_iff (distinct : (members.map (·.1)).Nodup) :
    field (withoutNulls members) names = none ↔
      (names.any fun other => (Json.member? other members).any (!·.isNull)) = false := by
  induction names with
  | nil => simp [field]
  | cons name later ih =>
    rw [field_cons, member?_withoutNulls distinct, List.any_cons, Bool.or_eq_false_iff]
    cases found : Json.member? name members with
    | none => simpa using ih
    | some v => by_cases null : v.isNull = true <;> simp [Option.filter, null, ih]

private theorem field_withoutNulls_eq_iff (distinct : (members.map (·.1)).Nodup) :
    field (withoutNulls members) names = field members names ↔ hides members names = false := by
  induction names with
  | nil => simp [field, hides]
  | cons name later ih =>
    rw [field_cons, field_cons, member?_withoutNulls distinct]
    cases found : Json.member? name members with
    | none => simpa [hides, found] using ih
    | some v =>
      by_cases null : v.isNull = true
      · simpa [Option.filter, hides, found, null] using field_withoutNulls_eq_none_iff distinct
      · simp [Option.filter, hides, found, null]

/-- Every member under its key, with its value changed. -/
def mapValues (f : String → Json → Json) (members : Members) : Members :=
  members.map fun m => (m.1, f m.1 m.2)

section MapValues

variable {f : String → Json → Json}

private theorem member?_mapValues (key : String) :
    Json.member? key (mapValues f members) = (Json.member? key members).map (f key) := by
  induction members with
  | nil => rfl
  | cons m rest ih =>
    obtain ⟨name, v⟩ := m
    by_cases same : name = key
    · simp [Json.member?, mapValues, same]
    · simpa [Json.member?, mapValues, same] using ih

private theorem keys_mapValues : (mapValues f members).map (·.1) = members.map (·.1) := by
  simp [mapValues]

variable (keeps : ∀ key v, (f key v).isNull = v.isNull)
include keeps

private theorem hides_mapValues : hides (mapValues f members) names = hides members names := by
  induction names with
  | nil => rfl
  | cons name later ih =>
    simp only [hides, member?_mapValues]
    cases Json.member? name members with
    | none => exact ih
    | some v => simp [keeps, Option.any_map]

/-- A field of changed members is the changed field, where all of its names have their values
changed alike. -/
private theorem field_mapValues {g : Json → Json} (alike : ∀ name ∈ names, f name = g) :
    field (mapValues f members) names = (field members names).map g := by
  induction names with
  | nil => rfl
  | cons name later ih =>
    rw [field_cons, field_cons, member?_mapValues]
    cases Json.member? name members with
    | none => exact ih fun other member => alike other (List.mem_cons_of_mem name member)
    | some v =>
      simp only [Option.map_some, Option.elim_some, keeps]
      split
      · rfl
      · rw [alike name List.mem_cons_self, Option.map_some]

private theorem field_withoutNulls_mapValues {g : Json → Json} (alike : ∀ name ∈ names, f name = g)
    (distinct : (members.map (·.1)).Nodup) (shown : hides members names = false) :
    field (withoutNulls (mapValues f members)) names = (field members names).map g := by
  rw [(field_withoutNulls_eq_iff (by rwa [keys_mapValues])).mpr (by rwa [hides_mapValues keeps]),
    field_mapValues keeps alike]

end MapValues

def itemNames : List String :=
  ["description", "suggestion", "recommendation", "text", "title"]

/-- The names of the notes among the remarks on the code. -/
def noteNames : List String :=
  ["notes", "issues", "suggestions"]

def qualityNames : List String :=
  ["codeQuality", "code_quality"]

/-- The names under which an answer gives its findings. -/
def findingNames : List String :=
  ["vulnerabilities", "findings", "issues"]

/-- The names under which an answer gives its gas optimizations. -/
def gasNames : List String :=
  ["gasOptimizations", "gas_optimizations", "gas"]

def listNames : List String :=
  "recommendations" :: findingNames ++ gasNames

def thinnedItem : Json → Json
  | .object members => .object (withoutNulls members)
  | v => v

/-- A list of items, or a single one, whose objects have lost their nulls. -/
def thinnedList : Json → Json
  | .array items => .array (items.map thinnedItem)
  | v => thinnedItem v

/-- The value under a key of remarks on the code, without nulls. -/
def thinnedRemark (key : String) : Json → Json :=
  if key ∈ noteNames then thinnedList else id

/-- Remarks on the code that have lost their nulls and those of their notes. -/
def thinnedQuality : Json → Json
  | .object members => .object (withoutNulls (mapValues thinnedRemark members))
  | v => thinnedList v

/-- The value under a key of an answer, without nulls. -/
def thinnedValue (key : String) : Json → Json :=
  if key ∈ listNames then thinnedList
  else if key ∈ qualityNames then thinnedQuality
  else id

/-- An answer whose object has lost its nulls, and so have its findings, its remarks on the code and
its list items. -/
def thinned (members : Members) : Members :=
  withoutNulls (mapValues thinnedValue members)

private theorem thinnedValue_quality :
    ∀ name ∈ qualityNames, thinnedValue name = thinnedQuality := by
  intro name named
  have other : ∀ name ∈ qualityNames, name ∉ listNames := by decide
  rw [thinnedValue, if_neg (other name named), if_pos named]

private theorem isNull_thinnedList (v : Json) : (thinnedList v).isNull = v.isNull := by
  cases v <;> rfl

private theorem isNull_thinnedRemark (key : String) (v : Json) :
    (thinnedRemark key v).isNull = v.isNull := by
  unfold thinnedRemark
  split_ifs
  · exact isNull_thinnedList v
  · rfl

private theorem isNull_thinnedQuality (v : Json) : (thinnedQuality v).isNull = v.isNull := by
  cases v <;> rfl

private theorem isNull_thinnedValue (key : String) (v : Json) :
    (thinnedValue key v).isNull = v.isNull := by
  unfold thinnedValue
  split_ifs
  · exact isNull_thinnedList v
  · exact isNull_thinnedQuality v
  · rfl

def findingFields : List (List String) :=
  [["name", "title"], ["description", "details"], ["category", "type"], ["severity"],
    ["confidence"],
    ["affectedLines", "affected_lines", "lines", "line", "lineNumbers", "lineNumber"],
    ["codeSnippet", "code_snippet", "snippet", "code"],
    ["recommendation", "fix", "remediation", "mitigation"], ["impact"]]

def replyFields : List (List String) :=
  [["score", "overallScore", "securityScore"], ["riskLevel", "risk_level", "risk"],
    ["summary", "overview"], findingNames, ["recommendations"], gasNames, qualityNames]

/-- The items of a list of texts, or the single one. -/
def itemsOf : Option Json → List Json
  | none => []
  | some (.array items) => items
  | some v => [v]

def entriesOf : Option Json → List Json
  | some (.array items) => items
  | _ => []

def remarksOf : Option Json → Members
  | some (.object members) => members
  | _ => []

def notesOf : Option Json → Option Json
  | some (.object members) => field members noteNames
  | some (.array items) => some (.array items)
  | _ => none

/-- Whether no object in a list hides one of the given fields behind a null. -/
def ShowsFields (fields : List (List String)) (items : List Json) : Prop :=
  ∀ own ∈ items.filterMap Json.asObject?, ∀ names ∈ fields, hides own names = false

instance (fields : List (List String)) (items : List Json) : Decidable (ShowsFields fields items) :=
  inferInstanceAs (Decidable (∀ own ∈ _, _))

/-- No null in an answer stands before a value under another name of its field. -/
structure ShowsAll (members : Members) : Prop where
  reply : ∀ names ∈ replyFields, hides members names = false
  findings : ShowsFields findingFields (entriesOf (field members findingNames))
  quality : hides (remarksOf (field members qualityNames)) noteNames = false
  recommendations : ShowsFields [itemNames] (itemsOf (field members ["recommendations"]))
  gasOptimizations : ShowsFields [itemNames] (itemsOf (field members gasNames))
  notes : ShowsFields [itemNames] (itemsOf (notesOf (field members qualityNames)))

section Keyed

open Json (IsKeyed)

variable {value : Option Json}

private theorem isKeyed_of_field {v : Json} (keyed : IsKeyed (.object members))
    (h : field members names = some v) :
    IsKeyed v := by
  unfold field at h
  split at h
  · cases h
  · next w found =>
    obtain ⟨name, -, there⟩ := List.exists_of_findSome?_eq_some found
    obtain ⟨-, same⟩ := Option.ite_none_left_eq_some.mp h
    cases same
    exact keyed.of_member? there

private theorem ShowsFields.of_mem {fields : List (List String)} {items : List Json}
    (shown : ShowsFields fields items)
    {own : Members} (member : .object own ∈ items) {names : List String} (named : names ∈ fields) :
    hides own names = false :=
  shown own (List.mem_filterMap.mpr ⟨_, member, rfl⟩) names named

private theorem item?_thinnedItem {v : Json} (keyed : IsKeyed v)
    (shown : ∀ own, v = .object own → hides own itemNames = false) :
    item? (thinnedItem v) = item? v := by
  cases v with
  | object own =>
    have same := (field_withoutNulls_eq_iff keyed.nodup).mpr (shown own rfl)
    rw [itemNames] at same
    simp only [thinnedItem, item?, same]
  | _ => rfl

private theorem stringList_eq (value : Option Json) :
    stringList value = (itemsOf value).filterMap item? := by
  cases value with
  | none => rfl
  | some v =>
    cases v with
    | array items => rfl
    | _ =>
      simp only [stringList, itemsOf, List.filterMap_cons]
      cases item? _ <;> rfl

private theorem itemsOf_thinnedList (value : Option Json) :
    itemsOf (value.map thinnedList) = (itemsOf value).map thinnedItem := by
  cases value with
  | none => rfl
  | some v => cases v <;> rfl

private theorem isKeyed_of_mem_itemsOf (keyed : ∀ v, value = some v → IsKeyed v) {v : Json}
    (member : v ∈ itemsOf value) :
    IsKeyed v := by
  cases value with
  | none => cases member
  | some w =>
    cases w with
    | array items =>
      cases keyed _ rfl with
      | array all => exact all v member
    | _ =>
      cases List.mem_singleton.mp member
      exact keyed _ rfl

private theorem stringList_thinnedList (keyed : ∀ v, value = some v → IsKeyed v)
    (shown : ShowsFields [itemNames] (itemsOf value)) :
    stringList (value.map thinnedList) = stringList value := by
  rw [stringList_eq, stringList_eq, itemsOf_thinnedList, List.filterMap_map]
  refine List.filterMap_congr fun v member => ?_
  refine item?_thinnedItem (isKeyed_of_mem_itemsOf keyed member) ?_
  rintro own rfl
  exact shown.of_mem member List.mem_cons_self

private theorem findingOf_withoutNulls (r : Reviewer) (distinct : (members.map (·.1)).Nodup)
    (shown : ∀ names ∈ findingFields, hides members names = false) :
    findingOf r (withoutNulls members) = findingOf r members := by
  have same : ∀ names ∈ findingFields, field (withoutNulls members) names = field members names :=
    fun names member => (field_withoutNulls_eq_iff distinct).mpr (shown names member)
  simp only [findingFields, List.forall_mem_cons] at same
  simp only [findingOf, textOr, same]

private theorem findingsOf_thinnedList (r : Reviewer) (keyed : ∀ v, value = some v → IsKeyed v)
    (shown : ShowsFields findingFields (entriesOf value)) :
    findingsOf r (value.map thinnedList) = findingsOf r value := by
  cases value with
  | none => rfl
  | some v =>
    cases v with
    | array items =>
      cases keyed _ rfl with
      | array all =>
        simp only [Option.map_some, thinnedList, findingsOf, List.map_filterMap, List.filterMap_map]
        refine List.filterMap_congr fun v member => ?_
        cases v with
        | object own =>
          have same := findingOf_withoutNulls r (all _ member).nodup fun names =>
            shown.of_mem member
          simp only [Function.comp_apply, thinnedItem, Json.asObject?, Option.map_some, same]
        | _ => rfl
    | _ => rfl

private theorem qualityOf_object (own : Members) :
    qualityOf (some (.object own)) =
      ⟨((field own ["score"]).bind number?).map clampScore, stringList (field own noteNames)⟩ :=
  rfl

private theorem qualityOf_thinnedQuality (keyed : ∀ v, value = some v → IsKeyed v)
    (shown : hides (remarksOf value) noteNames = false)
    (items : ShowsFields [itemNames] (itemsOf (notesOf value))) :
    qualityOf (value.map thinnedQuality) = qualityOf value := by
  cases value with
  | none => rfl
  | some v =>
    cases v with
    | object own =>
      have distinct := (keyed _ rfl).nodup
      have score : field (withoutNulls (mapValues thinnedRemark own)) ["score"] =
          (field own ["score"]).map id :=
        field_withoutNulls_mapValues isNull_thinnedRemark
          (fun name member => if_neg (by simp_all [noteNames])) distinct
          (hides_singleton "score")
      have notes :=
        field_withoutNulls_mapValues isNull_thinnedRemark (fun name member => if_pos member)
          distinct shown
      have listed := stringList_thinnedList (fun v => isKeyed_of_field (keyed _ rfl)) items
      change stringList ((field own noteNames).map thinnedList) = stringList (field own noteNames)
        at listed
      rw [Option.map_some, thinnedQuality, qualityOf_object, qualityOf_object, score, notes, listed,
        Option.map_id_apply]
    | array items' =>
      have listed := stringList_thinnedList keyed items
      simp only [Option.map_some, thinnedList] at listed
      simp only [Option.map_some, thinnedQuality, thinnedList, qualityOf, listed]
    | _ => rfl

section Fields

variable (keyed : IsKeyed (.object members)) (shown : ShowsAll members)
  (member : names ∈ replyFields)
include keyed shown member

private theorem field_thinned {g : Json → Json} (alike : ∀ name ∈ names, thinnedValue name = g) :
    field (thinned members) names = (field members names).map g :=
  field_withoutNulls_mapValues isNull_thinnedValue alike keyed.nodup (shown.reply names member)

private theorem field_thinned_list (among : ∀ name ∈ names, name ∈ listNames) :
    field (thinned members) names = (field members names).map thinnedList :=
  field_thinned keyed shown member fun name named => if_pos (among name named)

private theorem field_thinned_plain
    (other : ∀ name ∈ names, name ∉ listNames ∧ name ∉ qualityNames) :
    field (thinned members) names = field members names := by
  rw [field_thinned keyed shown member (g := id), Option.map_id_apply]
  intro name named
  rw [thinnedValue, if_neg (other name named).1, if_neg (other name named).2]

end Fields

private theorem ofMembers_thinned (r : Reviewer) (keyed : IsKeyed (.object members))
    (shown : ShowsAll members) :
    ofMembers r (thinned members) = ofMembers r members := by
  have valued {names : List String} (v : Json) (h : field members names = some v) : IsKeyed v :=
    isKeyed_of_field keyed h
  have score : field (thinned members) ["score", "overallScore", "securityScore"] =
      field members ["score", "overallScore", "securityScore"] :=
    field_thinned_plain keyed shown (by decide) (by decide)
  have risk : field (thinned members) ["riskLevel", "risk_level", "risk"] =
      field members ["riskLevel", "risk_level", "risk"] :=
    field_thinned_plain keyed shown (by decide) (by decide)
  have summary : field (thinned members) ["summary", "overview"] =
      field members ["summary", "overview"] :=
    field_thinned_plain keyed shown (by decide) (by decide)
  have findings : findingsOf r (field (thinned members) findingNames) =
      findingsOf r (field members findingNames) := by
    rw [field_thinned_list keyed shown (by decide) (by decide),
      findingsOf_thinnedList r valued shown.findings]
  have recommendations :
      stringList (field (thinned members) ["recommendations"]) =
        stringList (field members ["recommendations"]) := by
    rw [field_thinned_list keyed shown (by decide) (by decide),
      stringList_thinnedList valued shown.recommendations]
  have gas : stringList (field (thinned members) gasNames) =
      stringList (field members gasNames) := by
    rw [field_thinned_list keyed shown (by decide) (by decide),
      stringList_thinnedList valued shown.gasOptimizations]
  have quality : qualityOf (field (thinned members) qualityNames) =
      qualityOf (field members qualityNames) := by
    rw [field_thinned keyed shown (by decide) thinnedValue_quality,
      qualityOf_thinnedQuality valued shown.quality shown.notes]
  rw [findingNames] at findings
  rw [gasNames] at gas
  rw [qualityNames] at quality
  simp only [ofMembers, textOr, score, risk, summary, findings, recommendations, gas, quality]

end Keyed

/-- A text that writes an object from its first character to its last one, and is looked at
whole. -/
structure Writes (j : List Char) (members : Members) : Prop where
  opens : j.head? = some '\x7b'
  closes : j.getLast? = some '\x7d'
  read : Json.read? j = some (.object members)
  fits : (String.ofList j).utf8ByteSize ≤ answerLimit

private theorem normalize_of_writes {j : List Char} (writes : Writes j members) (r : Reviewer) :
    normalize j r = ofMembers r members := by
  have found :=
    extractObject?_prose (p := []) (by simp) writes.opens writes.closes writes.read writes.fits []
  simp only [List.nil_append, List.append_nil] at found
  simp only [normalize, found]

open Json (IsSorted IsStorable)

private theorem writes_compact (storable : IsStorable Json.defaultDepth (.object members))
    (same : Json.restored (.object members) = .object members)
    (fits : (Json.object members).compact.utf8ByteSize ≤ answerLimit) :
    Writes (Json.object members).compact.toList members where
  opens := by simp [Json.compact_toList, Json.text]
  closes := by
    rw [Json.compact_toList, Json.text, ← List.cons_append]
    exact List.getLast?_concat
  read := by rw [Json.read?_compact storable, same]
  fits := by rwa [String.ofList_toList]

/-- An answer and the same one without its nulls give the same report, unless a null stands before a
value under another name of its field. -/
theorem normalize_eq_of_thinned (r : Reviewer) (j j' : List Char) (members : Members)
    (whole : Writes j members)
    (thin : Writes j' (thinned members)) (shown : ShowsAll members) :
    normalize j r = normalize j' r := by
  rw [normalize_of_writes whole, normalize_of_writes thin,
    ofMembers_thinned r (Json.isKeyed_read? whole.read) shown]

private theorem isStorable_report {own rest : Members}
    (ordered : IsSorted (("findings", .array [.object own]) :: rest))
    (sorted : IsSorted own) (plain : ∀ m ∈ own ++ rest, m.2 = .null ∨ ∃ s, m.2 = .string s) :
    IsStorable Json.defaultDepth (.object (("findings", .array [.object own]) :: rest)) := by
  have scalar {depth : Nat} (m : String × Json) (member : m ∈ own ++ rest) :
      IsStorable depth m.2 := by
    obtain null | ⟨s, text⟩ := plain m member
    · exact null ▸ .null
    · exact text ▸ .string s
  have reported : IsStorable 125 (.object own) := .object sorted fun m member =>
    scalar m (List.mem_append_left rest member)
  refine .object ordered
    (List.forall_mem_cons.mpr ⟨.array (List.forall_mem_singleton.mpr reported), ?_⟩)
  exact fun m member => scalar m (List.mem_append_right own member)

/-- An answer whose nulls stand behind the values of their fields or alone. -/
private def padded : Members :=
  [("findings", .array [.object [("name", .string "Reentrancy"), ("title", .null)]]),
    ("summary", .null)]

/-- An answer with a null before a list of findings. -/
private def veiled : Members :=
  [("findings", .array [.object [("title", .string "Reentrancy")]]), ("vulnerabilities", .null)]

theorem normalize_padded :
    thinned padded = [("findings", .array [.object [("name", .string "Reentrancy")]])] ∧
      normalize (Json.object padded).compact.toList .security =
        normalize (Json.object (thinned padded)).compact.toList .security := by
  have less : thinned padded = [("findings", .array [.object [("name", .string "Reentrancy")]])] :=
    rfl
  have whole : Writes (Json.object padded).compact.toList padded :=
    writes_compact
      (isStorable_report (by unfold IsSorted; decide) (by unfold IsSorted; decide) (by simp)) rfl
      (by decide)
  have thin : Writes (Json.object (thinned padded)).compact.toList (thinned padded) :=
    less ▸ writes_compact (isStorable_report (by simp [IsSorted]) (by simp [IsSorted]) (by simp))
      rfl (by decide)
  have shown : ShowsAll padded := ⟨by decide, by decide, by decide, by decide, by decide, by decide⟩
  exact ⟨less, normalize_eq_of_thinned .security _ _ padded whole thin shown⟩

/-- A null keeps the findings of an answer from being read. -/
theorem normalize_veiled :
    (Json.object veiled).compact =
        "\x7b\"findings\":[\x7b\"title\":\"Reentrancy\"\x7d],\"vulnerabilities\":null\x7d" ∧
      (Json.object (thinned veiled)).compact =
        "\x7b\"findings\":[\x7b\"title\":\"Reentrancy\"\x7d]\x7d" ∧
      (normalize (Json.object veiled).compact.toList .security).findings = [] ∧
      (normalize (Json.object (thinned veiled)).compact.toList .security).findings.map (·.name) =
        ["Reentrancy"] := by
  have less : thinned veiled = [("findings", .array [.object [("title", .string "Reentrancy")]])] :=
    rfl
  have whole : Writes (Json.object veiled).compact.toList veiled :=
    writes_compact (isStorable_report (by unfold IsSorted; decide) (by simp [IsSorted]) (by simp))
      rfl (by decide)
  have thin : Writes (Json.object (thinned veiled)).compact.toList (thinned veiled) :=
    less ▸ writes_compact (isStorable_report (by simp [IsSorted]) (by simp [IsSorted]) (by simp))
      rfl (by decide)
  rw [normalize_of_writes whole, normalize_of_writes thin]
  exact ⟨by decide, by decide, rfl, by decide⟩

end AuditPanel.Review
