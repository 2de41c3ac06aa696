import AuditPanel.Prompt.Basic
import AuditPanel.Proofs.Text.Search
import AuditPanel.Proofs.Text.Segments
import Mathlib.Data.List.TakeWhile

/-!
Filling templates. A template has one cut into literal text and placeholders, which no value takes
part in. The built-in templates therefore show a source as it is between two texts that do not
depend on it.
-/

set_option autoImplicit false

namespace AuditPanel.Prompt

open AuditPanel.Text

def placeholder (name : List Char) : List Char :=
  '\x7b' :: '\x7b' :: name ++ ['\x7d', '\x7d']

/-- The names that placeholders may have. -/
def IsPlaceholderName (name : List Char) : Prop :=
  name ≠ [] ∧ name.all isNameChar

instance (name : List Char) : Decidable (IsPlaceholderName name) :=
  inferInstanceAs (Decidable (_ ∧ _))

private theorem placeholderAt?_placeholder {name : List Char} (valid : IsPlaceholderName name)
    (rest : List Char) :
    placeholderAt? (placeholder name ++ rest) = some (name, (placeholder name).length) := by
  have named : (name ++ '\x7d' :: '\x7d' :: rest).takeWhile isNameChar = name := by
    rw [takeWhile_append_stop (by decide),
      List.takeWhile_eq_self_iff.mpr (List.all_eq_true.mp valid.2)]
  have closed : (name ++ '\x7d' :: '\x7d' :: rest).dropWhile isNameChar = '\x7d' :: '\x7d' ::
      rest := by
    rw [dropWhile_append_stop (by decide),
      List.dropWhile_eq_nil_iff.mpr (List.all_eq_true.mp valid.2), List.nil_append]
  simp [placeholderAt?, named, closed, valid.1, placeholder]

private theorem placeholderAt?_eq_some {s name : List Char} {length : Nat}
    (found : placeholderAt? s = some (name, length)) :
    IsPlaceholderName name ∧ ∃ rest, s = placeholder name ++ rest := by
  unfold placeholderAt? at found
  split at found
  · rename_i inner
    dsimp only at found
    split at found
    · rename_i rest closed
      split at found
      · contradiction
      · rename_i some_
        obtain ⟨rfl, -⟩ := Prod.mk.inj (Option.some.inj found)
        refine ⟨⟨by simpa using some_, List.all_takeWhile⟩, rest, ?_⟩
        have split_ := List.takeWhile_append_dropWhile (p := isNameChar) (l := inner)
        rw [closed] at split_
        simp [placeholder, split_]
    · contradiction
  · contradiction

private theorem reads_placeholder : Reads placeholderAt? placeholder IsPlaceholderName where
  found_iff s name length := by
    constructor
    · intro found
      obtain ⟨valid, rest, rfl⟩ := placeholderAt?_eq_some found
      rw [placeholderAt?_placeholder valid] at found
      obtain ⟨-, rfl⟩ := Prod.mk.inj (Option.some.inj found)
      exact ⟨valid, List.prefix_append _ _, rfl⟩
    · rintro ⟨valid, ⟨rest, rfl⟩, rfl⟩
      exact placeholderAt?_placeholder valid rest
  nonempty _ _ := List.cons_ne_nil _ _

private theorem isPrefix_of_not_mem {c : Char} {w s t : List Char} (absent : c ∉ w)
    (starts : w <+: s ++ c :: t) : w <+: s := by
  induction w generalizing s with
  | nil => exact List.nil_prefix
  | cons d w ih =>
    rw [List.mem_cons, not_or] at absent
    cases s with
    | nil => exact absurd (List.cons_prefix_cons.mp starts).1.symm absent.1
    | cons e s =>
      obtain ⟨same, starts⟩ := List.cons_prefix_cons.mp starts
      exact List.cons_prefix_cons.mpr ⟨same, ih absent.2 starts⟩

private theorem placeholder_apart {name other u rest : List Char} (valid : IsPlaceholderName other)
    (nonempty : u ≠ [])
    (starts : placeholder other <+: u ++ (placeholder name ++ rest)) : placeholder other <+: u := by
  have no_brace : '\x7b' ∉ other ++ ['\x7d', '\x7d'] := by
    intro brace
    rcases List.mem_append.mp brace with inside | closing
    · exact absurd (List.all_eq_true.mp valid.2 _ inside) (by decide)
    · exact absurd closing (by decide)
  rcases u with _ | ⟨a, _ | ⟨b, u⟩⟩
  · contradiction
  · obtain ⟨-, starts⟩ := List.cons_prefix_cons.mp starts
    obtain ⟨-, starts⟩ := List.cons_prefix_cons.mp starts
    obtain ⟨d, rest, rfl⟩ := List.exists_cons_of_ne_nil valid.1
    obtain ⟨rfl, -⟩ := List.cons_prefix_cons.mp starts
    exact absurd (List.mem_cons_self) no_brace
  · obtain ⟨first, starts⟩ := List.cons_prefix_cons.mp starts
    obtain ⟨second, starts⟩ := List.cons_prefix_cons.mp starts
    exact List.cons_prefix_cons.mpr
      ⟨first, List.cons_prefix_cons.mpr ⟨second, isPrefix_of_not_mem no_brace starts⟩⟩

private theorem parts_append_placeholder {name : List Char} (valid : IsPlaceholderName name)
    (s t : List Char) :
    parts (s ++ (placeholder name ++ t)) = parts s ++ .mark name :: parts t := by
  have behind : IsCut placeholder IsPlaceholderName (placeholder name ++ t)
      (.mark name :: parts t) :=
    .mark valid (reads_placeholder.isCut_segments t)
  apply Eq.symm
  apply reads_placeholder.isCut_iff.mp
  apply (reads_placeholder.isCut_segments s).append_mark _ behind
  intro u nonempty other valid
  exact placeholder_apart valid nonempty

/-- What is put in for a name: its value, or the name as it is written. -/
def Variables.valueOf (v : Variables) (name : List Char) : List Char :=
  ((v.lookup? (String.ofList name)).map String.toList).getD (placeholder name)

private theorem interpolate_eq (template : List Char) (v : Variables) :
    interpolate template v = (parts template).flatMap (·.text v.valueOf) := by
  rw [interpolate, List.flatMap]
  congr 2
  funext piece
  cases piece with
  | literal text => rfl
  | mark name =>
    simp only [fillPart, Segment.text, Variables.valueOf]
    cases v.lookup? (String.ofList name) <;> rfl

private theorem interpolate_append_placeholder {name : List Char} (valid : IsPlaceholderName name)
    (s t : List Char) (v : Variables) :
    interpolate (s ++ (placeholder name ++ t)) v = interpolate s v ++
      (v.valueOf name ++ interpolate t v) := by
  simp only [interpolate_eq, parts_append_placeholder valid, List.flatMap_append, List.flatMap_cons,
    Segment.text]

private theorem valueOf_eq {v : Variables} {name value : String}
    (known : v.lookup? name = some value) :
    v.valueOf name.toList = value.toList := by
  simp only [Variables.valueOf, String.ofList_toList, known, Option.map_some, Option.getD_some]

def IsPlain (s : String) : Prop :=
  '\x7b' ∉ s.toList

theorem isPlain_append {s t : String} : IsPlain (s ++ t) ↔ IsPlain s ∧ IsPlain t := by
  rw [IsPlain, String.toList_append, List.mem_append, not_or]
  rfl

private theorem isPlain_of_eq {s : String} {chars : List Char} (same : s = String.ofList chars)
    (none : chars.contains '\x7b' = false) : IsPlain s := by
  rwa [IsPlain, same, String.toList_ofList, ← List.contains_iff_mem, Bool.not_eq_true]

private theorem interpolate_plain {s : String} (plain : IsPlain s) (v : Variables) :
    interpolate s.toList v = s.toList := by
  have one : parts s.toList = putBefore s.toList [] := by
    have none : ∀ u ∈ s.toList.tails, u ≠ [] → placeholderAt? (u ++ []) = .none := by
      intro u suffix_s _
      rw [List.append_nil, reads_placeholder.none_iff]
      rintro name _ ⟨rest, rfl⟩
      exact plain (((List.mem_tails _ _).mp suffix_s).mem (List.mem_cons_self))
    have same := segments_append none
    rwa [List.append_nil] at same
  rw [interpolate_eq, one]
  by_cases empty : s.toList = []
  · rw [empty]
    rfl
  · rw [putBefore_eq_cons empty (by simp)]
    exact List.append_nil _

/-- A name as a template refers to it, as a string. -/
def slot (name : String) : String :=
  "\x7b\x7b" ++ name ++ "\x7d\x7d"

private theorem interpolate_slot {name value t : String} {v : Variables}
    (valid : IsPlaceholderName name.toList)
    (known : v.lookup? name = some value) (plain : IsPlain t) (s : String) :
    interpolate (s ++ slot name ++ t).toList v = interpolate s.toList v ++ (value ++ t).toList := by
  have shape : (s ++ slot name ++ t).toList = s.toList ++
      (placeholder name.toList ++ t.toList) := by
    simp [slot, placeholder, String.toList_append]
  rw [shape, interpolate_append_placeholder valid, interpolate_plain plain, valueOf_eq known,
    String.toList_append]

private theorem isPlain_opening (r : Reviewer) : IsPlain (opening r) := by
  cases r
  all_goals
    delta opening
    dsimp only
    simp only [isPlain_append]
    and_intros
  all_goals exact isPlain_of_eq rfl (by decide)

/-- What a built-in request says in front of the source. -/
def requestHead (opening name chain mode outline findings focus : String) : String :=
  opening ++ "\n\n" ++ "## Contract\nName: " ++ name ++ "\nChain: " ++ chain ++
    "\nAnalysis mode: " ++ mode ++ "\n\n"
    ++ outline ++ "\n\n## Static analyzer results\n" ++ findings ++ "\n\n## Focus areas\n" ++ focus
    ++ "\n\n## Source\n```solidity\n"

def requestTail (form : String) : String :=
  "\n```\n\nRespond with ONLY a JSON object of this shape:\n" ++ form ++ "\n"

private theorem append_frame (opening name chain mode outline findings focus source form : String) :
    opening ++ "\n\n" ++
      ("## Contract\nName: " ++ name ++ "\nChain: " ++ chain ++ "\nAnalysis mode: " ++
        mode ++ "\n\n"
      ++ outline ++ "\n\n## Static analyzer results\n" ++ findings ++
        "\n\n## Focus areas\n" ++ focus ++ "\n\n## Source\n```solidity\n" ++ source
      ++ "\n```\n\nRespond with ONLY a JSON object of this shape:\n" ++ form ++ "\n") =
      requestHead opening name chain mode outline findings focus ++ source ++ requestTail form := by
  unfold requestHead requestTail
  simp only [← String.append_assoc]

private theorem frame_eq :
    frame = "## Contract\nName: " ++ slot "CONTRACT_NAME" ++ "\nChain: " ++ slot "CHAIN" ++
      "\nAnalysis mode: "
      ++ slot "ANALYSIS_MODE" ++ "\n\n" ++ slot "CONTRACT_METADATA" ++
        "\n\n## Static analyzer results\n"
      ++ slot "STATIC_FINDINGS" ++ "\n\n## Focus areas\n" ++ slot "FOCUS_AREAS" ++
        "\n\n## Source\n```solidity\n"
      ++ slot "SOURCE_CODE" ++ "\n```\n\nRespond with ONLY a JSON object of this shape:\n"
      ++ slot "RESPONSE_FORMAT" ++ "\n" := by
  decide +kernel

private theorem builtinTemplate_eq (r : Reviewer) :
    builtinTemplate r =
      requestHead (opening r) (slot "CONTRACT_NAME") (slot "CHAIN") (slot "ANALYSIS_MODE")
        (slot "CONTRACT_METADATA")
        (slot "STATIC_FINDINGS") (slot "FOCUS_AREAS") ++ slot "SOURCE_CODE" ++
          requestTail (slot "RESPONSE_FORMAT") :=
  (congrArg (opening r ++ "\n\n" ++ ·) frame_eq).trans (append_frame ..)

private theorem interpolate_builtinTemplate (r : Reviewer) (v : Variables) :
    interpolate (builtinTemplate r).toList v =
      (requestHead (opening r) v.contractName (v.chain.getD "") v.analysisMode
        (v.contractMetadata.getD "")
        (v.staticFindings.getD "") (v.focusAreas.getD "") ++ v.sourceCode ++
          requestTail v.responseFormat).toList := by
  have start : IsPlain (opening r ++ "\n\n" ++ "## Contract\nName: ") := by
    simp only [isPlain_append]
    exact ⟨⟨isPlain_opening r, isPlain_of_eq rfl (by decide)⟩, isPlain_of_eq rfl (by decide)⟩
  rw [builtinTemplate_eq]
  unfold requestHead requestTail
  simp only [← String.append_assoc]
  iterate 8 rw [interpolate_slot (by decide) rfl (isPlain_of_eq rfl (by decide))]
  rw [interpolate_plain start]
  simp only [← String.toList_append, ← String.append_assoc]

private theorem template_builtin {b : Book} {r : Reviewer}
    (builtin : ∀ files ∈ b.files, hasPrompt files (briefOf r).promptFile.toList = false) :
    b.template (briefOf r) = .ok (builtinTemplate r).toList := by
  have same : (briefOf r).reviewer = r := by cases r <;> rfl
  obtain ⟨files, limit⟩ := b
  cases files with
  | none => rw [Book.template, same]
  | some files => simp [Book.template, builtin files rfl, same]

/-- Values go into a template as they are: the template alone says where, by the one cut into
literal text and placeholders. So the built-in prompt for a source that is shown whole is that
source between two texts that do not depend on it. -/
theorem values_verbatim :
    (∀ template : List Char, ∃ pieces : List (Segment (List Char)),
      (∀ other, IsCut placeholder IsPlaceholderName template other ↔ other = pieces) ∧
        ∀ v : Variables, interpolate template v = pieces.flatMap (·.text v.valueOf)) ∧
    ∀ (b : Book) (r : Reviewer) (c : Context) (source : String),
      (∀ files ∈ b.files, hasPrompt files (briefOf r).promptFile.toList = false) →
        source.length ≤ b.maxSourceChars →
      b.render r { c with source := source } = .ok ⟨(briefOf r).systemPrompt,
        requestHead (opening r) c.contractInfo.name (c.chain.getD "unspecified") c.analysisMode
          (describeContract c.contractInfo) (describeFindings c.staticFindings)
          ("\n".intercalate ((briefOf r).focus.map ("- " ++ ·))) ++ source ++
            requestTail responseFormat⟩ := by
  constructor
  · intro template
    refine ⟨parts template, ?_, interpolate_eq template⟩
    intro other
    exact reads_placeholder.isCut_iff
  · intro b r c source builtin fits
    have whole : truncateSource source.toList b.maxSourceChars = source.toList := by
      rw [truncateSource, String.length_toList]
      exact if_pos fits
    rw [Book.render, template_builtin builtin, Except.map, interpolate_builtinTemplate,
      String.ofList_toList]
    simp only [Book.variables, whole, String.ofList_toList, Option.getD_some]

/-- A source that looks like placeholders is shown as it is. -/
theorem values_verbatim_braces :
    let b : Book := ⟨some (.root [("notes.txt", "")]), 40⟩
    let source := "// \x7b\x7bCHAIN\x7d\x7d \x7b\x7b\x7bSOURCE_CODE\x7d\x7d\x7d"
    (∀ files ∈ b.files, hasPrompt files (briefOf .security).promptFile.toList = false) ∧
    source.length ≤ b.maxSourceChars ∧
    ∃ front back : String, b.render .security { (default : Context) with source := source } =
      .ok ⟨(briefOf .security).systemPrompt, front ++ source ++ back⟩ := by
  intro b source
  have builtin : ∀ files ∈ b.files, hasPrompt files (briefOf .security).promptFile.toList =
      false := by
    rintro files ⟨⟩
    decide
  have fits : source.length ≤ b.maxSourceChars := by decide
  exact ⟨builtin, fits, _, _, values_verbatim.2 b .security default source builtin fits⟩

end AuditPanel.Prompt
