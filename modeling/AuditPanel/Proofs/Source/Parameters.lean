import AuditPanel.Proofs.Source.Header
import AuditPanel.Proofs.Text.Words

/-!
Parameters of functions. A parameter list falls into its parameters again, however their types are
nested, and each is read by its words: the first one is taken for the whole type.
-/

set_option autoImplicit false

namespace AuditPanel.Source

open AuditPanel.Text

/-- Whether no comma stands outside the parentheses of a text, of which `depth` are open before
it. -/
def nestsCommasFrom : Nat → List Char → Bool
  | _, [] => true
  | depth, c :: s =>
    (c != ',' || 0 < depth) &&
      nestsCommasFrom (if c = '(' then depth + 1 else if c = ')' then depth - 1 else depth) s

/-- A text that a list can have as one of its pieces. -/
structure IsPiece (s : List Char) : Prop where
  balanced : balancedFrom 0 s
  commas : nestsCommasFrom 0 s
  filled : words s ≠ []

private theorem splitTopLevelFrom_append {n : Nat} {s : List Char} (balanced : balancedFrom n s)
    (commas : nestsCommasFrom n s) (piece : List Char) (out : List (List Char)) (rest : List Char) :
    splitTopLevelFrom ',' n piece out (s ++ rest) = splitTopLevelFrom ',' 0 (s.reverse ++ piece) out
      rest := by
  induction balanced using balanced_induction generalizing piece with
  | nil => rfl
  | opening _ ih =>
    have later := ih (by simpa [nestsCommasFrom] using commas) ('(' :: piece)
    simpa [splitTopLevelFrom] using later
  | closing _ ih =>
    have later := ih (by simpa [nestsCommasFrom] using commas) (')' :: piece)
    simpa [splitTopLevelFrom] using later
  | @other depth c s opens closes _ ih =>
    simp only [nestsCommasFrom, opens, closes, if_false, Bool.and_eq_true] at commas
    have later := ih commas.2 (c :: piece)
    -- A comma here stands inside parentheses, and the piece goes on.
    have inside : ¬ (c = ',' ∧ (depth : Int) = 0) := by
      rintro ⟨rfl, zero⟩
      have open_ : 0 < depth := by simpa using commas.1
      omega
    rw [List.cons_append, splitTopLevelFrom, List.reverse_cons, List.append_assoc,
      List.singleton_append]
    simp only [opens, closes, if_false, inside]
    exact later

private theorem splitTopLevelFrom_pieces {w : List Char} {ws : List (List Char)}
    (pieces : ∀ v ∈ w :: ws, IsPiece v)
    {b : List Char} (blank : ∀ c ∈ b, isBlank c) (out : List (List Char)) :
    splitTopLevelFrom ',' 0 b.reverse out (w ++ ws.flatMap (", ".toList ++ ·)) =
      out.reverse ++ (w :: ws).map trim := by
  induction ws generalizing w b out with
  | nil =>
    have piece := pieces w List.mem_cons_self
    have own := splitTopLevelFrom_append piece.balanced piece.commas b.reverse out []
    have filled : (trim w).isEmpty = false := by
      have some_ := piece.filled
      rw [← words_trim] at some_
      rw [List.isEmpty_eq_false_iff]
      intro empty
      rw [empty] at some_
      contradiction
    rw [List.flatMap_nil]
    refine own.trans ?_
    simp only [splitTopLevelFrom, ← List.reverse_append, List.reverse_reverse,
      trim_blanks_append blank, filled]
    simp
  | cons v ws ih =>
    obtain ⟨piece, later⟩ := List.forall_mem_cons.mp pieces
    have own := splitTopLevelFrom_append piece.balanced piece.commas b.reverse out
      (',' :: ' ' :: (v ++ ws.flatMap (", ".toList ++ ·)))
    -- The blank behind the comma is the beginning of the next piece.
    have next := ih later (b := [' ']) (List.forall_mem_singleton.mpr (by decide)) (trim w :: out)
    rw [List.flatMap_cons]
    refine own.trans ?_
    simp only [splitTopLevelFrom, ← List.reverse_append, List.reverse_reverse,
      trim_blanks_append blank]
    refine Eq.trans ?_ (next.trans ?_)
    · simp
    · simp

theorem splitTopLevel_joinWith {ws : List (List Char)} (pieces : ∀ v ∈ ws, IsPiece v) :
    splitTopLevel ',' (joinWith ", ".toList ws) = ws.map trim := by
  cases ws with
  | nil => rfl
  | cons w ws =>
    rw [joinWith_cons, splitTopLevel]
    exact splitTopLevelFrom_pieces (b := []) pieces (by simp) []

/-- What is left open before the first text is closed in it, and what is open around it in the
second one. -/
theorem balancedFrom_append {around depth : Nat} {s t : List Char} (balanced : balancedFrom depth s)
    (balanced' : balancedFrom around t) : balancedFrom (around + depth) (s ++ t) := by
  induction balanced using balanced_induction with
  | nil => exact balanced'
  | opening _ ih => exact ih
  | closing _ ih => exact ih
  | other opens closes _ ih => simpa [balancedFrom, opens, closes] using ih

theorem nestsCommasFrom_of_not_mem {s : List Char} (none : ',' ∉ s) (depth : Nat) :
    nestsCommasFrom depth s := by
  induction s generalizing depth with
  | nil => rfl
  | cons c s ih =>
    rw [List.mem_cons, not_or] at none
    simp [nestsCommasFrom, ih none.2, Ne.symm none.1]

theorem nestsCommasFrom_append {depth : Nat} {s t : List Char} (nested : nestsCommasFrom depth s)
    (none : ',' ∉ t) :
    nestsCommasFrom depth (s ++ t) := by
  induction s generalizing depth with
  | nil => exact nestsCommasFrom_of_not_mem none depth
  | cons c s ih =>
    simp only [List.cons_append, nestsCommasFrom, Bool.and_eq_true] at nested ⊢
    exact ⟨nested.1, ih nested.2⟩

theorem balancedFrom_of_not_mem {s : List Char} (opens : '(' ∉ s) (closes : ')' ∉ s) :
    balancedFrom 0 s := by
  induction s with
  | nil => rfl
  | cons c s ih =>
    rw [List.mem_cons, not_or] at opens closes
    rw [balancedFrom.eq_def]
    simp only [Ne.symm opens.1, Ne.symm closes.1, if_false]
    exact ih opens.2 closes.2

private theorem balancedFrom_of_isPlain {s : List Char} (plain : isPlain s) : balancedFrom 0 s :=
  balancedFrom_of_not_mem (not_mem_of_isPlain plain (by decide))
    (not_mem_of_isPlain plain (by decide))

/-- A parameter as it is written: a type, a storage location and a name. -/
structure ParameterText where
  typeText : List Char
  location : Option String
  name : Option String
  piece : IsPiece typeText
  goesOn : endsHeader typeText = false
  typed : ∀ w ∈ (words typeText).head?, String.ofList w ∉ storageWords
  located : ∀ w ∈ location, w ∈ ["memory", "storage", "calldata"]
  named : ∀ w ∈ name, isName w.toList ∧ w ∉ storageWords

namespace ParameterText

/-- The words behind the type. -/
def labels (p : ParameterText) : List String :=
  p.location.toList ++ p.name.toList

def text (p : ParameterText) : List Char :=
  p.typeText ++ p.labels.flatMap fun w => ' ' :: w.toList

def typeWords (p : ParameterText) : List String :=
  (words p.typeText).map String.ofList

/-- What is read for a parameter: the first word of its type, and its name or else the last word of
its type after the first. -/
def read (p : ParameterText) : Parameter :=
  ⟨p.typeWords.headD "", p.name.or (p.typeWords.tail.filter (!storageWords.contains ·)).getLast?⟩

private theorem isName_of_mem_labels {p : ParameterText} {w : String} (member : w ∈ p.labels) :
    isName w.toList := by
  rcases List.mem_append.mp member with location | name
  · have names : ∀ w ∈ ["memory", "storage", "calldata"], isName w.toList := by decide
    exact names w (p.located w (Option.mem_toList.mp location))
  · exact (p.named w (Option.mem_toList.mp name)).1

private theorem isPlain_labels (p : ParameterText) :
    isPlain (p.labels.flatMap fun w => ' ' :: w.toList) := by
  refine List.all_eq_true.mpr ?_
  intro c member
  obtain ⟨w, label, inside⟩ := List.mem_flatMap.mp member
  rcases List.mem_cons.mp inside with rfl | inside
  · decide
  · exact List.all_eq_true.mp (isPlain_of_isName (isName_of_mem_labels label)) c inside

private theorem words_append_names {s : List Char} {ws : List String}
    (names : ∀ w ∈ ws, isName w.toList) :
    words (s ++ ws.flatMap fun w => ' ' :: w.toList) = words s ++ ws.map String.toList := by
  induction ws generalizing s with
  | nil => simp
  | cons w ws ih =>
    obtain ⟨name, later⟩ := List.forall_mem_cons.mp names
    have solid : ∀ c ∈ w.toList, isBlank c = false :=
      fun c member => isBlank_eq_false_of_isWordChar (isWordChar_of_mem_name name member)
    have filled : w.toList ≠ [] := List.ne_nil_of_length_pos (length_pos_of_isName name)
    have split : s ++ (w :: ws).flatMap (fun w => ' ' :: w.toList) =
        (s ++ ' ' :: w.toList) ++ ws.flatMap fun w => ' ' :: w.toList := by simp
    rw [split, ih later, words_append_blank (by decide), words_of_solid filled solid]
    simp

private theorem words_text (p : ParameterText) :
    (words p.text).map String.ofList = p.typeWords ++ p.labels := by
  rw [text, words_append_names fun w => isName_of_mem_labels]
  simp [typeWords]

theorem isPiece_text (p : ParameterText) : IsPiece p.text where
  balanced := balancedFrom_append p.piece.balanced (balancedFrom_of_isPlain p.isPlain_labels)
  commas := nestsCommasFrom_append p.piece.commas (not_mem_of_isPlain p.isPlain_labels (by decide))
  filled := by
    intro none
    have all := p.words_text
    rw [none, List.map_nil, eq_comm, List.append_eq_nil_iff, typeWords, List.map_eq_nil_iff] at all
    exact p.piece.filled all.1

private theorem filter_labels (p : ParameterText) :
    p.labels.filter (!storageWords.contains ·) = p.name.toList := by
  have locations : ∀ w ∈ ["memory", "storage", "calldata"], w ∈ storageWords := by decide
  have location : ∀ w ∈ p.location.toList, w ∈ storageWords :=
    fun w member => locations w (p.located w (Option.mem_toList.mp member))
  have name : ∀ w ∈ p.name.toList, w ∉ storageWords := fun w member =>
    (p.named w (Option.mem_toList.mp member)).2
  rw [labels, List.filter_append, List.filter_eq_nil_iff.mpr, List.filter_eq_self.mpr,
    List.nil_append]
  · intro w member
    simpa using name w member
  · intro w member
    simpa using location w member

private theorem parameter?_text (p : ParameterText) : parameter? p.text = some p.read := by
  obtain ⟨first, more, split⟩ := List.exists_cons_of_ne_nil p.piece.filled
  have typed : String.ofList first ∉ storageWords := p.typed first (by simp [split])
  have kept : ((words p.text).map String.ofList).filter (!storageWords.contains ·) =
      String.ofList first ::
        ((more.map String.ofList).filter (!storageWords.contains ·) ++ p.name.toList) := by
    rw [words_text, typeWords, split, List.filter_append, filter_labels, List.map_cons,
      List.filter_cons_of_pos]
    · rfl
    · simpa using typed
  have last :
    ((more.map String.ofList).filter (!storageWords.contains ·) ++ p.name.toList).getLast? =
      p.name.or ((more.map String.ofList).filter (!storageWords.contains ·)).getLast? := by
    cases p.name <;> simp
  rw [parameter?, kept, read, typeWords, split]
  simp only [last, List.map_cons, List.headD_cons, List.tail_cons]

end ParameterText

/-- Parameters, a comma and a blank between two of them. -/
def parametersText (ps : List ParameterText) : List Char :=
  joinWith ", ".toList (ps.map (·.text))

private theorem parameters_parametersText (ps : List ParameterText) :
    parameters (parametersText ps) = ps.map (·.read) := by
  have pieces : ∀ v ∈ ps.map (·.text), IsPiece v := by
    intro v member
    obtain ⟨p, -, rfl⟩ := List.mem_map.mp member
    exact p.isPiece_text
  have trimmed (p : ParameterText) : parameter? (trim p.text) = some p.read := by
    rw [← p.parameter?_text, parameter?, words_trim, parameter?]
  rw [parameters, parametersText, splitTopLevel_joinWith pieces, List.map_map, List.filterMap_map,
    ← List.filterMap_eq_map]
  exact List.filterMap_congr fun p _ => trimmed p

private theorem balancedFrom_joinWith {ws : List (List Char)}
    (balanced : ∀ w ∈ ws, balancedFrom 0 w) :
    balancedFrom 0 (joinWith ", ".toList ws) := by
  cases ws with
  | nil => rfl
  | cons w ws =>
    obtain ⟨first, later⟩ := List.forall_mem_cons.mp balanced
    rw [joinWith_cons]
    refine balancedFrom_append first ?_
    clear balanced first
    induction ws with
    | nil => rfl
    | cons v ws ih =>
      obtain ⟨next, later⟩ := List.forall_mem_cons.mp later
      have comma : balancedFrom 0 ", ".toList := by decide
      exact balancedFrom_append (balancedFrom_append comma next) (ih later)

theorem ParameterText.endsHeader_text (p : ParameterText) : endsHeader p.text = false := by
  rw [text, endsHeader_append, p.goesOn, endsHeader_of_isPlain p.isPlain_labels]
  rfl

private theorem endsHeader_parametersText (ps : List ParameterText) :
    endsHeader (parametersText ps) = false := by
  have inside {c : Char} (separate : c ∉ ", ".toList) (none : ∀ p ∈ ps, c ∉ p.text) :
      c ∉ parametersText ps := by
    rw [parametersText, mem_joinWith separate, ← List.flatMap_def, List.mem_flatMap]
    rintro ⟨p, member, here⟩
    exact none p member here
  have goesOn (p : ParameterText) := endsHeader_eq_false_iff.mp p.endsHeader_text
  exact endsHeader_eq_false_iff.mpr
    ⟨inside (by decide) fun p _ => (goesOn p).1, inside (by decide) fun p _ => (goesOn p).2⟩

private theorem balancedFrom_parametersText (ps : List ParameterText) :
    balancedFrom 0 (parametersText ps) := by
  refine balancedFrom_joinWith ?_
  intro w member
  obtain ⟨p, -, rfl⟩ := List.mem_map.mp member
  exact p.isPiece_text.balanced

/-- A parameter with exactly the name and, blanks aside, the type that is written. -/
structure ParameterText.IsReadAs (p : ParameterText) (q : Parameter) : Prop where
  name : q.name = p.name
  typeName : q.typeName.toList.filter (!isBlank ·) = p.typeText.filter (!isBlank ·)

private theorem ParameterText.isReadAs_read_iff (p : ParameterText) :
    p.IsReadAs p.read ↔ (words p.typeText).length = 1 := by
  obtain ⟨first, more, split⟩ := List.exists_cons_of_ne_nil p.piece.filled
  have solid : first.filter (!isBlank ·) = first := by
    refine List.filter_eq_self.mpr ?_
    intro c member
    simp [solid_of_mem_words (s := p.typeText) (by simp [split]) c member]
  have typeText : p.typeText.filter (!isBlank ·) = first ++ more.flatten := by
    rw [← flatten_words, split, List.flatten_cons]
  have typeName : p.read.typeName.toList = first := by
    rw [read, typeWords, split]
    exact String.toList_ofList
  constructor
  · rintro ⟨-, same⟩
    -- The type that is read is the first word, so no other word may stand behind it.
    rw [typeName, typeText, solid, List.self_eq_append_right] at same
    cases more with
    | nil => rw [split]; rfl
    | cons w more =>
      have filled : w ≠ [] := ne_nil_of_mem_words (s := p.typeText) (by simp [split])
      rw [List.flatten_cons, List.append_eq_nil_iff] at same
      exact absurd same.1 filled
  · intro one
    obtain rfl : more = [] := by simpa [split] using one
    refine ⟨?_, ?_⟩
    · rw [read, typeWords, split]
      exact Option.or_none
    · rw [typeName, typeText, solid]
      exact (List.append_nil first).symm

/-- Parameters on the line that starts a header are read each by its words, and as they are written
exactly if each type is one word. -/
theorem functions_parameters {cleaned front rest : List Char} {n : Nat}
    {start : String × FunctionKind}
    (ps : List ParameterText) (plain : isPlain front)
    (started : headerStart? (front ++ ['(']) = some start)
    (place : (lines cleaned)[n]? = some (front ++ '(' :: (parametersText ps ++ ')' :: rest))) :
    ∃ d, (extract cleaned).functions.filter (·.line = n + 1) = [d] ∧ d.name = start.1 ∧
      d.kind = start.2 ∧ d.parameters = ps.map (·.read) ∧
      (List.Forall₂ ParameterText.IsReadAs ps d.parameters ↔ ∀ p ∈ ps, (words p.typeText).length =
        1) := by
  have line : headerStart? (front ++ '(' :: (parametersText ps ++ ')' :: rest)) = some start := by
    have later := headerStart?_append started (parametersText ps ++ ')' :: rest)
    rwa [List.append_assoc, List.singleton_append] at later
  have read :
    parameters (headerParts (headerText (((front ++ '(' :: (parametersText ps ++ ')' :: rest)) ::
      (lines cleaned).drop (n + 1)).take headerLines))).1 = ps.map (·.read) := by
    have goesOn : endsHeader (front ++ '(' :: (parametersText ps ++ [')'])) = false := by
      have split : front ++ '(' :: (parametersText ps ++ [')']) = front ++
        (['('] ++ (parametersText ps ++ [')'])) := rfl
      simp only [split, endsHeader_append, endsHeader_of_isPlain plain, endsHeader_parametersText]
      rfl
    have split : front ++ '(' :: (parametersText ps ++ ')' :: rest) =
        (front ++ '(' :: (parametersText ps ++ [')'])) ++ rest := by simp
    rw [headerLines, List.take_succ_cons, split, headerText_append goesOn, List.append_assoc,
      List.cons_append, List.append_assoc, List.singleton_append,
      headerParts_append _ (balancedFrom_parametersText ps)]
    · exact parameters_parametersText ps
    · exact not_mem_of_isPlain plain (by decide)
  refine ⟨_, functions_filter_of_headerStart? place line, rfl, rfl, read, ?_⟩
  have all : List.Forall₂ ParameterText.IsReadAs ps (ps.map (·.read)) ↔ ∀ p ∈ ps,
      p.IsReadAs p.read := by
    rw [List.forall₂_map_right_iff, List.forall₂_same]
  rw [show (functionOf _ _ _ _ _).parameters = ps.map (·.read) from read, all]
  exact forall₂_congr fun p _ => p.isReadAs_read_iff

/-- Types of one word: an array, a mapping without blanks, a contract and a type of a fixed size. -/
def solidParameters : List ParameterText :=
  [⟨"uint256[]".toList, some "calldata", some "ids",
    ⟨by decide, by decide, by decide⟩, by decide, by decide, by decide,
    by decide⟩,
   ⟨"mapping(address=>(uint,bool))".toList, some "storage", none,
     ⟨by decide, by decide, by decide⟩, by decide, by decide,
    by decide, by decide⟩,
   ⟨"IERC20".toList, none, some "memory_",
     ⟨by decide, by decide, by decide⟩, by decide, by decide, by decide, by decide⟩,
   ⟨"bytes32".toList, none, none,
     ⟨by decide, by decide, by decide⟩, by decide, by decide, by decide, by decide⟩]

/-- The source of a function with the given parameters on its second line. -/
def functionWith (ps : List ParameterText) : List Char :=
  "contract A \x7b\nfunction f(".toList ++
    (parametersText ps ++ ") external \x7b\n\x7d\n\x7d".toList)

theorem functions_parameters_solid :
    (lines (functionWith solidParameters))[1]? =
        some
          ("function f".toList ++ '(' ::
            (parametersText solidParameters ++ ')' :: " external \x7b".toList)) ∧
      (∀ p ∈ solidParameters, (words p.typeText).length = 1) ∧
      ∃ d, (extract (functionWith solidParameters)).functions.filter (·.line = 2) = [d] ∧
        d.parameters.map (·.name) = [some "ids", none, some "memory_", none] ∧
        List.Forall₂ ParameterText.IsReadAs solidParameters d.parameters := by
  have place : (lines (functionWith solidParameters))[1]? =
      some
        ("function f".toList ++ '(' ::
          (parametersText solidParameters ++ ')' :: " external \x7b".toList)) := by
    decide
  have solid : ∀ p ∈ solidParameters, (words p.typeText).length = 1 := by decide
  have started : headerStart? ("function f".toList ++ ['(']) = some ("f", .function) := by decide
  obtain ⟨d, found, -, -, read, written⟩ :=
    functions_parameters solidParameters (by decide) started place
  refine ⟨place, solid, d, found, ?_, written.mpr solid⟩
  rw [read]
  decide

/-- A payable address with a name, one without, and a mapping. -/
def spacedParameters : List ParameterText :=
  [⟨"address payable".toList, none, some "to",
    ⟨by decide, by decide, by decide⟩, by decide, by decide, by decide,
    by decide⟩,
   ⟨"address payable".toList, none, none,
     ⟨by decide, by decide, by decide⟩, by decide, by decide, by decide, by decide⟩,
   ⟨"mapping(address => uint)".toList, some "storage", none,
     ⟨by decide, by decide, by decide⟩, by decide, by decide,
    by decide, by decide⟩]

/-- Types of several words lose all words but the first, and the last one is taken for the name if
there is none. -/
theorem not_isReadAs_spaced :
    ∃ d, (extract (functionWith spacedParameters)).functions = [d] ∧
      d.parameters =
        [⟨"address", some "to"⟩, ⟨"address", some "payable"⟩, ⟨"mapping(address", some "uint)"⟩] ∧
      ¬ List.Forall₂ ParameterText.IsReadAs spacedParameters d.parameters := by
  refine ⟨⟨"f", .function, some "A", .externally, .nonpayable,
    [⟨"address", some "to"⟩, ⟨"address", some "payable"⟩, ⟨"mapping(address", some "uint)"⟩], [],
    2⟩, by decide +kernel, rfl, ?_⟩
  intro read
  obtain ⟨first, -⟩ := List.forall₂_cons.mp read
  exact absurd first.typeName (by decide)

end AuditPanel.Source
