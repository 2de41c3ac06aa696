import AuditPanel.Proofs.Source.Parameters
import AuditPanel.Source.Record

/-!
Headers of contracts with an inheritance list. The list falls into its bases again, however their
arguments are nested. A dollar sign is a letter of the language but none of a name here: it ends the
name of the contract, and the list behind it is not seen.
-/

set_option autoImplicit false

namespace AuditPanel.Source

open AuditPanel.Text

/-- Whether a text is an identifier of the language, where a dollar sign counts as a letter. -/
def isIdentifier : List Char → Bool
  | [] => false
  | c :: rest => (isNameStart c || c == '$') && rest.all fun d => isWordChar d || d == '$'

private theorem forall_mem_identifier {w : List Char} (named : isIdentifier w) {c : Char}
    (member : c ∈ w) :
    isWordChar c ∨ c = '$' := by
  cases w with
  | nil => cases member
  | cons d w =>
    simp only [isIdentifier, Bool.and_eq_true, Bool.or_eq_true, beq_iff_eq, List.all_eq_true]
      at named
    rcases List.mem_cons.mp member with rfl | later
    · exact named.1.imp_left isWordChar_of_isNameStart
    · exact named.2 c later

private theorem isName_of_isIdentifier {w : List Char} (named : isIdentifier w) (none : '$' ∉ w) :
    isName w := by
  cases w with
  | nil => cases named
  | cons c w =>
    have other : ∀ d ∈ c :: w, d ≠ '$' := fun d member => ne_of_mem_of_not_mem member none
    simp only [isIdentifier, Bool.and_eq_true, Bool.or_eq_true, beq_iff_eq, List.all_eq_true]
      at named
    simp only [isName, Bool.and_eq_true, List.all_eq_true]
    exact ⟨named.1.resolve_right (other c List.mem_cons_self),
      fun d member => (named.2 d member).resolve_right (other d (List.mem_cons_of_mem c member))⟩

private theorem identifier?_identifier {w : List Char} (named : isIdentifier w) {rest : List Char}
    (ends : endsWord rest) :
    identifier? (w ++ rest) =
      if w.head? = some '$' then none
          else some (w.takeWhile (· != '$'), w.dropWhile (· != '$') ++ rest) := by
  have mark : isNameStart '$' = false ∧ isWordChar '$' = false := by decide
  cases w with
  | nil => cases named
  | cons c w =>
    by_cases first : c = '$'
    · simp [first, identifier?, mark.1]
    rw [if_neg (by simpa using first)]
    have inside : ∀ d ∈ (c :: w).takeWhile (· != '$'), d ∈ c :: w ∧ d ≠ '$' := by
      intro d member
      have all := List.all_eq_true.mp (List.all_takeWhile (p := (· != '$'))) d member
      exact ⟨(List.takeWhile_prefix _).subset member, by simpa using all⟩
    have front : isName ((c :: w).takeWhile (· != '$')) := by
      refine isName_of_isIdentifier ?_ fun member => (inside '$' member).2 rfl
      simp only [isIdentifier, Bool.and_eq_true, List.all_eq_true] at named
      rw [List.takeWhile_cons_of_pos (by simpa using first)]
      simp only [isIdentifier, Bool.and_eq_true, List.all_eq_true]
      exact ⟨named.1, fun d member => named.2 d ((List.takeWhile_prefix _).subset member)⟩
    have behind : endsWord ((c :: w).dropWhile (· != '$') ++ rest) := by
      cases left : (c :: w).dropWhile (· != '$') with
      | nil => exact ends
      | cons d more =>
        have stops := List.head?_dropWhile_not (· != '$') (c :: w)
        rw [left] at stops
        obtain rfl : d = '$' := by simpa using stops
        simp [endsWord, mark.2]
    have read := identifier?_append front behind
    rwa [← List.append_assoc, List.takeWhile_append_dropWhile] at read

/-- A base as it is written: a dotted path, with or without arguments. -/
structure BaseText where
  path : List (List Char)
  arguments : Option (List Char)
  dotted : path ≠ []
  named : ∀ w ∈ path, isIdentifier w
  balanced : ∀ a ∈ arguments, balancedFrom 0 a
  goesOn : ∀ a ∈ arguments, '\x7b' ∉ a

private theorem nestsCommasFrom_of_balancedFrom {depth : Nat} {s : List Char}
    (balanced : balancedFrom depth s) :
    nestsCommasFrom (depth + 1) s := by
  induction balanced using balanced_induction with
  | nil => rfl
  | opening _ ih => simpa [nestsCommasFrom] using ih
  | closing _ ih => simpa [nestsCommasFrom] using ih
  | other opens closes _ ih => simpa [nestsCommasFrom, opens, closes] using ih

private theorem balancedFrom_parens {s : List Char} (balanced : balancedFrom 0 s) :
    balancedFrom 0 ('(' :: (s ++ [')'])) := by
  have closed : balancedFrom 1 [')'] := by decide
  have inside : balancedFrom 1 (s ++ [')']) := balancedFrom_append balanced closed
  simpa [balancedFrom] using inside

private theorem nestsCommasFrom_marks {s : List Char} (opens : '(' ∉ s) (closes : ')' ∉ s)
    (comma : ',' ∉ s) (t : List Char) :
    nestsCommasFrom 0 (s ++ t) = nestsCommasFrom 0 t := by
  induction s with
  | nil => rfl
  | cons c s ih =>
    rw [List.mem_cons, not_or] at opens closes comma
    simp [nestsCommasFrom, Ne.symm opens.1, Ne.symm closes.1, Ne.symm comma.1,
      ih opens.2 closes.2 comma.2]

private theorem splitTopLevelFrom_concat_blank (depth : Int) (piece : List Char)
    (out : List (List Char)) (s : List Char) :
    splitTopLevelFrom ',' depth piece out (s ++ [' ']) = splitTopLevelFrom ',' depth piece
      out s := by
  induction s generalizing depth piece out with
  | nil =>
    have trimmed : trim (piece.reverse ++ [' ']) = trim piece.reverse :=
      trim_append_blanks (List.forall_mem_singleton.mpr (by decide)) _
    simp [splitTopLevelFrom, trimmed]
  | cons c s ih =>
    simp only [List.cons_append, splitTopLevelFrom, ih]

namespace BaseText

def name (b : BaseText) : List Char :=
  joinWith ['.'] b.path

def text (b : BaseText) : List Char :=
  b.name ++ b.arguments.elim [] fun a => '(' :: (a ++ [')'])

private theorem forall_mem_name {b : BaseText} {c : Char} (member : c ∈ b.name) :
    isWordChar c ∨ c = '$' ∨ c = '.' := by
  by_cases dot : c = '.'
  · exact .inr (.inr dot)
  rw [name, mem_joinWith (by simpa using dot)] at member
  obtain ⟨w, listed, inside⟩ := List.mem_flatten.mp member
  exact (forall_mem_identifier (b.named w listed) inside).imp_right .inl

private theorem name_ne_nil (b : BaseText) : b.name ≠ [] := by
  obtain ⟨w, ws, split⟩ := List.exists_cons_of_ne_nil b.dotted
  have filled : w ≠ [] := by
    rintro rfl
    have named := b.named [] (by simp [split])
    cases named
  rw [name, split, joinWith_cons]
  exact List.append_ne_nil_of_left_ne_nil filled _

private theorem not_mem_name (b : BaseText) {c : Char}
    (mark : isWordChar c = false ∧ c ≠ '$' ∧ c ≠ '.') : c ∉ b.name := by
  intro member
  have letter := forall_mem_name member
  simp [mark] at letter

private theorem isBlank_eq_false_of_mem_name {b : BaseText} {c : Char} (member : c ∈ b.name) :
    isBlank c = false := by
  rcases forall_mem_name member with word | rfl | rfl
  · exact isBlank_eq_false_of_isWordChar word
  · decide
  · decide

private theorem text_cases (b : BaseText) :
    b.text = b.name ∨ ∃ a, balancedFrom 0 a ∧ '\x7b' ∉ a ∧
      b.text = b.name ++ '(' :: (a ++ [')']) := by
  cases found : b.arguments with
  | none =>
    left
    simp [text, found]
  | some a =>
    right
    exact ⟨a, b.balanced a found, b.goesOn a found, by simp [text, found]⟩

theorem isPiece_text (b : BaseText) : IsPiece b.text := by
  have opens : '(' ∉ b.name := b.not_mem_name (by decide)
  have closes : ')' ∉ b.name := b.not_mem_name (by decide)
  have comma : ',' ∉ b.name := b.not_mem_name (by decide)
  have filled : words b.text ≠ [] := by
    obtain ⟨c, more, split⟩ := List.exists_cons_of_ne_nil b.name_ne_nil
    have solid : isBlank c = false := isBlank_eq_false_of_mem_name (b := b) (by simp [split])
    intro none
    have all := flatten_words (s := b.text)
    rw [none, text, split] at all
    simp [solid] at all
  rcases b.text_cases with bare | ⟨a, balanced, -, called⟩
  · refine ⟨?_, ?_, filled⟩
    · rw [bare]
      exact balancedFrom_of_not_mem opens closes
    · rw [bare]
      exact nestsCommasFrom_of_not_mem comma 0
  · refine ⟨?_, ?_, filled⟩
    · rw [called]
      exact balancedFrom_append (balancedFrom_of_not_mem opens closes)
        (balancedFrom_parens balanced)
    · rw [called, nestsCommasFrom_marks opens closes comma]
      exact nestsCommasFrom_append (nestsCommasFrom_of_balancedFrom balanced) (by decide)

private theorem trim_text (b : BaseText) : trim b.text = b.text := by
  have solid : ∀ c ∈ b.name, isBlank c = false := fun c => isBlank_eq_false_of_mem_name
  apply trim_of_solid_ends
  · intro c first
    obtain ⟨d, more, split⟩ := List.exists_cons_of_ne_nil b.name_ne_nil
    obtain rfl : d = c := by simpa [text, split] using first
    exact solid d (by simp [split])
  · intro c last
    rcases b.text_cases with bare | ⟨a, -, -, called⟩
    · rw [bare] at last
      exact solid c (List.mem_of_getLast? last)
    · rw [called, ← List.cons_append, ← List.append_assoc, List.getLast?_concat] at last
      obtain rfl := Option.some.inj last
      decide

private theorem head?_runsBetween_text (b : BaseText) :
    (runsBetween (fun c => c == '(' || c == ' ') b.text).head? = some b.name := by
  have inside : ∀ c ∈ b.name, (c == '(' || c == ' ') = false := by
    intro c member
    have paren : c ≠ '(' := ne_of_mem_of_not_mem member (b.not_mem_name (by decide))
    have blank : c ≠ ' ' := ne_of_mem_of_not_mem member (b.not_mem_name (by decide))
    simp [paren, blank]
  apply head?_runsBetween b.name_ne_nil inside
  intro c first
  cases found : b.arguments with
  | none => simp [found] at first
  | some a =>
    obtain rfl : '(' = c := by simpa [found] using first
    rfl

private theorem not_mem_text (b : BaseText) : '\x7b' ∉ b.text := by
  have none : '\x7b' ∉ b.name := b.not_mem_name (by decide)
  rcases b.text_cases with bare | ⟨a, -, goesOn, called⟩
  · rwa [bare]
  · simp [called, none, goesOn]

end BaseText

/-- Bases, a comma and a blank between two of them. -/
def basesText (bs : List BaseText) : List Char :=
  joinWith ", ".toList (bs.map (·.text))

private theorem basesOf_basesText (bs : List BaseText) :
    basesOf (basesText bs ++ [' ']) = bs.map fun b => String.ofList b.name := by
  have pieces : ∀ v ∈ bs.map (·.text), IsPiece v := by
    intro v member
    obtain ⟨b, -, rfl⟩ := List.mem_map.mp member
    exact b.isPiece_text
  have read (b : BaseText) :
      ((runsBetween (fun c => c == '(' || c == ' ') (trim b.text)).head?).map String.ofList =
        some (String.ofList b.name) := by
    rw [b.trim_text, b.head?_runsBetween_text, Option.map_some]
  rw [basesOf, splitTopLevel, splitTopLevelFrom_concat_blank, ← splitTopLevel, basesText,
    splitTopLevel_joinWith pieces, List.map_map, List.filterMap_map, ← List.filterMap_eq_map]
  exact List.filterMap_congr fun b _ => read b

private theorem not_mem_basesText (bs : List BaseText) : '\x7b' ∉ basesText bs := by
  rw [basesText, mem_joinWith (by decide), ← List.flatMap_def, List.mem_flatMap]
  rintro ⟨b, -, inside⟩
  exact b.not_mem_text inside

/-- The header of a contract in one line, up to the brace of its body. -/
structure ContractHeader where
  lead : List Char
  isAbstract : Bool
  kind : ContractKind
  name : List Char
  bases : List BaseText
  lead_blank : isAllBlank lead
  named : isIdentifier name
  filled : bases ≠ []

namespace ContractHeader

def front (h : ContractHeader) : List Char :=
  h.lead ++ ((if h.isAbstract then "abstract ".toList else []) ++ (h.kind.name.toList ++ [' ']))

def list (h : ContractHeader) : List Char :=
  " is ".toList ++ (basesText h.bases ++ " \x7b".toList)

def text (h : ContractHeader) : List Char :=
  h.front ++ (h.name ++ h.list)

def declared (h : ContractHeader) (line : Nat) : ContractDecl :=
  ⟨h.kind, String.ofList h.name, h.isAbstract, h.bases.map fun b => String.ofList b.name, line⟩

/-- What is read for the header on a line: nothing if its name starts with a dollar sign, and with
one later the name up to it and no bases. -/
def read (h : ContractHeader) (line : Nat) : Option ContractDecl :=
  if h.name.head? = some '$' then none
  else
    some ⟨h.kind, String.ofList (h.name.takeWhile (· != '$')), h.isAbstract,
      if '$' ∈ h.name then [] else h.bases.map fun b => String.ofList b.name, line⟩

private theorem read_eq_some_declared_iff (h : ContractHeader) (line : Nat) :
    h.read line = some (h.declared line) ↔ '$' ∉ h.name := by
  constructor
  · intro same none
    rw [read] at same
    split at same
    · cases same
    · have bases := congrArg ContractDecl.inherits (Option.some.inj same)
      simp [declared, h.filled] at bases
  · intro none
    have first : h.name.head? ≠ some '$' := fun first => none (List.mem_of_mem_head? first)
    have kept : h.name.takeWhile (· != '$') = h.name := by
      rw [List.takeWhile_eq_self_iff]
      intro c member
      simpa using ne_of_mem_of_not_mem member none
    rw [read, if_neg first, if_neg none, kept, declared]

private theorem inheritance_list (h : ContractHeader) (body : List Char) :
    inheritance (h.list ++ body) = h.bases.map fun b => String.ofList b.name := by
  have text : h.list ++ body = ' ' ::
      ("is".toList ++ ' ' :: ((basesText h.bases ++ [' ']) ++ '\x7b' :: body)) := by
    simp [list]
  have started : trimStart ((basesText h.bases ++ [' ']) ++ '\x7b' :: body) =
      (basesText h.bases ++ [' ']) ++ '\x7b' :: body := by
    obtain ⟨b, bs, split⟩ := List.exists_cons_of_ne_nil h.filled
    obtain ⟨c, more, name⟩ := List.exists_cons_of_ne_nil b.name_ne_nil
    have solid : isBlank c = false :=
      BaseText.isBlank_eq_false_of_mem_name (b := b) (by simp [name])
    rw [basesText, split, List.map_cons, joinWith_cons, BaseText.text, name]
    exact trimStart_cons solid _
  have opened :
    after? "is" ("is".toList ++ ' ' :: ((basesText h.bases ++ [' ']) ++ '\x7b' :: body)) =
      some (' ' :: ((basesText h.bases ++ [' ']) ++ '\x7b' :: body)) := after?_eq_some_iff.mpr rfl
  have taken : ((basesText h.bases ++ [' ']) ++ '\x7b' :: body).takeWhile (· != '\x7b') =
      basesText h.bases ++ [' '] := by
    have none : '\x7b' ∉ basesText h.bases ++ [' '] := by simp [not_mem_basesText]
    have inside : ∀ c ∈ basesText h.bases ++ [' '], (c != '\x7b') = true := by
      intro c member
      simpa using ne_of_mem_of_not_mem member none
    rw [List.takeWhile_append_of_pos inside, List.takeWhile_cons_of_neg (by decide),
      List.append_nil]
  have first :
    afterBlanks? (' ' :: ("is".toList ++ ' ' :: ((basesText h.bases ++ [' ']) ++ '\x7b' :: body))) =
      some ("is".toList ++ ' ' :: ((basesText h.bases ++ [' ']) ++ '\x7b' :: body)) := rfl
  have second : afterBlanks? (' ' :: ((basesText h.bases ++ [' ']) ++ '\x7b' :: body)) =
      some (trimStart ((basesText h.bases ++ [' ']) ++ '\x7b' :: body)) := rfl
  rw [started] at second
  simp only [inheritance, text, first, opened, second, bind, Option.bind_some, taken]
  exact basesOf_basesText h.bases

/-- The contract that a line declares is headed behind the word `abstract`, or at the front of the
line. -/
private theorem contractLine?_eq (s : List Char) (line : Nat) :
    contractLine? s line =
      (contractHead? (((after? "abstract" (trimStart s)).bind afterBlanks?).getD (trimStart s))).map
        fun head =>
        ⟨head.1, String.ofList head.2.1,
          ((after? "abstract" (trimStart s)).bind afterBlanks?).isSome,
          inheritance head.2.2, line⟩ := by
  rw [contractLine?]
  cases (after? "abstract" (trimStart s)).bind afterBlanks? <;> rfl

private theorem contractHead?_identifier (kind : ContractKind) {w rest : List Char}
    (named : isIdentifier w) (ends : endsWord rest) :
    contractHead? (kind.name.toList ++ ' ' :: (w ++ rest)) =
      if w.head? = some '$' then none
      else some (kind, w.takeWhile (· != '$'), w.dropWhile (· != '$') ++ rest) := by
  have opened : wordOf? contractWords (kind.name.toList ++ ' ' :: (w ++ rest)) =
      some (kind, ' ' :: (w ++ rest)) := by
    cases kind <;> rfl
  have trimmed : trimStart (w ++ rest) = w ++ rest := by
    obtain ⟨c, more, rfl⟩ : ∃ c more, w = c :: more := by
      refine List.exists_cons_of_ne_nil ?_
      rintro rfl
      cases named
    apply trimStart_cons
    rcases forall_mem_identifier named List.mem_cons_self with word | rfl
    · exact isBlank_eq_false_of_isWordChar word
    · decide
  have spaced : afterBlanks? (' ' :: (w ++ rest)) = some (trimStart (w ++ rest)) := rfl
  rw [trimmed] at spaced
  simp only [contractHead?, opened, bind, Option.bind_some, spaced,
    identifier?_identifier named ends]
  split <;> rfl

private theorem inheritance_behind (h : ContractHeader) (body : List Char) :
    inheritance (h.name.dropWhile (· != '$') ++ (h.list ++ body)) =
      if '$' ∈ h.name then [] else h.bases.map fun b => String.ofList b.name := by
  cases left : h.name.dropWhile (· != '$') with
  | nil =>
    have none : '$' ∉ h.name := by
      intro member
      have inside := List.dropWhile_eq_nil_iff.mp left '$' member
      simp at inside
    rw [if_neg none, List.nil_append, inheritance_list]
  | cons d more =>
    have stops := List.head?_dropWhile_not (· != '$') h.name
    rw [left] at stops
    obtain rfl : d = '$' := by simpa using stops
    have some_ : '$' ∈ h.name := (List.dropWhile_suffix _).subset (left ▸ List.mem_cons_self)
    rw [if_pos some_]
    rfl

private theorem trimStart_text (h : ContractHeader) (body : List Char) :
    trimStart (h.text ++ body) = (if h.isAbstract then "abstract ".toList else []) ++
      (h.kind.name.toList ++ ' ' :: (h.name ++ (h.list ++ body))) := by
  have split : h.text ++ body = h.lead ++ ((if h.isAbstract then "abstract ".toList else []) ++
      (h.kind.name.toList ++ ' ' :: (h.name ++ (h.list ++ body)))) := by
    simp only [text, front, List.append_assoc, List.cons_append, List.nil_append]
  rw [split, trimStart_append h.lead_blank]
  cases h.isAbstract <;> cases h.kind <;> rfl

private theorem marked_text (h : ContractHeader) (body : List Char) :
    (after? "abstract" (trimStart (h.text ++ body))).bind afterBlanks? =
      if h.isAbstract then some (h.kind.name.toList ++ ' ' :: (h.name ++ (h.list ++ body)))
          else none := by
  rw [trimStart_text]
  cases h.isAbstract <;> cases h.kind <;> rfl

private theorem contractLine?_text (h : ContractHeader) (body : List Char) (line : Nat) :
    contractLine? (h.text ++ body) line = h.read line := by
  have ends : endsWord (h.list ++ body) := rfl
  have behind : ((after? "abstract" (trimStart (h.text ++ body))).bind afterBlanks?).getD
    (trimStart (h.text ++ body)) = h.kind.name.toList ++ ' ' :: (h.name ++ (h.list ++ body)) := by
    rw [marked_text, trimStart_text]
    cases h.isAbstract <;> rfl
  have isAbstract : ((after? "abstract" (trimStart (h.text ++ body))).bind afterBlanks?).isSome =
      h.isAbstract := by
    rw [marked_text]
    cases h.isAbstract <;> rfl
  rw [contractLine?_eq, behind, isAbstract, contractHead?_identifier h.kind h.named ends, read]
  split
  · rfl
  · rw [Option.map_some, inheritance_behind]

private theorem exists_first_word (h : ContractHeader) (body : List Char) :
    ∃ word ∈ nonVariableWords, (words (h.text ++ body)).head? = some word.toList := by
  obtain ⟨blanks, split, blank⟩ := exists_trimStart (h.text ++ body)
  have first (word : String) (filled : word.toList ≠ []) (solid : word.toList.all (!isBlank ·))
    (rest : List Char) :
      (words (word.toList ++ ' ' :: rest)).head? = some word.toList := by
    apply head?_runsBetween filled (by simpa using solid)
    rintro c ⟨⟩
    decide
  rw [split, words_blanks_append (List.all_eq_true.mp blank), h.trimStart_text]
  cases h.isAbstract with
  | true =>
    exact ⟨"abstract", by decide, first "abstract" (by decide) (by decide) _⟩
  | false =>
    refine ⟨h.kind.name, ?_, ?_⟩
    · cases h.kind <;> decide
    · apply first
      · cases h.kind <;> decide
      · cases h.kind <;> decide

private theorem item?_text (h : ContractHeader) (body : List Char) (p : Position)
    (ls : List (List Char)) (line : Nat) :
    item? p ((h.text ++ body) :: ls) line = (h.read line).map .contract := by
  have function : functionLine? (h.text ++ body) = none := by
    rw [functionLine?, trimStart_text]
    cases h.isAbstract <;> cases h.kind <;> rfl
  have special : specialLine? (h.text ++ body) = none := by
    rw [specialLine?, trimStart_text]
    cases h.isAbstract <;> cases h.kind <;> rfl
  have modifier : modifierLine? (h.text ++ body) p.owner line = none := by
    rw [modifierLine?, trimStart_text]
    cases h.isAbstract <;> cases h.kind <;> rfl
  have event : eventLine? (h.text ++ body) line = none := by
    rw [eventLine?, trimStart_text]
    cases h.isAbstract <;> cases h.kind <;> rfl
  have imported : importLine? (h.text ++ body) line = none := by
    rw [importLine?, trimStart_text]
    cases h.isAbstract <;> cases h.kind <;> rfl
  have variable_ : variableLine? (h.text ++ body) p.owner line = none := by
    obtain ⟨word, listed, first⟩ := h.exists_first_word body
    simp [variableLine?, first, listed]
  simp only [item?, List.headD_cons, contractLine?_text, functionItem?_eq, headerStart?, function,
    special, modifier, event, imported, variable_]
  cases h.read line <;> simp

end ContractHeader

/-- A line that starts with the header of a contract declares the contract and nothing else, with
its bases in order. It is as it is written if and only if there is no dollar sign in its name. -/
theorem extract_contractHeader {cleaned body : List Char} {n : Nat} (h : ContractHeader)
    (place : (lines cleaned)[n]? = some (h.text ++ body)) :
    (items cleaned).filter (·.line = n + 1) = (h.read (n + 1)).toList.map .contract ∧
      (extract cleaned).contracts.filter (·.line = n + 1) = (h.read (n + 1)).toList ∧
      ((extract cleaned).contracts.filter (·.line = n + 1) = [h.declared (n + 1)] ↔
        '$' ∉ h.name) := by
  obtain ⟨listed, text⟩ := List.getElem?_eq_some_iff.mp place
  have found := filter_itemsFrom ⟨0, none⟩ 1 listed
  rw [List.drop_eq_getElem_cons listed, Nat.add_comm 1 n, text, h.item?_text] at found
  have all : (items cleaned).filter (·.line = n + 1) = (h.read (n + 1)).toList.map .contract := by
    rw [items, found]
    cases h.read (n + 1) <;> rfl
  have contracts : (extract cleaned).contracts.filter (·.line = n + 1) =
      (h.read (n + 1)).toList := by
    rw [contracts_filter, all]
    cases h.read (n + 1) <;> rfl
  refine ⟨all, contracts, ?_⟩
  rw [contracts, ← h.read_eq_some_declared_iff (n + 1)]
  cases h.read (n + 1) <;> simp

/-- An abstract contract with a dotted base and with arguments that hold calls, commas and
quotes. -/
def nestedHeader : ContractHeader where
  lead := "  ".toList
  isAbstract := true
  kind := .contract
  name := "Vault_2".toList
  bases := [
    ⟨["access".toList, "Ownable".toList],
      some "pick(a, (b)), 1".toList, by decide, by decide, by decide, by decide⟩,
    ⟨["Guard$".toList], none, by decide, by decide, by decide, by decide⟩,
    ⟨["ERC20".toList],
      some "\"Share, Inc\", \"S is T\"".toList, by decide, by decide, by decide, by decide⟩]
  lead_blank := by decide
  named := by decide
  filled := by decide

theorem extract_contractHeader_nested :
    (lines
      ("pragma solidity 0.8.20;\n".toList ++ (nestedHeader.text ++ " uint x;\n\x7d".toList)))[1]? =
        some (nestedHeader.text ++ " uint x;".toList) ∧ '$' ∉ nestedHeader.name ∧
      (extract
        ("pragma solidity 0.8.20;\n".toList ++
          (nestedHeader.text ++ " uint x;\n\x7d".toList))).contracts.filter
          (·.line = 2) =
            [⟨.contract, "Vault_2", true, ["access.Ownable", "Guard$", "ERC20"], 2⟩] := by
  have place :
    (lines
      ("pragma solidity 0.8.20;\n".toList ++ (nestedHeader.text ++ " uint x;\n\x7d".toList)))[1]? =
      some (nestedHeader.text ++ " uint x;".toList) := by
    decide
  have plain : '$' ∉ nestedHeader.name := by decide
  refine ⟨place, plain, ?_⟩
  rw [(extract_contractHeader nestedHeader place).2.2.mpr plain]
  decide

/-- A contract with a dollar sign in its name. -/
def dollarHeader : ContractHeader where
  lead := []
  isAbstract := false
  kind := .contract
  name := "A$".toList
  bases := [⟨["B".toList], none, by decide, by decide, by decide, by decide⟩]
  lead_blank := by decide
  named := by decide
  filled := by decide

/-- The name ends before its dollar sign, and the base behind it is lost. -/
theorem extract_dollarHeader :
    dollarHeader.text = "contract A$ is B \x7b".toList ∧
      (extract (dollarHeader.text ++ "\n\x7d".toList)).contracts =
        [⟨.contract, "A", false, [], 1⟩] ∧
      (extract (dollarHeader.text ++ "\n\x7d".toList)).contracts ≠ [dollarHeader.declared 1] := by
  decide

end AuditPanel.Source
