import AuditPanel.Proofs.Source.Header

/-!
Attributes of functions. What stands behind the parameter list of a header is read as a list of
words, the arguments of a word skipped up to their first closing parenthesis. Arguments that go on
behind it are read as attributes too.
-/

set_option autoImplicit false

namespace AuditPanel.Source

open AuditPanel.Text

def afterParen (s : List Char) : List Char :=
  (s.dropWhile (· != ')')).tail

private theorem dropWhile_paren {front : List Char} (none : ')' ∉ front) (rest : List Char) :
    (front ++ ')' :: rest).dropWhile (· != ')') = ')' :: rest := by
  have other : ∀ c ∈ front, (c != ')') = true := by
    intro c member
    simpa using ne_of_mem_of_not_mem member none
  rw [List.dropWhile_append_of_pos other]
  rfl

private theorem afterParen_split {front : List Char} (none : ')' ∉ front) (rest : List Char) :
    afterParen (front ++ ')' :: rest) = rest := by
  rw [afterParen, dropWhile_paren none, List.tail_cons]

private theorem afterParen_append {s : List Char} (closes : ')' ∈ s) (t : List Char) :
    afterParen (s ++ t) = afterParen s ++ t := by
  obtain ⟨front, rest, rfl, none⟩ := List.eq_append_cons_of_mem closes
  rw [List.append_assoc, List.cons_append, afterParen_split none, afterParen_split none]

private theorem afterParen_suffix (s : List Char) : afterParen s <:+ s :=
  (List.tail_suffix _).trans (List.dropWhile_suffix _)

private theorem skipArguments_paren {b args : List Char} (blank : isAllBlank b)
    (closes : ')' ∈ args) :
    skipArguments (b ++ '(' :: args) = afterParen args := by
  obtain ⟨front, rest, rfl, none⟩ := List.eq_append_cons_of_mem closes
  have opened : trimStart (b ++ '(' :: (front ++ ')' :: rest)) = '(' :: (front ++ ')' :: rest) := by
    rw [trimStart_append blank]
    rfl
  simp only [skipArguments, opened, dropWhile_paren none, afterParen_split none]

private theorem skipArguments_of_head {s : List Char} (other : (trimStart s).head? ≠ some '(') :
    skipArguments s = s := by
  unfold skipArguments
  split
  · next opened =>
    rw [opened] at other
    contradiction
  · rfl

private theorem skipArguments_cases (s : List Char) :
    (∃ blanks args, s = blanks ++ '(' :: args ∧ isAllBlank blanks ∧ ')' ∈ args ∧
      skipArguments s = afterParen args) ∨
      (∀ blanks args, s = blanks ++ '(' :: args → isAllBlank blanks → ')' ∉ args) ∧
        skipArguments s = s := by
  by_cases found : ∃ blanks args, s = blanks ++ '(' :: args ∧ isAllBlank blanks ∧ ')' ∈ args
  · obtain ⟨blanks, args, rfl, blank, closes⟩ := found
    exact .inl ⟨blanks, args, rfl, blank, closes, skipArguments_paren blank closes⟩
  · have none : ∀ blanks args, s = blanks ++ '(' :: args → isAllBlank blanks → ')' ∉ args :=
      fun blanks args split blank closes => found ⟨blanks, args, split, blank, closes⟩
    refine .inr ⟨none, ?_⟩
    obtain ⟨blanks, split, blank⟩ := exists_trimStart s
    unfold skipArguments
    split
    · next args opened =>
      have other : ∀ c ∈ args, (c != ')') = true := by
        intro c member
        simpa using ne_of_mem_of_not_mem member (none blanks args (by rw [split, opened]) blank)
      have open_ : args.dropWhile (· != ')') = [] := List.dropWhile_eq_nil_iff.mpr other
      simp only [open_]
    · rfl

private theorem skipArguments_suffix (s : List Char) : skipArguments s <:+ s := by
  rcases skipArguments_cases s with ⟨blanks, args, split, -, -, skipped⟩ | ⟨-, skipped⟩
  · rw [skipped, split]
    exact (afterParen_suffix args).trans
      ((List.suffix_cons '(' args).trans (List.suffix_append blanks _))
  · rw [skipped]

def readWords (s : List Char) : List String :=
  attributeWords s.length s

private theorem length_skipArguments_lt {s w rest : List Char}
    (found : identifier? (s.dropWhile (!isNameStart ·)) = some (w, rest)) :
    (skipArguments rest).length < s.length := by
  obtain ⟨split, name, -⟩ := identifier?_eq_some_iff.mp found
  have filled := length_pos_of_isName name
  have dropped := (List.dropWhile_suffix (!isNameStart ·) (l := s)).length_le
  have skipped := (skipArguments_suffix rest).length_le
  rw [split, List.length_append] at dropped
  omega

private theorem attributeWords_congr {fuel fuel' : Nat} {s : List Char} (enough : s.length ≤ fuel)
    (enough' : s.length ≤ fuel') :
    attributeWords fuel s = attributeWords fuel' s := by
  induction fuel generalizing fuel' s with
  | zero =>
    obtain rfl : s = [] := List.length_eq_zero_iff.mp (Nat.le_zero.mp enough)
    cases fuel' <;> rfl
  | succ fuel ih =>
    cases fuel' with
    | zero =>
      obtain rfl : s = [] := List.length_eq_zero_iff.mp (Nat.le_zero.mp enough')
      rfl
    | succ fuel' =>
      rw [attributeWords, attributeWords]
      split
      · rfl
      · next w rest found =>
        have shorter := length_skipArguments_lt found
        have later : attributeWords fuel (skipArguments rest) = attributeWords fuel'
            (skipArguments rest) :=
          ih (by omega) (by omega)
        rw [later]

private theorem readWords_eq (s : List Char) :
    readWords s = match identifier? (s.dropWhile (!isNameStart ·)) with
      | none => []
      | some (w, rest) => String.ofList w :: readWords (skipArguments rest) := by
  rw [readWords, attributeWords_congr (Nat.le_refl _) (Nat.le_succ _), attributeWords]
  cases found : identifier? (s.dropWhile (!isNameStart ·)) with
  | none => rfl
  | some parts =>
    have shorter := length_skipArguments_lt found
    have later : attributeWords s.length (skipArguments parts.2) =
        readWords (skipArguments parts.2) :=
      attributeWords_congr (Nat.le_of_lt shorter) (Nat.le_refl _)
    simp only [later]

private theorem isInfix_of_mem_attributeWords {fuel : Nat} {s : List Char} {w : String}
    (member : w ∈ attributeWords fuel s) :
    w.toList <:+: s := by
  induction fuel generalizing s with
  | zero => cases member
  | succ fuel ih =>
    rw [attributeWords] at member
    split at member
    · cases member
    · next v rest found =>
      obtain ⟨split, -, -⟩ := identifier?_eq_some_iff.mp found
      have inside : v ++ rest <:+: s := split ▸ (List.dropWhile_suffix _).isInfix
      rcases List.mem_cons.mp member with rfl | later
      · rw [String.toList_ofList]
        exact (List.prefix_append v rest).isInfix.trans inside
      · have skipped := (skipArguments_suffix rest).trans (List.suffix_append v rest)
        exact (ih later).trans (skipped.isInfix.trans inside)

private theorem readWords_marks {m : List Char} (none : ∀ c ∈ m, isNameStart c = false)
    (s : List Char) :
    readWords (m ++ s) = readWords s := by
  have all : ∀ c ∈ m, (!isNameStart c) = true := by simpa using none
  rw [readWords_eq, readWords_eq s, List.dropWhile_append_of_pos all]

private theorem readWords_of_marks {marks : List Char} (none : ∀ c ∈ marks, isNameStart c = false) :
    readWords marks = [] := by
  rw [← List.append_nil marks, readWords_marks none]
  rfl

private theorem readWords_name {w rest : List Char} (name : isName w) (ends : endsWord rest) :
    readWords (w ++ rest) = String.ofList w :: readWords (skipArguments rest) := by
  have found : identifier? ((w ++ rest).dropWhile (!isNameStart ·)) = some (w, rest) := by
    rw [← identifier?_append name ends]
    cases w with
    | nil => cases name
    | cons c w =>
      simp only [isName, Bool.and_eq_true] at name
      simp [name.1]
  rw [readWords_eq, found]

private theorem exists_name (s : List Char) :
    (∀ c ∈ s, isNameStart c = false) ∨
      ∃ marks w rest, s = marks ++ (w ++ rest) ∧ (∀ c ∈ marks, isNameStart c = false) ∧ isName w ∧
        endsWord rest := by
  have whole := List.takeWhile_append_dropWhile (p := (!isNameStart ·)) (l := s)
  have marks : ∀ c ∈ s.takeWhile (!isNameStart ·), isNameStart c = false := by
    intro c member
    simpa using List.all_eq_true.mp List.all_takeWhile c member
  cases behind : s.dropWhile (!isNameStart ·) with
  | nil =>
    rw [behind, List.append_nil] at whole
    rw [whole] at marks
    exact .inl marks
  | cons c rest =>
    have starts := List.head?_dropWhile_not (!isNameStart ·) s
    rw [behind] at starts
    have found : identifier? (c :: rest) =
        some (c :: rest.takeWhile isWordChar, rest.dropWhile isWordChar) := by
      rw [identifier?, if_pos (by simpa using starts)]
    obtain ⟨split, name, ends⟩ := identifier?_eq_some_iff.mp found
    exact .inr ⟨_, _, _, by rw [← split, ← behind, whole], marks, name, ends⟩

/-- Whether each parenthesis that opens in a text closes in it. -/
def ClosesAll (s : List Char) : Prop :=
  ∃ depth, balancedFrom depth s

theorem ClosesAll.tail {c : Char} {s : List Char} (closes : ClosesAll (c :: s)) : ClosesAll s := by
  obtain ⟨depth, balanced⟩ := closes
  rw [balancedFrom.eq_def] at balanced
  simp only at balanced
  split at balanced
  · exact ⟨depth + 1, balanced⟩
  split at balanced
  · split at balanced
    · cases balanced
    · exact ⟨_, balanced⟩
  · exact ⟨depth, balanced⟩

theorem ClosesAll.of_suffix {s t : List Char} (suffix : t <:+ s) (closes : ClosesAll s) :
    ClosesAll t := by
  obtain ⟨front, rfl⟩ := suffix
  induction front with
  | nil => exact closes
  | cons c front ih => exact ih closes.tail

private theorem paren_mem_of_balancedFrom {depth : Nat} {s : List Char}
    (balanced : balancedFrom depth s) (open_ : 0 < depth) :
    ')' ∈ s := by
  induction balanced using balanced_induction with
  | nil => cases open_
  | opening _ ih => exact List.mem_cons_of_mem _ (ih (Nat.succ_pos _))
  | closing => exact List.mem_cons_self
  | other _ _ _ ih => exact List.mem_cons_of_mem _ (ih open_)

private theorem ClosesAll.paren_mem {front s : List Char} (closes : ClosesAll (front ++ '(' :: s)) :
    ')' ∈ s := by
  obtain ⟨depth, balanced⟩ := closes.of_suffix (List.suffix_append front _)
  have inside : balancedFrom (depth + 1) s := by simpa [balancedFrom] using balanced
  exact paren_mem_of_balancedFrom inside (Nat.succ_pos depth)

private theorem skipArguments_append_paren {s : List Char} (closes : ClosesAll s)
    (rest : List Char) :
    skipArguments (s ++ ')' :: rest) = skipArguments s ++ ')' :: rest := by
  rcases skipArguments_cases s with ⟨blanks, args, rfl, blank, mem, skipped⟩ | ⟨none, skipped⟩
  · rw [List.append_assoc, List.cons_append, skipArguments_paren blank (List.mem_append_left _ mem),
      afterParen_append mem, skipped]
  · rw [skipped]
    apply skipArguments_of_head
    obtain ⟨blanks, split, blank⟩ := exists_trimStart s
    cases opened : trimStart s with
    | nil =>
      rw [opened, List.append_nil] at split
      rw [split, trimStart_append blank, trimStart_cons (by decide)]
      simp
    | cons c behind =>
      have solid := List.head?_dropWhile_not isBlank s
      rw [← trimStart, opened] at solid
      rw [split, opened, List.append_assoc, trimStart_append blank, List.cons_append,
        trimStart_cons (by simpa using solid)]
      -- An argument list that opens in the text closes in it too, and would have been skipped.
      rintro ⟨⟩
      rw [split, opened] at closes
      exact none blanks behind (by rw [← opened, ← split]) blank closes.paren_mem

private theorem readWords_append_paren {s : List Char} (closes : ClosesAll s) (rest : List Char) :
    readWords (s ++ ')' :: rest) = readWords s ++ readWords rest := by
  have paren (rest : List Char) : readWords (')' :: rest) = readWords rest :=
    readWords_marks (List.forall_mem_singleton.mpr rfl) rest
  -- What is read goes on behind skipped arguments, which is why the induction is on the length.
  induction size : s.length using Nat.strong_induction_on generalizing s with
  | _ n ih =>
    rcases exists_name s with none | ⟨marks, w, behind, rfl, none, name, ends⟩
    · rw [readWords_marks none, paren, readWords_of_marks none, List.nil_append]
    · have ends' : endsWord (behind ++ ')' :: rest) := by
        cases behind with
        | nil => rfl
        | cons c behind => exact ends
      have closes' : ClosesAll behind := closes.of_suffix ⟨marks ++ w, by simp⟩
      have shorter : (skipArguments behind).length < n := by
        have skipped := (skipArguments_suffix behind).length_le
        have filled := length_pos_of_isName name
        simp only [List.length_append] at size
        omega
      rw [List.append_assoc, List.append_assoc, readWords_marks none, readWords_marks none,
        readWords_name name ends', readWords_name name ends, skipArguments_append_paren closes',
          ih _ shorter (closes'.of_suffix (skipArguments_suffix behind)) rfl, List.cons_append]

def visibilityWords : List (String × Visibility) :=
  [("public", .publicly), ("external", .externally), ("internal", .internally),
    ("private", .privately)]

def mutabilityWords : List (String × Mutability) :=
  [("payable", .payable), ("view", .view), ("constant", .view), ("pure", .pure)]

def attributeKeywords : List String :=
  visibilityWords.map (·.1) ++ mutabilityWords.map (·.1) ++ ["virtual", "override"]

/-- What stands between the parentheses of a modifier. -/
structure IsArguments (args : List Char) : Prop where
  balanced : balancedFrom 0 args
  goesOn : endsHeader args = false
  noReturns : contains "returns" args = false

/-- A keyword, or a modifier with or without arguments. -/
structure Attribute where
  word : String
  arguments : Option (List Char)
  named : isName word.toList
  written : ∀ args ∈ arguments, IsArguments args
  bare : word ∈ attributeKeywords → arguments = none

namespace Attribute

def text (a : Attribute) : List Char :=
  match a.arguments with
  | none => a.word.toList
  | some args => a.word.toList ++ '(' :: (args ++ [')'])

/-- The words in the arguments behind their first closing parenthesis. -/
def strays (a : Attribute) : List String :=
  match a.arguments with
  | none => []
  | some args => readWords (afterParen args)

def read (a : Attribute) : List String :=
  a.word :: a.strays

/-- Whether no name stands behind the first closing parenthesis of the arguments. -/
def IsFlat (a : Attribute) : Prop :=
  ∀ args ∈ a.arguments, (afterParen args).any isNameStart = false

instance (a : Attribute) : Decidable a.IsFlat :=
  inferInstanceAs (Decidable (∀ args ∈ a.arguments, (afterParen args).any isNameStart = false))

private theorem strays_of_isFlat {a : Attribute} (flat : a.IsFlat) : a.strays = [] := by
  unfold strays
  split
  · rfl
  · next args written =>
    refine readWords_of_marks ?_
    intro c member
    simpa using List.any_eq_false.mp (flat args written) c member

private theorem readWords_text (a : Attribute) {rest : List Char} (ends : endsWord rest)
    (bare : (trimStart rest).head? ≠ some '(') :
    readWords (a.text ++ rest) = a.read ++ readWords rest := by
  cases written : a.arguments with
  | none =>
    simp only [text, read, strays, written]
    rw [readWords_name a.named ends, skipArguments_of_head bare, String.ofList_toList]
    rfl
  | some args =>
    obtain ⟨balanced, -, -⟩ := a.written args written
    have opened : skipArguments ('(' :: (args ++ ')' :: rest)) = afterParen (args ++ ')' :: rest) :=
      skipArguments_paren (b := []) rfl (by simp)
    have behind : readWords (afterParen (args ++ ')' :: rest)) = readWords (afterParen args) ++
        readWords rest := by
      by_cases nested : ')' ∈ args
      · have closes : ClosesAll (afterParen args) :=
          ClosesAll.of_suffix (afterParen_suffix args) ⟨0, balanced⟩
        rw [afterParen_append nested, readWords_append_paren closes]
      · have none : afterParen args = [] := by
          rw [afterParen, List.dropWhile_eq_nil_iff.mpr]
          · rfl
          · intro c member
            simpa using ne_of_mem_of_not_mem member nested
        rw [afterParen_split nested, none]
        rfl
    simp only [text, read, strays, written, List.append_assoc, List.cons_append, List.nil_append]
    rw [readWords_name a.named rfl, opened, behind, String.ofList_toList]

end Attribute

/-- The text of attributes, each behind its blanks. -/
def attributesText (attributes : List (List Char × Attribute)) : List Char :=
  attributes.flatMap fun a => a.1 ++ a.2.text

private theorem attributesText_cons (a : List Char × Attribute)
    (attributes : List (List Char × Attribute)) (trail : List Char) :
    attributesText (a :: attributes) ++ trail = a.1 ++
      (a.2.text ++ (attributesText attributes ++ trail)) := by
  simp [attributesText]

private theorem not_isNameStart_of_isAllBlank {blanks : List Char} (blank : isAllBlank blanks) :
    ∀ c ∈ blanks, isNameStart c = false :=
  fun c member => (not_word_of_isBlank (List.all_eq_true.mp blank c member)).2

private theorem endsWord_of_isAllBlank {blanks : List Char} (blank : isAllBlank blanks) :
    endsWord blanks := by
  cases blanks with
  | nil => rfl
  | cons c blanks =>
    have word := (not_word_of_isBlank (List.all_eq_true.mp blank c List.mem_cons_self)).1
    simp [endsWord, word]

private theorem head?_trimStart_text (a : Attribute) (rest : List Char) :
    (trimStart (a.text ++ rest)).head? ≠ some '(' := by
  have front : ∃ behind, a.text ++ rest = a.word.toList ++ behind := by
    unfold Attribute.text
    split
    · exact ⟨rest, rfl⟩
    · exact ⟨_, List.append_assoc _ _ _⟩
  obtain ⟨behind, split⟩ := front
  rw [split, trimStart_name a.named]
  have named := a.named
  cases word : a.word.toList with
  | nil => rw [word] at named; cases named
  | cons c w =>
    rw [word, isName, Bool.and_eq_true] at named
    rintro ⟨⟩
    exact absurd named.1 (by decide)

section Line

variable {attributes : List (List Char × Attribute)}
  (separated : ∀ a ∈ attributes, a.1 ≠ [] ∧ isAllBlank a.1) {trail : List Char}
    (trail_ : isAllBlank trail)
include separated trail_

private theorem attributesText_front :
    endsWord (attributesText attributes ++ trail) ∧
      (trimStart (attributesText attributes ++ trail)).head? ≠ some '(' := by
  cases attributes with
  | nil =>
    have empty : trimStart trail = [] := List.dropWhile_eq_nil_iff.mpr (List.all_eq_true.mp trail_)
    refine ⟨endsWord_of_isAllBlank trail_, ?_⟩
    rw [attributesText, List.flatMap_nil, List.nil_append, empty]
    simp
  | cons a attributes =>
    obtain ⟨filled, blank⟩ := separated a List.mem_cons_self
    rw [attributesText_cons, trimStart_append blank]
    refine ⟨?_, head?_trimStart_text a.2 _⟩
    have ends := endsWord_of_isAllBlank blank
    obtain ⟨c, blanks, first⟩ := List.exists_cons_of_ne_nil filled
    rw [first] at ends ⊢
    exact ends

private theorem readWords_attributesText :
    readWords (attributesText attributes ++ trail) = attributes.flatMap (·.2.read) := by
  induction attributes with
  | nil => exact readWords_of_marks (not_isNameStart_of_isAllBlank trail_)
  | cons a attributes ih =>
    obtain ⟨here, later⟩ := List.forall_mem_cons.mp separated
    obtain ⟨ends, bare⟩ := attributesText_front later trail_
    rw [attributesText_cons, readWords_marks (not_isNameStart_of_isAllBlank here.2),
      a.2.readWords_text ends bare, ih later, List.flatMap_cons]

private theorem isInfix_attributesText {w : List Char} (name : isName w) :
    w <:+: attributesText attributes ++ trail ↔ ∃ a ∈ attributes, w <:+: a.2.text := by
  have marks {blanks : List Char} (blank : isAllBlank blanks) : ∀ c ∈ blanks,
      isWordChar c = false :=
    fun c member => (not_word_of_isBlank (List.all_eq_true.mp blank c member)).1
  induction attributes with
  | nil =>
    rw [attributesText, List.flatMap_nil, List.nil_append, ← List.append_nil trail,
      isInfix_marks_append name (marks trail_)]
    simp [not_isInfix_nil name]
  | cons a attributes ih =>
    obtain ⟨here, later⟩ := List.forall_mem_cons.mp separated
    have inside : w <:+: attributesText attributes ++ trail ↔ ∃ a ∈ attributes, w <:+: a.2.text :=
      ih later
    rw [attributesText_cons, isInfix_marks_append name (marks here.2),
      isInfix_append_iff name (attributesText_front later trail_).1, inside]
    simp

end Line

private theorem Attribute.contains_text (a : Attribute) :
    contains "returns" a.text ↔ contains "returns" a.word.toList := by
  have name : isName "returns".toList := by decide
  rw [contains_iff, contains_iff]
  unfold text
  split
  · rfl
  · next args written =>
    have none : ¬ "returns".toList <:+: args := by
      rw [← contains_iff, (a.written args written).noReturns]
      exact Bool.false_ne_true
    have opened : "returns".toList <:+: ['('] ++ (args ++ [')']) ↔ "returns".toList <:+: args ++
        [')'] :=
      isInfix_marks_append name (List.forall_mem_singleton.mpr (by decide))
    have closed : ¬ "returns".toList <:+: [')'] := by decide
    rw [isInfix_append_iff name (t := '(' :: (args ++ [')'])) rfl]
    rw [List.singleton_append, isInfix_append_iff name (t := [')']) rfl] at opened
    simp only [opened, none, closed, or_false]

def visibilityOf? (word : String) : Option Visibility :=
  visibilityWords.lookup word

def mutabilityOf? (word : String) : Option Mutability :=
  mutabilityWords.lookup word

private theorem lookup_eq_none {α : Type} {table : List (String × α)} {word : String}
    (unlisted : word ∉ table.map (·.1)) :
    table.lookup word = none := by
  refine List.lookup_eq_none_iff.mpr fun entry member => ?_
  simp only [bne_iff_ne, ne_eq]
  rintro rfl
  exact unlisted (List.mem_map_of_mem member)

private theorem add_eq (a : Attributes) (word : String) :
    a.add word = ⟨(visibilityOf? word).or a.visibility, (mutabilityOf? word).getD a.mutability,
      if word ∈ attributeKeywords then a.modifiers else a.modifiers ++ [word]⟩ := by
  by_cases keyword : word ∈ attributeKeywords
  · rw [if_pos keyword]
    simp only [attributeKeywords, visibilityWords, mutabilityWords, List.map_cons, List.map_nil,
      List.cons_append, List.nil_append, List.mem_cons, List.not_mem_nil, or_false] at keyword
    rcases keyword with rfl | rfl | rfl | rfl | rfl | rfl | rfl | rfl | rfl | rfl <;> rfl
  · have unlisted := keyword
    simp only [attributeKeywords, List.mem_append, not_or] at unlisted
    have noVisibility : visibilityOf? word = none := lookup_eq_none unlisted.1.1
    have noMutability : mutabilityOf? word = none := lookup_eq_none unlisted.1.2
    rw [if_neg keyword, noVisibility, noMutability]
    unfold Attributes.add
    split
    iterate 10 exact absurd (by decide) keyword
    rfl

private theorem getLast?_filterMap_cons {α β : Type} (f : α → Option β) (x : α) (xs : List α) :
    ((x :: xs).filterMap f).getLast? = (xs.filterMap f).getLast?.or (f x) := by
  rw [List.filterMap_cons]
  cases f x with
  | none => simp
  | some y => cases last : (xs.filterMap f).getLast? <;> simp [List.getLast?_cons, last]

private theorem foldl_add (a : Attributes) (ws : List String) :
    ws.foldl Attributes.add a = ⟨(ws.filterMap visibilityOf?).getLast?.or a.visibility,
      (ws.filterMap mutabilityOf?).getLast?.getD a.mutability,
      a.modifiers ++ ws.filter (· ∉ attributeKeywords)⟩ := by
  induction ws generalizing a with
  | nil => simp
  | cons word ws ih =>
    have modifiers : (if word ∈ attributeKeywords then a.modifiers else a.modifiers ++ [word]) ++
        ws.filter (· ∉ attributeKeywords) = a.modifiers ++
          (word :: ws).filter (· ∉ attributeKeywords) := by
      by_cases keyword : word ∈ attributeKeywords <;> simp [keyword]
    rw [List.foldl_cons, ih, add_eq, getLast?_filterMap_cons, getLast?_filterMap_cons,
      Option.or_assoc, Option.getD_or, modifiers]

/-- What a function has from the attribute words of its header. -/
structure FunctionDecl.Carries (d : FunctionDecl) (ws : List String) : Prop where
  modifiers : d.modifiers = ws.filter (· ∉ attributeKeywords)
  visibility : d.visibility = (ws.filterMap visibilityOf?).getLast?.getD .publicly
  mutability : d.mutability = (ws.filterMap mutabilityOf?).getLast?.getD .nonpayable
  isPayable : d.isPayable ↔ (ws.filterMap mutabilityOf?).getLast? = some .payable

private theorem functionOf_carries (header : List Char) (name : String) (owner : Option String)
    (line : Nat) :
    (functionOf header name .function owner line).Carries
      (readWords (before "returns" (headerParts header).2)) := by
  have attributes :=
    foldl_add ⟨none, .nonpayable, []⟩ (readWords (before "returns" (headerParts header).2))
  have mutability : (functionOf header name .function owner line).mutability =
      ((readWords (before "returns" (headerParts header).2)).filterMap mutabilityOf?).getLast?.getD
        .nonpayable :=
    congrArg Attributes.mutability attributes
  refine ⟨congrArg Attributes.modifiers attributes, ?_, mutability, ?_⟩
  · have visibility := congrArg Attributes.visibility attributes
    rw [Option.or_none] at visibility
    exact congrArg (Option.getD · Visibility.publicly) visibility
  · rw [FunctionDecl.isPayable, mutability, decide_eq_true_eq]
    cases ((readWords (before "returns" (headerParts header).2)).filterMap
        mutabilityOf?).getLast? with
    | none => simp
    | some last => simp

theorem Attribute.endsHeader_text (a : Attribute) : endsHeader a.text = false := by
  have word := endsHeader_of_isPlain (isPlain_of_isName a.named)
  unfold Attribute.text
  split
  · exact word
  · next args written =>
    have inside := (a.written args written).goesOn
    have split : a.word.toList ++ '(' :: (args ++ [')']) = a.word.toList ++
      (['('] ++ (args ++ [')'])) := rfl
    rw [split, endsHeader_append, endsHeader_append, endsHeader_append, word, inside]
    rfl

private theorem endsHeader_attributesText {attributes : List (List Char × Attribute)}
    (separated : ∀ a ∈ attributes, a.1 ≠ [] ∧ isAllBlank a.1) :
    endsHeader (attributesText attributes) = false := by
  induction attributes with
  | nil => rfl
  | cons a attributes ih =>
    obtain ⟨here, later⟩ := List.forall_mem_cons.mp separated
    have blank := endsHeader_of_isPlain (isPlain_of_isAllBlank here.2)
    rw [attributesText, List.flatMap_cons, ← attributesText, endsHeader_append, endsHeader_append,
      blank, a.2.endsHeader_text, ih later]
    rfl

/-- The header of a function in one line, up to the brace of its body and on. -/
structure FunctionHeader where
  lead : List Char
  gap : List Char
  name : String
  gap' : List Char
  parameters : List Char
  attributes : List (List Char × Attribute)
  trail : List Char
  body : List Char
  lead_blank : isAllBlank lead
  gap_blank : isAllBlank gap
  named : isName name.toList
  gap'_blank : isAllBlank gap'
  balanced : balancedFrom 0 parameters
  goesOn : endsHeader parameters = false
  separated : ∀ a ∈ attributes, a.1 ≠ [] ∧ isAllBlank a.1
  trail_blank : isAllBlank trail

namespace FunctionHeader

def front (h : FunctionHeader) : List Char :=
  h.lead ++ ("function".toList ++ (h.gap ++ (h.name.toList ++ h.gap')))

/-- The text behind the parameter list, up to the brace. -/
def attributeText (h : FunctionHeader) : List Char :=
  attributesText h.attributes ++ h.trail

def text (h : FunctionHeader) : List Char :=
  h.front ++ '(' :: (h.parameters ++ ')' :: (h.attributeText ++ '\x7b' :: h.body))

def words (h : FunctionHeader) : List String :=
  h.attributes.map (·.2.word)

private theorem isPlain_front (h : FunctionHeader) : isPlain h.front := by
  have word : isPlain "function".toList := by decide
  simp only [front, isPlain_append, word, isPlain_of_isAllBlank h.lead_blank,
    isPlain_of_isAllBlank h.gap_blank, isPlain_of_isName h.named,
    isPlain_of_isAllBlank h.gap'_blank, Bool.and_self]

private theorem headerStart?_text (h : FunctionHeader) :
    headerStart? h.text = some (h.name, .function) := by
  have line := functionLine?_named h.lead_blank h.gap_blank
    (h.parameters ++ ')' :: (h.attributeText ++ '\x7b' :: h.body)) h.named h.gap'_blank
  have found : functionLine? h.text = some (some h.name) := by
    simpa only [text, front, List.append_assoc, String.ofList_toList] using line
  rw [headerStart?, found]
  rfl

private theorem headerText_text (h : FunctionHeader) (ls : List (List Char)) :
    headerText (h.text :: ls) = h.front ++ '(' :: (h.parameters ++ ')' :: h.attributeText) := by
  have goesOn : endsHeader (h.front ++ '(' :: (h.parameters ++ ')' :: h.attributeText)) =
      false := by
    have front := endsHeader_of_isPlain h.isPlain_front
    have attributes := endsHeader_attributesText h.separated
    have trail := endsHeader_of_isPlain (isPlain_of_isAllBlank h.trail_blank)
    have split : h.front ++ '(' :: (h.parameters ++ ')' :: h.attributeText) =
        h.front ++
          (['('] ++ (h.parameters ++ ([')'] ++ (attributesText h.attributes ++ h.trail)))) := rfl
    simp only [split, endsHeader_append, front, h.goesOn, attributes, trail]
    rfl
  have ended := headerText_of_ends (c := '\x7b') goesOn rfl h.body ls
  simpa only [text, List.append_assoc, List.cons_append] using ended

private theorem headerParts_text (h : FunctionHeader) (ls : List (List Char)) :
    headerParts (headerText (h.text :: ls)) = (h.parameters, h.attributeText) := by
  rw [headerText_text, headerParts_append _ h.balanced]
  exact not_mem_of_isPlain h.isPlain_front (by decide)

/-- Whether no attribute has the word that opens a return list in its name. -/
def NamesNoReturns (h : FunctionHeader) : Prop :=
  ∀ w ∈ h.words, contains "returns" w.toList = false

instance (h : FunctionHeader) : Decidable h.NamesNoReturns :=
  inferInstanceAs (Decidable (∀ w ∈ h.words, contains "returns" w.toList = false))

private theorem namesNoReturns_iff (h : FunctionHeader) :
    h.NamesNoReturns ↔ contains "returns" h.attributeText = false := by
  have named : isName "returns".toList := by decide
  rw [← not_iff_not, NamesNoReturns, Bool.not_eq_false, contains_iff, attributeText,
    isInfix_attributesText h.separated h.trail_blank named]
  simp only [← contains_iff, Attribute.contains_text, words, List.mem_map, not_forall, exists_prop,
    Bool.not_eq_false, exists_exists_and_eq_and]

private theorem readWords_attributeText {h : FunctionHeader} (plain : h.NamesNoReturns) :
    readWords (before "returns" h.attributeText) = h.attributes.flatMap (·.2.read) := by
  rw [before_of_not_contains (h.namesNoReturns_iff.mp plain), attributeText,
    readWords_attributesText h.separated h.trail_blank]

private theorem namesNoReturns_of_read {h : FunctionHeader}
    (read : ∀ w ∈ h.words, w ∉ attributeKeywords →
      w ∈ readWords (before "returns" h.attributeText)) :
    h.NamesNoReturns := by
  intro w member
  rw [Bool.eq_false_iff, ne_eq]
  intro found
  have other : w ∉ attributeKeywords := by
    have none : ∀ k ∈ attributeKeywords, contains "returns" k.toList = false := by decide
    intro keyword
    rw [none w keyword] at found
    cases found
  have inside := isInfix_of_mem_attributeWords (read w member other)
  have twice := contains_iff.mpr ((contains_iff.mp found).trans inside)
  rw [contains_before (by decide)] at twice
  cases twice

private theorem flatMap_read_of_isFlat {h : FunctionHeader}
    (flat : ∀ a ∈ h.attributes, a.2.IsFlat) :
    h.attributes.flatMap (·.2.read) = h.words := by
  rw [words, List.map_eq_flatMap]
  refine List.flatMap_congr ?_
  intro a member
  rw [Attribute.read, Attribute.strays_of_isFlat (flat a member)]

end FunctionHeader

private theorem length_modifiers_read (attributes : List (List Char × Attribute)) :
    ((attributes.flatMap (·.2.read)).filter (· ∉ attributeKeywords)).length =
      ((attributes.map (·.2.word)).filter (· ∉ attributeKeywords)).length +
        ((attributes.flatMap (·.2.strays)).filter (· ∉ attributeKeywords)).length := by
  induction attributes with
  | nil => rfl
  | cons a attributes ih =>
    simp only [List.flatMap_cons, List.map_cons, Attribute.read, List.filter_append,
      List.filter_cons, List.length_append, List.cons_append] at ih ⊢
    split <;> simp only [List.length_append, List.length_cons, ih] <;> omega

private theorem modifiers_read_eq_iff (attributes : List (List Char × Attribute)) :
    (attributes.flatMap (·.2.read)).filter (· ∉ attributeKeywords) =
        (attributes.map (·.2.word)).filter (· ∉ attributeKeywords) ↔
      ∀ a ∈ attributes, ∀ w ∈ a.2.strays, w ∈ attributeKeywords := by
  constructor
  · intro same
    -- The strays only add to the modifiers of the header, so the count settles that there are none.
    have lengths := length_modifiers_read attributes
    rw [same] at lengths
    have none : (attributes.flatMap (·.2.strays)).filter (· ∉ attributeKeywords) = [] :=
      List.length_eq_zero_iff.mp (by omega)
    intro a member w stray
    simpa using List.filter_eq_nil_iff.mp none w (List.mem_flatMap_of_mem member stray)
  · intro strays
    induction attributes with
    | nil => rfl
    | cons a attributes ih =>
      obtain ⟨here, later⟩ := List.forall_mem_cons.mp strays
      have none : a.2.strays.filter (· ∉ attributeKeywords) = [] := by
        refine List.filter_eq_nil_iff.mpr ?_
        intro w stray
        simpa using here w stray
      have head : a.2.read.filter (· ∉ attributeKeywords) =
          [a.2.word].filter (· ∉ attributeKeywords) := by
        rw [Attribute.read, ← List.singleton_append, List.filter_append, none, List.append_nil]
      rw [List.flatMap_cons, List.filter_append, head, ih later, List.map_cons,
        ← List.filter_append]
      rfl

/-- A header in one line declares one function. If no attribute has `returns` in its name, the
function has what the attributes say together with what stands behind the first closing parenthesis
of their arguments; its modifiers are those of the header exactly if no other name stands there
either. -/
theorem functions_attributes {cleaned : List Char} {n : Nat} (h : FunctionHeader)
    (place : (lines cleaned)[n]? = some h.text) :
    ∃ d, (extract cleaned).functions.filter (·.line = n + 1) = [d] ∧ d.name = h.name ∧
      d.kind = .function ∧ (h.NamesNoReturns → d.Carries (h.attributes.flatMap (·.2.read)) ∧
        ((∀ a ∈ h.attributes, a.2.IsFlat) → d.Carries h.words)) ∧
      (d.modifiers = h.words.filter (· ∉ attributeKeywords) ↔
        h.NamesNoReturns ∧ ∀ a ∈ h.attributes, ∀ w ∈ a.2.strays, w ∈ attributeKeywords) := by
  refine ⟨_, functions_filter_of_headerStart? place h.headerStart?_text, rfl, rfl, ?_⟩
  have carried :=
    functionOf_carries (headerText ((h.text :: (lines cleaned).drop (n + 1)).take headerLines))
      h.name (positionAfter ((lines cleaned).take n)).owner (n + 1)
  generalize functionOf _ _ _ _ _ = d at carried ⊢
  rw [headerLines, List.take_succ_cons, h.headerParts_text] at carried
  have whole (plain : h.NamesNoReturns) : d.Carries (h.attributes.flatMap (·.2.read)) :=
    FunctionHeader.readWords_attributeText plain ▸ carried
  refine ⟨fun plain => ⟨whole plain, ?_⟩, ?_, ?_⟩
  · intro flat
    exact FunctionHeader.flatMap_read_of_isFlat flat ▸ whole plain
  · intro same
    have plain : h.NamesNoReturns := by
      refine FunctionHeader.namesNoReturns_of_read ?_
      intro w member other
      have modifier : w ∈ d.modifiers := same ▸ List.mem_filter.mpr ⟨member, decide_eq_true other⟩
      rw [carried.modifiers] at modifier
      exact (List.mem_filter.mp modifier).1
    refine ⟨plain, (modifiers_read_eq_iff h.attributes).mp ?_⟩
    rw [← (whole plain).modifiers, same, FunctionHeader.words]
  · rintro ⟨plain, strays⟩
    rw [(whole plain).modifiers, (modifiers_read_eq_iff h.attributes).mpr strays,
      FunctionHeader.words]

/-- A keyword or a modifier without arguments behind one blank. -/
def Attribute.bareWord (word : String) (named : isName word.toList) : List Char × Attribute :=
  ([' '], ⟨word, none, named, by simp, fun _ => rfl⟩)

/-- A modifier with arguments behind one blank. -/
def Attribute.call (word args : String) (named : isName word.toList)
    (written : IsArguments args.toList)
    (other : word ∉ attributeKeywords) : List Char × Attribute :=
  ([' '],
    ⟨word, some args.toList, named, by rintro _ ⟨⟩; exact written, fun keyword =>
      absurd keyword other⟩)

def FunctionHeader.withAttributes (attributes : List (List Char × Attribute))
    (separated : ∀ a ∈ attributes, a.1 ≠ [] ∧ isAllBlank a.1) : FunctionHeader where
  lead := []
  gap := [' ']
  name := "f"
  gap' := []
  parameters := []
  attributes := attributes
  trail := [' ']
  body := []
  lead_blank := rfl
  gap_blank := rfl
  named := by decide
  gap'_blank := rfl
  balanced := rfl
  goesOn := rfl
  separated := separated
  trail_blank := rfl

/-- The source with the header on its second line. -/
def FunctionHeader.source (h : FunctionHeader) : List Char :=
  "contract A \x7b\n".toList ++ (h.text ++ "\n\x7d\n\x7d".toList)

/-- The arguments of a role check call a function, and nothing is read from them. -/
theorem functions_attributes_roleCheck :
    let h :=
      FunctionHeader.withAttributes
        [Attribute.bareWord "external" (by decide), Attribute.bareWord "payable" (by decide),
      Attribute.call "onlyRole" "hash(\"payable\"), 1" (by decide) ⟨by decide, by decide, by decide⟩
        (by decide),
      Attribute.bareWord "override" (by decide), Attribute.bareWord "view" (by decide),
      Attribute.bareWord "lock" (by decide)] (by decide)
    (lines h.source)[1]? = some h.text ∧ h.NamesNoReturns ∧ (∀ a ∈ h.attributes, a.2.IsFlat) ∧
      ∃ d, (extract h.source).functions.filter (·.line = 2) = [d] ∧
        d.modifiers = ["onlyRole", "lock"] ∧
        d.visibility = .externally ∧ d.mutability = .view ∧ ¬ d.isPayable := by
  intro h
  have place : (lines h.source)[1]? = some h.text := by decide
  have plain : h.NamesNoReturns := by decide
  have flat : ∀ a ∈ h.attributes, a.2.IsFlat := by decide
  obtain ⟨d, found, -, -, carried, -⟩ := functions_attributes h place
  have said := (carried plain).2 flat
  refine ⟨place, plain, flat, d, found, ?_, ?_, ?_, ?_⟩
  · rw [said.modifiers]
    decide
  · rw [said.visibility]
    decide
  · rw [said.mutability]
    decide
  · rw [said.isPayable]
    decide

/-- A call in the first of two arguments makes the second one an attribute, and a function that
takes no value one that does. A name with the word that opens a return list takes the attributes
behind it away. -/
theorem not_carries_nested :
    let h := FunctionHeader.withAttributes [Attribute.bareWord "public" (by decide),
      Attribute.call "m" "g(a), payable(b)" (by decide) ⟨by decide, by decide, by decide⟩
        (by decide)] (by decide)
    let h' := FunctionHeader.withAttributes [Attribute.bareWord "noreturns" (by decide),
      Attribute.bareWord "external" (by decide)] (by decide)
    ((lines h.source)[1]? = some h.text ∧
      ∃ d, (extract h.source).functions = [d] ∧ d.isPayable ∧ ¬ d.Carries h.words) ∧
    (lines h'.source)[1]? = some h'.text ∧
      ∃ d, (extract h'.source).functions = [d] ∧ d.modifiers = ["no"] ∧ d.visibility = .publicly ∧
        ¬ d.Carries h'.words := by
  intro h h'
  refine ⟨⟨by decide, ⟨"f", .function, some "A", .publicly, .payable, [], ["m"], 2⟩, by decide,
    by decide, ?_⟩, by decide, ⟨"f", .function, some "A", .publicly, .nonpayable, [], ["no"], 2⟩,
    by decide, rfl, rfl, ?_⟩
  · intro carried
    exact absurd carried.mutability (by decide)
  · intro carried
    exact absurd carried.visibility (by decide)

end AuditPanel.Source
