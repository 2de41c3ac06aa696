import AuditPanel.Proofs.Source.Declarations

/-!
Headers of functions in a source. A header starts on the line that holds its first word and opening
parenthesis, which declares one function whatever else the line says; its parameter list ends at the
parenthesis that matches the first.
-/

set_option autoImplicit false

namespace AuditPanel.Source

open AuditPanel.Text

/-- The name and the kind of the function whose header a line starts. -/
def headerStart? (s : List Char) : Option (String × FunctionKind) :=
  match functionLine? s with
  | some name => some (name.getD "fallback", if name.isSome then .function else .fallback)
  | none =>
    (specialLine? s).map fun
      | .constructor => ("constructor", .constructor)
      | .receive => ("receive", .receive)
      | kind => ("fallback", kind)

theorem functionItem?_eq (ls : List (List Char)) (owner : Option String) (line : Nat) :
    functionItem? ls owner line = (headerStart? (ls.headD [])).map fun start =>
      functionOf (headerText (ls.take headerLines)) start.1 start.2 owner line := by
  simp only [functionItem?, headerStart?]
  rcases functionLine? (ls.headD []) with _ | _ | name
  · rcases specialLine? (ls.headD []) with _ | _ | _ | _ | _ <;> rfl
  · rfl
  · rfl

private theorem exists_of_headerStart? {s : List Char} {start : String × FunctionKind}
    (found : headerStart? s = some start) :
    ∃ word ∈ ["function", "constructor", "fallback", "receive"], ∃ rest,
      trimStart s = word.toList ++ rest := by
  unfold headerStart? at found
  split at found
  · next name line =>
    simp only [functionLine?, bind, Option.bind_eq_some_iff] at line
    obtain ⟨rest, opened, -⟩ := line
    exact ⟨"function", by simp, rest, after?_eq_some_iff.mp opened⟩
  · obtain ⟨kind, line, -⟩ := Option.map_eq_some_iff.mp found
    simp only [specialLine?, bind, Option.bind_eq_some_iff] at line
    obtain ⟨⟨kind', rest⟩, opened, -⟩ := line
    obtain ⟨word, member, split⟩ := exists_of_wordOf? opened
    refine ⟨word, ?_, rest, split⟩
    simp only [List.mem_cons, Prod.mk.injEq, List.not_mem_nil, or_false] at member
    rcases member with ⟨rfl, -⟩ | ⟨rfl, -⟩ | ⟨rfl, -⟩ <;> simp

theorem contractLine?_of_headerStart? {s : List Char} (started : (headerStart? s).isSome)
    (line : Nat) :
    contractLine? s line = none := by
  obtain ⟨start, found⟩ := Option.isSome_iff_exists.mp started
  obtain ⟨word, member, rest, split⟩ := exists_of_headerStart? found
  simp only [List.mem_cons, List.not_mem_nil, or_false] at member
  rw [contractLine?, split]
  rcases member with rfl | rfl | rfl | rfl <;> rfl

theorem item?_of_headerStart? {s : List Char} {start : String × FunctionKind}
    (found : headerStart? s = some start) (p : Position) (ls : List (List Char)) (line : Nat) :
    item? p (s :: ls) line =
      some
        (.function
          (functionOf (headerText ((s :: ls).take headerLines)) start.1 start.2 p.owner line)) := by
  have noContract := contractLine?_of_headerStart? (Option.isSome_of_eq_some found) line
  simp [item?, noContract, functionItem?_eq, found]

/-- Whether a text is an identifier and nothing else. -/
def isName : List Char → Bool
  | [] => false
  | c :: rest => isNameStart c && rest.all isWordChar

theorem isWordChar_of_isNameStart {c : Char} (starts : isNameStart c) : isWordChar c := by
  rw [isNameStart, Bool.or_eq_true] at starts
  have ascii : c.toNat < 0x80 := by
    rcases starts with letter | underscore
    · rcases (Bool.or_eq_true _ _).mp letter with upper | lower
      · exact Nat.lt_of_le_of_lt (of_decide_eq_true upper).2 (by decide)
      · exact Nat.lt_of_le_of_lt (of_decide_eq_true ((Bool.and_eq_true _ _).mp lower).2) (by decide)
    · rw [beq_iff_eq.mp underscore]
      decide
  rw [isWordChar, if_pos ascii, Bool.or_eq_true]
  exact starts.imp_left fun letter => (Bool.or_eq_true _ _).mpr (.inl letter)

theorem isBlank_eq_false_of_isWordChar {c : Char} (word : isWordChar c) : isBlank c = false := by
  by_contra blank
  rw [(not_word_of_isBlank (Bool.of_not_eq_false blank)).1] at word
  cases word

theorem isBlank_eq_false_of_isNameStart {c : Char} (starts : isNameStart c) : isBlank c = false :=
  isBlank_eq_false_of_isWordChar (isWordChar_of_isNameStart starts)

theorem identifier?_append {w : List Char} (name : isName w) {rest : List Char}
    (ends : endsWord rest) :
    identifier? (w ++ rest) = some (w, rest) := by
  cases w with
  | nil => cases name
  | cons c w =>
    simp only [isName, Bool.and_eq_true] at name
    have inside : ∀ d ∈ w, isWordChar d := List.all_eq_true.mp name.2
    have behind : rest.takeWhile isWordChar = [] ∧ rest.dropWhile isWordChar = rest := by
      cases rest with
      | nil => exact ⟨rfl, rfl⟩
      | cons d rest =>
        have other : isWordChar d = false := by simpa [endsWord] using ends
        simp [other]
    rw [List.cons_append, identifier?, if_pos name.1, List.takeWhile_append_of_pos inside,
      List.dropWhile_append_of_pos inside, behind.1, behind.2, List.append_nil]

theorem identifier?_eq_some_iff {s w rest : List Char} :
    identifier? s = some (w, rest) ↔ s = w ++ rest ∧ isName w ∧ endsWord rest := by
  constructor
  · intro found
    cases s with
    | nil => cases found
    | cons c s =>
      by_cases starts : isNameStart c
      · rw [identifier?, if_pos starts] at found
        obtain ⟨rfl, rfl⟩ : c :: s.takeWhile isWordChar = w ∧ s.dropWhile isWordChar = rest := by
          simpa using found
        refine ⟨by simp, ?_, ?_⟩
        · simp only [isName, starts, Bool.true_and]
          exact List.all_takeWhile
        · cases behind : s.dropWhile isWordChar with
          | nil => rfl
          | cons d rest =>
            have other := List.head?_dropWhile_not isWordChar s
            rw [behind] at other
            simpa [endsWord] using other
      · rw [identifier?, if_neg starts] at found
        cases found
  · rintro ⟨rfl, name, ends⟩
    exact identifier?_append name ends

theorem isWordChar_of_mem_name {w : List Char} (name : isName w) {c : Char} (member : c ∈ w) :
    isWordChar c := by
  cases w with
  | nil => cases name
  | cons d w =>
    simp only [isName, Bool.and_eq_true, List.all_eq_true] at name
    rcases List.mem_cons.mp member with rfl | later
    · exact isWordChar_of_isNameStart name.1
    · exact name.2 c later

theorem length_pos_of_isName {w : List Char} (name : isName w) : 0 < w.length := by
  cases w with
  | nil => cases name
  | cons c w => exact Nat.succ_pos w.length

section Infix

variable {w s t : List Char} (name : isName w)
include name

theorem not_isInfix_nil : ¬ w <:+: [] := by
  rw [List.infix_nil]
  rintro rfl
  cases name

theorem isInfix_append_iff (ends : endsWord t) : w <:+: s ++ t ↔ w <:+: s ∨ w <:+: t := by
  cases t with
  | nil => simp [not_isInfix_nil name]
  | cons c t =>
    have other : c ∉ w := by
      intro member
      simp [endsWord, isWordChar_of_mem_name name member] at ends
    have front : w <:+: [] ++ c :: t ↔ w <:+: [] ∨ w <:+: t := isInfix_append_cons other
    rw [List.nil_append] at front
    rw [isInfix_append_cons other, front]
    simp [not_isInfix_nil name]

theorem isInfix_marks_append {marks : List Char} (none : ∀ c ∈ marks, isWordChar c = false) :
    w <:+: marks ++ s ↔ w <:+: s := by
  induction marks with
  | nil => rfl
  | cons c marks ih =>
    obtain ⟨mark, later⟩ := List.forall_mem_cons.mp none
    have ends : endsWord (c :: (marks ++ s)) := by simp [endsWord, mark]
    have other : c ∉ w := fun member => by simp [isWordChar_of_mem_name name member] at mark
    have front : w <:+: [] ++ c :: (marks ++ s) ↔ w <:+: [] ∨ w <:+: marks ++ s :=
      isInfix_append_cons other
    rw [List.nil_append] at front
    rw [List.cons_append, front, ih later]
    simp [not_isInfix_nil name]

end Infix

theorem trimStart_name {w : List Char} (name : isName w) (rest : List Char) :
    trimStart (w ++ rest) = w ++ rest := by
  cases w with
  | nil => cases name
  | cons c w =>
    simp only [isName, Bool.and_eq_true] at name
    exact trimStart_cons (isBlank_eq_false_of_isNameStart name.1) _

/-- Whether a text has nothing but words and blanks. -/
def isPlain (s : List Char) : Bool :=
  s.all fun c => isWordChar c || isBlank c

@[simp] theorem isPlain_append (s t : List Char) : isPlain (s ++ t) = (isPlain s && isPlain t) :=
  List.all_append

theorem isPlain_of_isAllBlank {blanks : List Char} (blank : isAllBlank blanks) : isPlain blanks :=
  List.all_eq_true.mpr fun c member => by simp [List.all_eq_true.mp blank c member]

theorem isPlain_of_isName {w : List Char} (name : isName w) : isPlain w :=
  List.all_eq_true.mpr fun c member => by simp [isWordChar_of_mem_name name member]

theorem not_mem_of_isPlain {s : List Char} (plain : isPlain s) {c : Char}
    (mark : isWordChar c = false ∧ isBlank c = false) :
    c ∉ s := by
  intro member
  have word := List.all_eq_true.mp plain c member
  simp [mark] at word

theorem endsHeader_append (s t : List Char) :
    endsHeader (s ++ t) = (endsHeader s || endsHeader t) :=
  List.any_append

theorem endsHeader_eq_false_iff {s : List Char} : endsHeader s = false ↔ '\x7b' ∉ s ∧ ';' ∉ s := by
  simp only [endsHeader, List.any_eq_false, Bool.or_eq_true, beq_iff_eq, not_or]
  constructor
  · intro other
    exact ⟨fun member => (other _ member).1 rfl, fun member => (other _ member).2 rfl⟩
  · rintro ⟨brace, semicolon⟩ c member
    exact ⟨ne_of_mem_of_not_mem member brace, ne_of_mem_of_not_mem member semicolon⟩

theorem endsHeader_of_isPlain {s : List Char} (plain : isPlain s) : endsHeader s = false :=
  endsHeader_eq_false_iff.mpr
    ⟨not_mem_of_isPlain plain (by decide), not_mem_of_isPlain plain (by decide)⟩

private theorem endsWord_blanks_paren {gap : List Char} (blank : isAllBlank gap)
    (rest : List Char) :
    endsWord (gap ++ '(' :: rest) := by
  cases gap with
  | nil => rfl
  | cons c gap =>
    simp only [isAllBlank, List.all_cons, Bool.and_eq_true] at blank
    simp [endsWord, (not_word_of_isBlank blank.1).1]

section Open

variable {lead gap gap' : List Char} (lead_ : isAllBlank lead) (gap_ : isAllBlank gap)
  (gap'_ : isAllBlank gap') (rest : List Char)
include lead_ gap_

theorem functionLine?_named {name : List Char} (named : isName name) (gap'_ : isAllBlank gap') :
    functionLine? (lead ++ ("function".toList ++ (gap ++ (name ++ (gap' ++ '(' :: rest))))) =
      some (some (String.ofList name)) := by
  have opened :
    after? "function"
      (trimStart (lead ++ ("function".toList ++ (gap ++ (name ++ (gap' ++ '(' :: rest)))))) =
      some (gap ++ (name ++ (gap' ++ '(' :: rest))) := by
    rw [trimStart_append lead_]
    exact after?_eq_some_iff.mpr rfl
  have paren : after? "(" (trimStart (gap' ++ '(' :: rest)) = some rest := by
    rw [trimStart_append gap'_]
    rfl
  simp only [functionLine?, opened, bind, Option.bind_some, trimStart_append gap_,
    trimStart_name named, identifier?_append named (endsWord_blanks_paren gap'_ rest), paren]

private theorem functionLine?_unnamed :
    functionLine? (lead ++ ("function".toList ++ (gap ++ '(' :: rest))) = some none := by
  have opened :
    after? "function" (trimStart (lead ++ ("function".toList ++ (gap ++ '(' :: rest)))) =
      some (gap ++ '(' :: rest) := by
    rw [trimStart_append lead_]
    exact after?_eq_some_iff.mpr rfl
  have paren : trimStart (gap ++ '(' :: rest) = '(' :: rest := by
    rw [trimStart_append gap_]
    rfl
  simp only [functionLine?, opened, bind, Option.bind_some, paren]
  rfl

private theorem specialLine?_of_mem {word : String} {kind : FunctionKind}
    (member :
      (word, kind) ∈ [("constructor", .constructor), ("fallback", .fallback),
        ("receive", .receive)]) :
    specialLine? (lead ++ (word.toList ++ (gap ++ '(' :: rest))) = some kind := by
  have paren : after? "(" (trimStart (gap ++ '(' :: rest)) = some rest := by
    rw [trimStart_append gap_]
    rfl
  have opened :
    wordOf? [("constructor", .constructor), ("fallback", .fallback), ("receive", .receive)]
      (trimStart (lead ++ (word.toList ++ (gap ++ '(' :: rest)))) =
        some (kind, gap ++ '(' :: rest) := by
    rw [trimStart_append lead_]
    simp only [List.mem_cons, Prod.mk.injEq, List.not_mem_nil, or_false] at member
    rcases member with ⟨rfl, rfl⟩ | ⟨rfl, rfl⟩ | ⟨rfl, rfl⟩ <;> rfl
  simp only [specialLine?, opened, bind, Option.bind_some, paren]

end Open

private theorem toList_paren : "(".toList = ['('] := rfl

private theorem functionLine?_append {s : List Char} {name : Option String}
    (found : functionLine? s = some name)
    (later : List Char) : functionLine? (s ++ later) = some name := by
  simp only [functionLine?, bind, Option.bind_eq_some_iff] at found
  obtain ⟨rest, opened, found⟩ := found
  obtain ⟨lead, split, lead_⟩ := exists_trimStart s
  obtain ⟨gap, split', gap_⟩ := exists_trimStart rest
  rw [after?_eq_some_iff] at opened
  rw [split, opened, split']
  split at found
  · next w behind named =>
    obtain ⟨whole, name_, -⟩ := identifier?_eq_some_iff.mp named
    obtain ⟨more, paren, found⟩ := Option.bind_eq_some_iff.mp found
    obtain rfl : some (String.ofList w) = name := Option.some.inj found
    obtain ⟨gap', split'', gap'_⟩ := exists_trimStart behind
    rw [after?_eq_some_iff, toList_paren] at paren
    rw [whole, split'', paren]
    have line := functionLine?_named lead_ gap_ (more ++ later) name_ gap'_
    simpa only [List.append_assoc, List.cons_append, List.nil_append] using line
  · obtain ⟨more, paren, found⟩ := Option.bind_eq_some_iff.mp found
    obtain rfl : none = name := Option.some.inj found
    rw [after?_eq_some_iff, toList_paren] at paren
    rw [paren]
    have line := functionLine?_unnamed lead_ gap_ (more ++ later)
    simpa only [List.append_assoc, List.cons_append, List.nil_append] using line

private theorem specialLine?_append {s : List Char} {kind : FunctionKind}
    (found : specialLine? s = some kind)
    (later : List Char) : specialLine? (s ++ later) = some kind := by
  simp only [specialLine?, bind, Option.bind_eq_some_iff] at found
  obtain ⟨⟨kind', rest⟩, opened, more, paren, found⟩ := found
  obtain rfl : kind' = kind := Option.some.inj found
  obtain ⟨word, member, split⟩ := exists_of_wordOf? opened
  obtain ⟨lead, split', lead_⟩ := exists_trimStart s
  obtain ⟨gap, split'', gap_⟩ := exists_trimStart rest
  rw [after?_eq_some_iff, toList_paren] at paren
  rw [split', split, split'', paren]
  have line := specialLine?_of_mem lead_ gap_ (more ++ later) member
  simpa only [List.append_assoc, List.cons_append, List.nil_append] using line

theorem headerStart?_append {s : List Char} {start : String × FunctionKind}
    (found : headerStart? s = some start)
    (later : List Char) : headerStart? (s ++ later) = some start := by
  unfold headerStart? at found ⊢
  split at found
  · next name line =>
    rw [functionLine?_append line later]
    exact found
  · obtain ⟨kind, line, named⟩ := Option.map_eq_some_iff.mp found
    -- The word of a special function is not the one that `functionLine?` looks for.
    have other : functionLine? (s ++ later) = none := by
      simp only [specialLine?, bind, Option.bind_eq_some_iff] at line
      obtain ⟨⟨kind', rest⟩, opened, -⟩ := line
      obtain ⟨word, member, split⟩ := exists_of_wordOf? opened
      obtain ⟨lead, split', lead_⟩ := exists_trimStart s
      rw [functionLine?, split', List.append_assoc, trimStart_append lead_, split]
      simp only [List.mem_cons, Prod.mk.injEq, List.not_mem_nil, or_false] at member
      rcases member with ⟨rfl, -⟩ | ⟨rfl, -⟩ | ⟨rfl, -⟩ <;> rfl
    rw [other, specialLine?_append line later, ← line]
    exact found

/-- Whether the parentheses of a text match: each closing one closes one before it, of which `depth`
are open before the text, and none is left open. -/
def balancedFrom : Nat → List Char → Bool
  | depth, [] => depth == 0
  | depth, c :: s =>
    if c = '(' then balancedFrom (depth + 1) s
    else if c = ')' then
      match depth with
      | 0 => false
      | depth + 1 => balancedFrom depth s
    else balancedFrom depth s

/-- Along a text whose parentheses match: one that opens leaves one more to close, one that closes
leaves one less. -/
@[elab_as_elim]
theorem balanced_induction {motive : ∀ (depth : Nat) (s : List Char), balancedFrom depth s → Prop}
    (nil : motive 0 [] rfl)
    (opening : ∀ {depth : Nat} {s : List Char} (balanced : balancedFrom (depth + 1) s),
      motive (depth + 1) s balanced → motive depth ('(' :: s) balanced)
    (closing : ∀ {depth : Nat} {s : List Char} (balanced : balancedFrom depth s),
      motive depth s balanced → motive (depth + 1) (')' :: s) balanced)
    (other : ∀ {depth : Nat} {c : Char} {s : List Char} (opens : c ≠ '(') (closes : c ≠ ')')
      (balanced : balancedFrom depth s), motive depth s balanced →
      motive depth (c :: s) (by simpa [balancedFrom, opens, closes] using balanced))
    {depth : Nat} {s : List Char} (balanced : balancedFrom depth s) : motive depth s balanced := by
  induction s generalizing depth with
  | nil =>
    obtain rfl : depth = 0 := by simpa [balancedFrom] using balanced
    exact nil
  | cons c s ih =>
    by_cases opens : c = '('
    · subst opens
      exact opening _ (ih balanced)
    · by_cases closes : c = ')'
      · subst closes
        cases depth with
        | zero => cases balanced
        | succ depth => exact closing _ (ih balanced)
      · have goesOn : balancedFrom depth s := by
          rw [balancedFrom.eq_def] at balanced
          simpa [opens, closes] using balanced
        exact other opens closes goesOn (ih goesOn)

private theorem closingParenFrom_append {depth : Nat} {s : List Char}
    (balanced : balancedFrom depth s) (inside rest : List Char) :
    closingParenFrom depth inside (s ++ ')' :: rest) = some (inside.reverse ++ s, rest) := by
  induction balanced using balanced_induction generalizing inside with
  | nil => simp [closingParenFrom]
  | opening _ ih => simpa [closingParenFrom] using ih ('(' :: inside)
  | closing _ ih => simpa [closingParenFrom] using ih (')' :: inside)
  | other opens closes _ ih => simpa [closingParenFrom, opens, closes] using ih (_ :: inside)

/-- The parameter list of a header is what stands between the first parenthesis and the one that
matches it. -/
theorem headerParts_append {word params : List Char} (none : '(' ∉ word)
    (balanced : balancedFrom 0 params)
    (rest : List Char) : headerParts (word ++ '(' :: (params ++ ')' :: rest)) = (params, rest) := by
  rw [headerParts, splitAtChar?_eq_some_iff.mpr ⟨none, rfl⟩]
  simp only [closingParenFrom_append balanced]
  rfl

theorem headerText_append {s : List Char} (goesOn : endsHeader s = false) (t : List Char)
    (ls : List (List Char)) :
    headerText ((s ++ t) :: ls) = s ++ headerText (t :: ls) := by
  have inside : ∀ c ∈ s, (c != '\x7b' && c != ';') = true := by
    intro c member
    have other := List.any_eq_false.mp goesOn c member
    simpa [not_or] using other
  rw [headerText, headerText, List.any_append, ← endsHeader, goesOn, Bool.false_or]
  split
  · rw [List.takeWhile_append_of_pos inside]
  · rw [List.append_assoc]

theorem headerText_of_ends {s : List Char} {c : Char} (goesOn : endsHeader s = false)
    (ends : endsHeader [c])
    (rest : List Char) (ls : List (List Char)) : headerText ((s ++ c :: rest) :: ls) = s := by
  have last : (c == '\x7b' || c == ';') = true := by simpa [endsHeader] using ends
  have last' : (c != '\x7b' && c != ';') = false := by
    simpa [or_iff_not_imp_left] using last
  rw [headerText_append goesOn, headerText]
  simp [last, last']

def Item.line : Item → Nat
  | .contract d => d.line
  | .function d => d.line
  | .modifier d => d.line
  | .event d => d.line
  | .imported d => d.line
  | .stateVariable d => d.line

theorem item?_line {p : Position} {ls : List (List Char)} {line : Nat} {item : Item}
    (found : item? p ls line = some item) : item.line = line := by
  simp only [item?] at found
  split at found
  · next d declared =>
    simp only [contractLine?, Option.map_eq_some_iff] at declared
    obtain ⟨_, _, rfl⟩ := declared
    obtain rfl := Option.some.inj found
    rfl
  split at found
  · next d declared =>
    rw [functionItem?_eq] at declared
    obtain ⟨_, _, rfl⟩ := Option.map_eq_some_iff.mp declared
    obtain rfl := Option.some.inj found
    rfl
  split at found
  · next d declared =>
    simp only [modifierLine?, bind, Option.bind_eq_some_iff, Option.some.injEq] at declared
    obtain ⟨_, _, _, _, _, _, rfl⟩ := declared
    obtain rfl := Option.some.inj found
    rfl
  split at found
  · next d declared =>
    simp only [eventLine?, bind, Option.bind_eq_some_iff, Option.some.injEq] at declared
    obtain ⟨_, _, _, _, _, _, _, _, _, _, rfl⟩ := declared
    obtain rfl := Option.some.inj found
    rfl
  split at found
  · next d declared =>
    simp only [importLine?, bind, Option.bind_eq_some_iff, Option.some.injEq] at declared
    obtain ⟨_, _, _, _, _, _, rfl⟩ := declared
    obtain rfl := Option.some.inj found
    rfl
  split at found
  · obtain ⟨d, declared, rfl⟩ := Option.map_eq_some_iff.mp found
    simp only [variableLine?, bind, Option.bind_eq_some_iff] at declared
    obtain ⟨_, _, declared⟩ := declared
    split at declared
    · cases declared
    · simp only [Option.bind_eq_some_iff, Option.some.injEq] at declared
      obtain ⟨_, _, rfl⟩ := declared
      rfl
  · cases found

theorem le_line_of_mem_itemsFrom {p : Position} {line : Nat} {ls : List (List Char)} {item : Item}
    (member : item ∈ itemsFrom p line [] ls) : line ≤ item.line := by
  induction ls generalizing p line with
  | nil => simp [itemsFrom] at member
  | cons s ls ih =>
    rw [itemsFrom_cons, List.mem_append, Option.mem_toList] at member
    rcases member with here | later
    · exact Nat.le_of_eq (item?_line here).symm
    · exact Nat.le_of_succ_le (ih later)

theorem filter_itemsFrom (p : Position) (line : Nat) {n : Nat} {ls : List (List Char)}
    (listed : n < ls.length) :
    (itemsFrom p line [] ls).filter (·.line = line + n) =
      (item? ((ls.take n).foldl Position.past p) (ls.drop n) (line + n)).toList := by
  induction ls generalizing p line n with
  | nil => simp at listed
  | cons s ls ih =>
    rw [itemsFrom_cons, List.filter_append]
    cases n with
    | zero =>
      have here : (item? p (s :: ls) line).toList.filter (·.line = line) =
          (item? p (s :: ls) line).toList := by
        refine List.filter_eq_self.mpr ?_
        intro item member
        simpa using item?_line (Option.mem_toList.mp member)
      have later : (itemsFrom (p.past s) (line + 1) [] ls).filter (·.line = line) = [] := by
        refine List.filter_eq_nil_iff.mpr ?_
        intro item member
        have below := le_line_of_mem_itemsFrom member
        simp only [decide_eq_true_eq]
        omega
      rw [Nat.add_zero, here, later]
      simp
    | succ n =>
      have here : (item? p (s :: ls) line).toList.filter (·.line = line + (n + 1)) = [] := by
        refine List.filter_eq_nil_iff.mpr ?_
        intro item member
        have line := item?_line (Option.mem_toList.mp member)
        simp only [decide_eq_true_eq]
        omega
      have later := ih (p.past s) (line + 1) (by simpa using listed)
      rw [Nat.add_right_comm] at later
      rw [here, ← Nat.add_assoc, later]
      rfl

private theorem filter_filterMap_line {α : Type} {pick : Item → Option α} {line : α → Nat}
    (keeps : ∀ item a, pick item = some a → line a = item.line) (all : List Item) (n : Nat) :
    (all.filterMap pick).filter (line · = n) = (all.filter (·.line = n)).filterMap pick := by
  rw [List.filter_filterMap, List.filterMap_filter]
  refine List.filterMap_congr ?_
  intro item _
  cases picked : pick item with
  | none => simp
  | some a =>
    have same := keeps item a picked
    by_cases here : item.line = n
    · simp [Option.filter, same, here]
    · simp [Option.filter, same, here]

theorem functions_filter (cleaned : List Char) (n : Nat) :
    (extract cleaned).functions.filter (·.line = n) =
      ((items cleaned).filter (·.line = n)).filterMap fun | .function d => some d | _ => none := by
  refine filter_filterMap_line ?_ (items cleaned) n
  rintro (_ | _ | _ | _ | _ | _) d ⟨⟩
  rfl

theorem contracts_filter (cleaned : List Char) (n : Nat) :
    (extract cleaned).contracts.filter (·.line = n) =
      ((items cleaned).filter (·.line = n)).filterMap fun | .contract d => some d | _ => none := by
  refine filter_filterMap_line ?_ (items cleaned) n
  rintro (_ | _ | _ | _ | _ | _) d ⟨⟩
  rfl

theorem functions_filter_of_headerStart? {cleaned s : List Char} {n : Nat}
    {start : String × FunctionKind}
    (place : (lines cleaned)[n]? = some s) (started : headerStart? s = some start) :
    (extract cleaned).functions.filter (·.line = n + 1) =
      [functionOf (headerText ((s :: (lines cleaned).drop (n + 1)).take headerLines))
        start.1 start.2 (positionAfter ((lines cleaned).take n)).owner (n + 1)] := by
  obtain ⟨listed, rfl⟩ := List.getElem?_eq_some_iff.mp place
  have found := filter_itemsFrom ⟨0, none⟩ 1 listed
  rw [List.drop_eq_getElem_cons listed, item?_of_headerStart? started, Nat.add_comm 1 n] at found
  rw [functions_filter, items, found]
  rfl

end AuditPanel.Source
