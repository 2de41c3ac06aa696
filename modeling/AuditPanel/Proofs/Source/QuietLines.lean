import AuditPanel.Proofs.Source.Spacing
import AuditPanel.Proofs.Source.StateVariable

/-!
What a part of a source leaves alone. A line may declare nothing and open nothing; lines above
declare the same where what stands behind them reads the same; declarations move with their lines;
and a version requirement ends at its semicolon.
-/

set_option autoImplicit false

namespace AuditPanel.Source

open AuditPanel.Text

def LineState.after (state : LineState) (s : List Char) : LineState :=
  s.foldl LineState.next state

/-- A text that closes its literals and has as many opening as closing braces outside of them. -/
structure IsLevel (s : List Char) : Prop where
  closed : LineState.code.after s = .code
  balanced : braceDelta s = 0

instance (s : List Char) : Decidable (IsLevel s) :=
  decidable_of_iff (LineState.code.after s = .code ∧ braceDelta s = 0)
    ⟨fun level => ⟨level.1, level.2⟩, fun level => ⟨level.closed, level.balanced⟩⟩

theorem braceDeltaFrom_append (state : LineState) (delta : Int) (s t : List Char) :
    braceDeltaFrom state delta (s ++ t) = braceDeltaFrom (state.after s)
      (braceDeltaFrom state delta s) t := by
  induction s generalizing state delta with
  | nil => rfl
  | cons c s ih => exact ih (state.next c) (delta + state.weight c)

theorem IsLevel.braceDelta_append {s : List Char} (level : IsLevel s) (t : List Char) :
    braceDelta (s ++ t) = braceDelta t := by
  have whole := braceDeltaFrom_append .code 0 s t
  rw [level.closed, show braceDeltaFrom .code 0 s = 0 from level.balanced] at whole
  exact whole

theorem IsLevel.append {s t : List Char} (level : IsLevel s) (level' : IsLevel t) :
    IsLevel (s ++ t) where
  closed := by
    have whole : LineState.code.after (s ++ t) = (LineState.code.after s).after t :=
      List.foldl_append
    rw [whole, level.closed, level'.closed]
  balanced := by rw [level.braceDelta_append, level'.balanced]

theorem isLevel_blank {c : Char} (blank : isBlank c) : IsLevel [c] := by
  have noQuote : isQuote c = false := by
    by_contra quote
    have solid : isBlank c = false := by
      simp only [isQuote, Bool.not_eq_false, Bool.or_eq_true, beq_iff_eq] at quote
      rcases quote with rfl | rfl <;> decide
    rw [solid] at blank
    cases blank
  have noBrace : LineState.code.weight c = 0 := by
    unfold LineState.weight
    split
    · cases blank
    · cases blank
    · rfl
  constructor
  · rw [LineState.after, List.foldl_cons, List.foldl_nil, LineState.next, noQuote]
    rfl
  · rw [braceDelta, braceDeltaFrom, noBrace]
    rfl

theorem Position.past_eq {s t : List Char} (plain : contractLine? s 0 = none)
    (plain' : contractLine? t 0 = none)
    (same : braceDelta s = braceDelta t) (p : Position) : p.past s = p.past t := by
  simp only [past, plain, plain', next, same]

theorem Position.past_level {s : List Char} (plain : contractLine? s 0 = none)
    (balanced : braceDelta s = 0) (p : Position) : p.past s = p := by
  cases p with
  | mk depth current => cases current <;> simp [past, plain, next, balanced]

theorem contractLine?_of_item? {p : Position} {s : List Char} (quiet : item? p [s] 0 = none) :
    contractLine? s 0 = none := by
  cases found : contractLine? s 0 with
  | none => rfl
  | some d => simp [item?, found] at quiet

theorem item?_eq_none_iff (p : Position) (s : List Char) (ls : List (List Char)) (line : Nat) :
    item? p (s :: ls) line = none ↔ item? p [s] 0 = none := by
  have number := item?_down 0 line p (s :: ls)
  rw [Nat.zero_add] at number
  rw [number, Option.map_eq_none_iff]
  -- What a header says hangs on the lines below it too, but not whether a line starts one.
  simp only [item?, functionItem?_eq, List.headD_cons]
  cases contractLine? s 0 with
  | some d => simp
  | none =>
    cases headerStart? s with
    | some start => simp
    | none => rfl

theorem itemsFrom_quiet {p : Position} {ls : List (List Char)}
    (balanced : ∀ s ∈ ls, braceDelta s = 0)
    (quiet : ∀ s ∈ ls, item? p [s] 0 = none) (line : Nat) (later : List (List Char)) :
    itemsFrom p line [] (ls ++ later) = itemsFrom p (line + ls.length) [] later := by
  induction ls generalizing line with
  | nil => rfl
  | cons s ls ih =>
    obtain ⟨level, levels⟩ := List.forall_mem_cons.mp balanced
    obtain ⟨silent, silents⟩ := List.forall_mem_cons.mp quiet
    have none := (item?_eq_none_iff p s (ls ++ later) line).mpr silent
    rw [List.cons_append, itemsFrom_cons, none, Position.past_level (contractLine?_of_item? silent)
      level, ih levels silents, List.length_cons, Nat.add_right_comm, Nat.add_assoc]
    rfl

theorem exists_mem_itemsFrom {p : Position} {ls : List (List Char)} {last : List Char}
    (balanced : ∀ s ∈ ls, braceDelta s = 0) (declares : ∃ s ∈ ls ++ [last], item? p [s] 0 ≠ none)
    (line : Nat)
    (later : List (List Char)) :
    ∃ item ∈ itemsFrom p line [] (ls ++ last :: later), item.line ≤ line + ls.length := by
  induction ls generalizing line with
  | nil =>
    obtain ⟨s, member, found⟩ := declares
    obtain rfl : s = last := by simpa using member
    obtain ⟨item, here⟩ :=
      Option.ne_none_iff_exists'.mp (mt (item?_eq_none_iff p s later line).mp found)
    refine ⟨item, ?_, Nat.le_of_eq (item?_line here)⟩
    simp [itemsFrom_cons, here]
  | cons s ls ih =>
    -- Before the first line that declares something the position stays as it is.
    obtain ⟨level, levels⟩ := List.forall_mem_cons.mp balanced
    by_cases quiet : item? p [s] 0 = none
    · have further : ∃ t ∈ ls ++ [last], item? p [t] 0 ≠ none := by
        obtain ⟨t, member, found⟩ := declares
        rcases List.mem_cons.mp member with rfl | member
        · exact absurd quiet found
        · exact ⟨t, member, found⟩
      obtain ⟨item, member, below⟩ := ih levels further (line + 1)
      refine ⟨item, ?_, ?_⟩
      · rw [List.cons_append, itemsFrom_cons,
          Position.past_level (contractLine?_of_item? quiet) level]
        exact List.mem_append_right _ member
      · rw [List.length_cons]
        omega
    · have declared := mt (item?_eq_none_iff p s (ls ++ last :: later) line).mp quiet
      obtain ⟨item, here⟩ := Option.ne_none_iff_exists'.mp declared
      refine ⟨item, ?_, ?_⟩
      · simp [itemsFrom_cons, here]
      · rw [item?_line here]
        omega

/-- Whether a line has neither a sign that ends a state variable nor a word at its beginning that
starts another declaration. -/
def isInert (s : List Char) : Bool :=
  !s.contains '=' && !s.contains ';' &&
    ["abstract", "contract", "interface", "library", "function", "constructor", "fallback",
      "receive", "modifier", "event", "import"].all fun word => (after? word (trimStart s)).isNone

theorem item?_of_isInert {s : List Char} (inert : isInert s) (p : Position) :
    item? p [s] 0 = none := by
  simp only [isInert, Bool.and_eq_true, Bool.not_eq_true', List.contains_eq_mem,
    decide_eq_false_iff_not, List.all_cons, Option.isNone_iff_eq_none, List.all_nil,
    and_true] at inert
  obtain ⟨⟨equals, semicolon⟩, abstract_, contract, interface_, library, function_, constructor_,
    fallback, receive, modifier, event, import_⟩ := inert
  have noContract : contractLine? s 0 = none := by
    simp [contractLine?, abstract_, contractHead?, contractWords, wordOf?, contract, interface_,
      library]
  have noHeader : headerStart? s = none := by
    simp [headerStart?, functionLine?, function_, specialLine?, wordOf?, constructor_, fallback,
      receive]
  have noModifier : modifierLine? s p.owner 0 = none := by simp [modifierLine?, modifier]
  have noEvent : eventLine? s 0 = none := by simp [eventLine?, event]
  have noImport : importLine? s 0 = none := by simp [importLine?, import_]
  have noVariable : variableLine? s p.owner 0 = none := by
    rw [Option.eq_none_iff_forall_not_mem]
    intro v declared
    rcases hasEnd_of_variableLine? declared with member | member
    · exact equals member
    · exact semicolon member
  simp [item?, functionItem?_eq, noContract, noHeader, noModifier, noEvent, noImport, noVariable]

/-- No header of a function that starts on the lines goes on behind them but where it may take
`count` more lines. -/
def HasRoom (ls : List (List Char)) (count : Nat) : Prop :=
  ∀ rest ∈ ls.tails, ∀ s ∈ rest.head?, (headerStart? s).isSome →
    (∃ l ∈ rest, endsHeader l) ∨ rest.length + count < headerLines

instance (ls : List (List Char)) (count : Nat) : Decidable (HasRoom ls count) :=
  inferInstanceAs (Decidable (∀ rest ∈ ls.tails, ∀ s ∈ rest.head?, (headerStart? s).isSome →
    (∃ l ∈ rest, endsHeader l) ∨ rest.length + count < headerLines))

theorem item?_congr {s : List Char} {ls ls' : List (List Char)}
    (same : (headerStart? s).isSome →
      spaced (headerText ((s :: ls).take headerLines)) =
        spaced (headerText ((s :: ls').take headerLines)))
    (p : Position) (line : Nat) : item? p (s :: ls) line = item? p (s :: ls') line := by
  simp only [item?, functionItem?_eq, List.headD_cons]
  cases started : headerStart? s with
  | none => rfl
  | some start =>
    have read : functionOf (headerText ((s :: ls).take headerLines)) start.1 start.2 p.owner line =
        functionOf (headerText ((s :: ls').take headerLines)) start.1 start.2 p.owner line := by
      rw [← functionOf_spaced, same (by simp [started]), functionOf_spaced]
    simp only [Option.map_some, read]

theorem itemsFrom_above {ls x y : List (List Char)}
    (same : ∀ rest ∈ ls.tails, ∀ s ∈ rest.head?, ∀ p line, item? p (rest ++ x) line =
      item? p (rest ++ y) line) (p : Position) (line : Nat) :
    ∃ out, (∀ item ∈ out, item.line < line + ls.length) ∧
      itemsFrom p line [] (ls ++ x) = out ++ itemsFrom (ls.foldl Position.past p)
        (line + ls.length) [] x ∧
      itemsFrom p line [] (ls ++ y) = out ++ itemsFrom (ls.foldl Position.past p) (line + ls.length)
        [] y := by
  induction ls generalizing p line with
  | nil => exact ⟨[], by simp, rfl, rfl⟩
  | cons s ls ih =>
    -- Where a line leads to hangs on the line alone, so both sources stay in step.
    have here := same (s :: ls) (by simp) s rfl p line
    obtain ⟨out, above, front, front'⟩ :=
      ih (fun rest member => same rest (List.mem_cons_of_mem _ member)) (p.past s) (line + 1)
    rw [List.cons_append, List.cons_append] at here
    have count : line + 1 + ls.length = line + (s :: ls).length := by
      rw [List.length_cons]
      omega
    rw [count] at above front front'
    refine ⟨(item? p (s :: (ls ++ x)) line).toList ++ out, ?_, ?_, ?_⟩
    · intro item member
      rcases List.mem_append.mp member with found | later
      · rw [item?_line (Option.mem_toList.mp found), List.length_cons]
        omega
      · exact above item later
    · rw [List.cons_append, itemsFrom_cons, front, List.append_assoc]
      rfl
    · rw [List.cons_append, itemsFrom_cons, front', ← here, List.append_assoc]
      rfl

theorem filter_line {out : List Item} {d : FunctionDecl} {number : Nat}
    (above : ∀ item ∈ out, item.line < number)
    (line : d.line = number) (p : Position) (ls : List (List Char)) :
    (out ++ .function d :: itemsFrom p (number + 1) [] ls).filter (·.line = number) =
    [.function d] := by
  have front : out.filter (·.line = number) = [] := by
    refine List.filter_eq_nil_iff.mpr ?_
    intro item member
    simpa using Nat.ne_of_lt (above item member)
  have behind : (itemsFrom p (number + 1) [] ls).filter (·.line = number) = [] := by
    refine List.filter_eq_nil_iff.mpr ?_
    intro item member
    simpa using Nat.ne_of_gt (le_line_of_mem_itemsFrom member)
  have here : decide ((Item.function d).line = number) = true := decide_eq_true line
  rw [List.filter_append, front, List.nil_append, List.filter_cons, here, behind]
  rfl

theorem headerText_goesOn {ls : List (List Char)} (goesOn : ∀ l ∈ ls, endsHeader l = false)
    (later : List (List Char)) :
    headerText (ls ++ later) = ls.flatMap (· ++ [' ']) ++ headerText later := by
  induction ls with
  | nil => rfl
  | cons s ls ih =>
    obtain ⟨first, rest⟩ := List.forall_mem_cons.mp goesOn
    have inside : s.any (fun c => c == '\x7b' || c == ';') = false := first
    rw [List.cons_append, headerText, if_neg (by simp [inside]), ih rest, List.flatMap_cons]
    simp

def Item.moved (move : Nat → Nat) : Item → Item
  | .contract d => .contract { d with line := move d.line }
  | .function d => .function { d with line := move d.line }
  | .modifier d => .modifier { d with line := move d.line }
  | .event d => .event { d with line := move d.line }
  | .imported d => .imported { d with line := move d.line }
  | .stateVariable d => .stateVariable { d with line := move d.line }

def Declarations.moved (move : Nat → Nat) (d : Declarations) : Declarations :=
  { pragma := d.pragma
    contracts := d.contracts.map fun c => { c with line := move c.line }
    functions := d.functions.map fun f => { f with line := move f.line }
    modifiers := d.modifiers.map fun m => { m with line := move m.line }
    events := d.events.map fun e => { e with line := move e.line }
    imports := d.imports.map fun i => { i with line := move i.line }
    stateVariables := d.stateVariables.map fun v => { v with line := move v.line } }

def Declarations.lineNumbers (d : Declarations) : List Nat :=
  d.contracts.map (·.line) ++ d.functions.map (·.line) ++ d.modifiers.map (·.line) ++
    d.events.map (·.line) ++ d.imports.map (·.line) ++ d.stateVariables.map (·.line)

theorem Declarations.lineNumbers_moved (move : Nat → Nat) (d : Declarations) :
    (d.moved move).lineNumbers = d.lineNumbers.map move := by
  simp [lineNumbers, moved, Function.comp_def]

theorem line_mem_lineNumbers {cleaned : List Char} {item : Item} (member : item ∈ items cleaned) :
    item.line ∈ (extract cleaned).lineNumbers := by
  have listed {α : Type} {pick : Item → Option α} {d : α} (picked : pick item = some d) :
      d ∈ (items cleaned).filterMap pick := List.mem_filterMap.mpr ⟨item, member, picked⟩
  simp only [Declarations.lineNumbers, List.mem_append, List.mem_map, extract, or_assoc]
  cases item with
  | contract d => exact .inl ⟨d, listed rfl, rfl⟩
  | function d => exact .inr (.inl ⟨d, listed rfl, rfl⟩)
  | modifier d => exact .inr (.inr (.inl ⟨d, listed rfl, rfl⟩))
  | event d => exact .inr (.inr (.inr (.inl ⟨d, listed rfl, rfl⟩)))
  | imported d => exact .inr (.inr (.inr (.inr (.inl ⟨d, listed rfl, rfl⟩))))
  | stateVariable d => exact .inr (.inr (.inr (.inr (.inr ⟨d, listed rfl, rfl⟩))))

theorem extract_moved {cleaned cleaned' : List Char} {move : Nat → Nat}
    (all : items cleaned' = (items cleaned).map (Item.moved move))
    (pragma : pragma? cleaned' = pragma? cleaned) :
    extract cleaned' = (extract cleaned).moved move := by
  simp only [extract, Declarations.moved, all, pragma, Declarations.mk.injEq, true_and]
  refine ⟨?_, ?_, ?_, ?_, ?_, ?_⟩
  all_goals exact filterMap_map_moved (by rintro (_ | _ | _ | _ | _ | _) <;> rfl) _

theorem Item.moved_eq_self {item : Item} {move : Nat → Nat} (stays : move item.line = item.line) :
    item.moved move = item := by
  cases item <;> simp only [Item.line] at stays <;> simp only [moved, stays]

theorem Item.moved_eq_down {item : Item} {move : Nat → Nat} {count : Nat}
    (moves : move item.line = item.line + count) :
    item.moved move = item.down count := by
  cases item <;> simp only [Item.line] at moves <;> simp only [moved, down, moves]

private theorem pragmaAt?_append (s x y : List Char) :
    pragmaAt? (s ++ ';' :: x) = pragmaAt? (s ++ ';' :: y) := by
  have solid : isBlank ';' = false := by decide
  simp only [pragmaAt?, bind]
  rw [after?_append_cons (by decide), after?_append_cons (by decide)]
  cases after? "pragma" s with
  | none => rfl
  | some rest =>
    simp only [Option.map_some, Option.bind_some]
    rw [afterBlanks?_append_cons solid, afterBlanks?_append_cons solid]
    cases afterBlanks? rest with
    | none => rfl
    | some rest =>
      simp only [Option.map_some, Option.bind_some]
      rw [after?_append_cons (by decide), after?_append_cons (by decide)]
      cases after? "solidity" rest with
      | none => rfl
      | some rest =>
        obtain ⟨more, split⟩ := exists_splitAtChar?_append ';' (rest.dropWhile isBlank) x
        obtain ⟨more', split'⟩ := exists_splitAtChar?_append ';' (rest.dropWhile isBlank) y
        simp only [Option.map_some, Option.bind_some, takeWhile_append_stop solid,
          dropWhile_append_stop solid, split, split']

private theorem pragmaAt?_eq_none {s : List Char} (other : after? "pragma" s = none) :
    pragmaAt? s = none := by
  rw [pragmaAt?, other]
  rfl

theorem not_mem_pragma_of_isBlank {c : Char} (blank : isBlank c) : c ∉ "pragma".toList := by
  intro member
  have solid : "pragma".toList.any isBlank = false := by decide
  exact List.any_eq_false.mp solid c member blank

/-- A text without the word for a version requirement has none, up to a character that is not one of
the word's. -/
theorem firstPosition_pragmaAt?_append {s : List Char} {c : Char}
    (none : contains "pragma" s = false) (other : c ∉ "pragma".toList) (x : List Char) :
    firstPosition pragmaAt? (s ++ c :: x) = firstPosition pragmaAt? x := by
  have silent {t : List Char} (suffix : t <:+ s) : pragmaAt? (t ++ c :: x) = Option.none := by
    refine pragmaAt?_eq_none ?_
    rw [after?_append_cons other, Option.map_eq_none_iff, Option.eq_none_iff_forall_not_mem]
    intro rest found
    have front : "pragma".toList <+: t := after?_eq_some_iff.mp found ▸ List.prefix_append _ rest
    rw [contains_iff.mpr (front.isInfix.trans suffix.isInfix)] at none
    cases none
  have here : pragmaAt? (c :: x) = Option.none := silent List.nil_suffix
  rw [firstPosition_skip fun t member _ => silent ((List.mem_tails t s).mp member),
    firstPosition, here]

theorem firstPosition_pragmaAt?_congr {u x y : List Char} (ended : IsEnded u)
    (closed : ∀ s ∈ u.tails, ∀ rest ∈ after? "pragma" s, ';' ∈ rest)
    (later : firstPosition pragmaAt? x = firstPosition pragmaAt? y) :
    firstPosition pragmaAt? (u ++ x) = firstPosition pragmaAt? (u ++ y) := by
  refine firstPosition_congr ?_ later
  intro s member filled
  obtain ⟨t, rfl⟩ : ∃ t, s = t ++ ['\n'] := by
    obtain ⟨front, rfl⟩ := (List.mem_tails s u).mp member
    obtain ⟨t, c, rfl⟩ := (List.eq_nil_or_concat' s).resolve_left filled
    have feed := ended.resolve_left (by simp)
    rw [← List.append_assoc, List.getLast?_concat] at feed
    exact ⟨t, by rw [Option.some.inj feed]⟩
  -- The word for a requirement does not reach over the line feed at the end of the text.
  have other : '\n' ∉ "pragma".toList := by decide
  have front (z : List Char) : after? "pragma" (t ++ '\n' :: z) = (after? "pragma" t).map
      (· ++ '\n' :: z) :=
    after?_append_cons other z
  rw [List.append_assoc, List.append_assoc, List.singleton_append, List.singleton_append]
  cases found : after? "pragma" t with
  | none =>
    rw [pragmaAt?_eq_none (by rw [front, found]; rfl),
      pragmaAt?_eq_none (by rw [front, found]; rfl)]
  | some rest =>
    have semicolon := closed _ member (rest ++ ['\n']) (by rw [front, found]; rfl)
    obtain ⟨a, b, rfl⟩ := List.append_of_mem (show ';' ∈ rest by simpa using semicolon)
    rw [after?_eq_some_iff.mp found]
    have same := pragmaAt?_append ("pragma".toList ++ a) (b ++ '\n' :: x) (b ++ '\n' :: y)
    simpa only [List.append_assoc, List.cons_append] using same

end AuditPanel.Source
