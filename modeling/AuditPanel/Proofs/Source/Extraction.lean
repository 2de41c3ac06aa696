import AuditPanel.Proofs.Text.Lines
import AuditPanel.Source.Extraction
import Mathlib.Algebra.BigOperators.Group.List.Basic
import Mathlib.Algebra.Ring.Int.Defs
import Mathlib.Data.List.Infix

/-!
Sources put one after the other. What a text declares does not depend on the text before it as long
as that one is complete and leaves no contract open. A contract whose body is opened and closed by
balanced lines stays open: what follows it is taken for a part of it.
-/

set_option autoImplicit false

namespace AuditPanel.Source

open AuditPanel.Text

def isContractHeader (s : List Char) : Bool :=
  (contractLine? s 0).isSome

/-- Whether a line starts a header that goes on to a brace or a semicolon. -/
def isHeader (s : List Char) : Bool :=
  isContractHeader s || (functionLine? s).isSome || (specialLine? s).isSome ||
    (modifierLine? s none 0).isSome

def endsHeader (s : List Char) : Bool :=
  s.any fun c => c == '\x7b' || c == ';'

/-- Every header comes to its end within the lines. -/
def HeadersEnd (ls : List (List Char)) : Prop :=
  ∀ rest ∈ ls.tails, ∀ s ∈ rest.head?, isHeader s → ∃ l ∈ rest, endsHeader l

instance (ls : List (List Char)) : Decidable (HeadersEnd ls) := by
  unfold HeadersEnd
  infer_instance

private theorem headersEnd_cons {s : List Char} {ls : List (List Char)} :
    HeadersEnd (s :: ls) ↔ (isHeader s → ∃ l ∈ s :: ls, endsHeader l) ∧ HeadersEnd ls := by
  simp [HeadersEnd]

theorem headerText_take_append {ls : List (List Char)} (ends : ∃ l ∈ ls, endsHeader l)
    (later : List (List Char))
    (count : Nat) : headerText ((ls ++ later).take count) = headerText (ls.take count) := by
  induction ls generalizing count with
  | nil => simp at ends
  | cons l ls ih =>
    cases count with
    | zero => rfl
    | succ count =>
      simp only [List.cons_append, List.take_succ_cons, headerText]
      split
      · rfl
      · next goesOn =>
        have further : ∃ l ∈ ls, endsHeader l := by
          obtain ⟨l', member, ended⟩ := ends
          rcases List.mem_cons.mp member with rfl | member
          · exact absurd ended goesOn
          · exact ⟨l', member, ended⟩
        rw [ih further]

private theorem functionItem?_append {s : List Char} {ls : List (List Char)}
    (ends : isHeader s → ∃ l ∈ s :: ls, endsHeader l) (later : List (List Char))
    (owner : Option String) (line : Nat) :
    functionItem? (s :: (ls ++ later)) owner line = functionItem? (s :: ls) owner line := by
  by_cases started : (functionLine? s).isSome ∨ (specialLine? s).isSome
  · have header : isHeader s := by
      rcases started with h | h <;> simp [isHeader, h]
    have same := headerText_take_append (ends header) later headerLines
    rw [List.cons_append] at same
    simp only [functionItem?, List.headD_cons, same]
  · have plain : functionLine? s = none ∧ specialLine? s = none := by simpa using started
    simp [functionItem?, plain]

private theorem item?_append {s : List Char} {ls : List (List Char)}
    (ends : isHeader s → ∃ l ∈ s :: ls, endsHeader l) (later : List (List Char)) (p : Position)
    (line : Nat) :
    item? p (s :: (ls ++ later)) line = item? p (s :: ls) line := by
  simp only [item?, functionItem?_append ends, List.headD_cons]

/-- A declaration with its line further down by a number of lines. -/
def Item.down (count : Nat) : Item → Item
  | .contract d => .contract { d with line := d.line + count }
  | .function d => .function { d with line := d.line + count }
  | .modifier d => .modifier { d with line := d.line + count }
  | .event d => .event { d with line := d.line + count }
  | .imported d => .imported { d with line := d.line + count }
  | .stateVariable d => .stateVariable { d with line := d.line + count }

section Down

variable (s : List Char) (owner : Option String) (line count : Nat)

theorem contractLine?_down :
    contractLine? s (line + count) = (contractLine? s line).map fun d =>
      { d with line := d.line + count } := by
  simp only [contractLine?, Option.map_map]
  rfl

private theorem modifierLine?_down :
    modifierLine? s owner (line + count) =
      (modifierLine? s owner line).map fun d => { d with line := d.line + count } := by
  simp only [modifierLine?, bind, Option.map_bind, Function.comp_def, Option.map_some]

private theorem eventLine?_down :
    eventLine? s (line + count) = (eventLine? s line).map fun d =>
      { d with line := d.line + count } := by
  simp only [eventLine?, bind, Option.map_bind, Function.comp_def, Option.map_some]

private theorem importLine?_down :
    importLine? s (line + count) = (importLine? s line).map fun d =>
      { d with line := d.line + count } := by
  simp only [importLine?, bind, Option.map_bind, Function.comp_def, Option.map_some]

private theorem variableLine?_down :
    variableLine? s owner (line + count) =
      (variableLine? s owner line).map fun d => { d with line := d.line + count } := by
  simp only [variableLine?, bind, Option.map_bind]
  refine Option.bind_congr fun first _ => ?_
  simp only [Function.comp_apply]
  split
  · rfl
  · simp only [Option.map_bind, Function.comp_def, Option.map_some]

private theorem functionItem?_down (ls : List (List Char)) :
    functionItem? ls owner (line + count) =
      (functionItem? ls owner line).map fun d => { d with line := d.line + count } := by
  simp only [functionItem?]
  split
  · rfl
  · rfl
  · split <;> rfl

theorem item?_down (p : Position) (ls : List (List Char)) :
    item? p ls (line + count) = (item? p ls line).map (Item.down count) := by
  simp only [item?, contractLine?_down, functionItem?_down, modifierLine?_down, eventLine?_down,
    importLine?_down, variableLine?_down]
  cases contractLine? (ls.headD []) line <;> try rfl
  cases functionItem? ls p.owner line <;> try rfl
  cases modifierLine? (ls.headD []) p.owner line <;> try rfl
  cases eventLine? (ls.headD []) line <;> try rfl
  cases importLine? (ls.headD []) line <;> try rfl
  by_cases inBody : p.inBody
  · simp only [inBody, Option.map_none, if_true, Option.map_map]
    rfl
  · simp [inBody]

end Down

/-- The position after a line. Only a contract header moves it, apart from the braces. -/
def Position.past (p : Position) (s : List Char) : Position :=
  p.next ((contractLine? s 0).map .contract) s

private theorem Position.next_item? (p : Position) (s : List Char) (ls : List (List Char))
    (line : Nat) :
    p.next (item? p (s :: ls) line) s = p.past s := by
  have header := contractLine?_down s 0 line
  rw [Nat.zero_add] at header
  cases found : contractLine? s 0 with
  | some d =>
    rw [found] at header
    simp [Position.past, item?, header, found, Position.next]
  | none =>
    -- Any other declaration is the same to the position as none.
    have other (item : Option Item) (plain : ∀ d, item ≠ some (.contract d)) : p.next item s =
        p.next none s := by
      rcases item with _ | ⟨d⟩ | _ | _ | _ | _ | _ <;> first | rfl | exact absurd rfl (plain d)
    rw [Position.past, found, Option.map_none]
    refine other _ fun d same => ?_
    rw [found] at header
    simp only [item?, List.headD_cons, header, Option.map_none] at same
    repeat' split at same
    all_goals simp_all

private theorem itemsFrom_eq_append (p : Position) (line : Nat) (out : List Item)
    (ls : List (List Char)) :
    itemsFrom p line out ls = out.reverse ++ itemsFrom p line [] ls := by
  induction ls generalizing p line out with
  | nil => simp [itemsFrom]
  | cons s ls ih =>
    simp only [itemsFrom]
    rw [ih, ih _ _ (Option.toList _ ++ [])]
    cases item? p (s :: ls) line <;> simp

theorem itemsFrom_cons (p : Position) (line : Nat) (s : List Char) (ls : List (List Char)) :
    itemsFrom p line [] (s :: ls) = (item? p (s :: ls) line).toList ++ itemsFrom (p.past s)
      (line + 1) [] ls := by
  simp only [itemsFrom, Position.next_item?]
  rw [itemsFrom_eq_append]
  cases item? p (s :: ls) line <;> simp

private theorem itemsFrom_append {ls : List (List Char)} (headers : HeadersEnd ls) (p : Position)
    (line : Nat) (later : List (List Char)) :
    itemsFrom p line [] (ls ++ later) =
      itemsFrom p line [] ls ++ itemsFrom (ls.foldl Position.past p) (line + ls.length) []
        later := by
  induction ls generalizing p line with
  | nil => simp [itemsFrom]
  | cons s ls ih =>
    obtain ⟨ends, headers⟩ := headersEnd_cons.mp headers
    rw [List.cons_append, itemsFrom_cons, item?_append ends, ih headers, itemsFrom_cons,
      List.append_assoc, List.length_cons, List.foldl_cons, Nat.add_right_comm, Nat.add_assoc]

theorem itemsFrom_down (p : Position) (line count : Nat) (ls : List (List Char)) :
    itemsFrom p (line + count) [] ls = (itemsFrom p line [] ls).map (Item.down count) := by
  induction ls generalizing p line with
  | nil => rfl
  | cons s ls ih =>
    rw [itemsFrom_cons, itemsFrom_cons, item?_down, Nat.add_right_comm, ih, List.map_append]
    cases item? p (s :: ls) line <;> rfl

def depthAfter (ls : List (List Char)) : Int :=
  (ls.map braceDelta).sum

/-- From a depth on, no line ends below zero and the last one ends at zero. -/
def BalancedFrom (depth : Int) (ls : List (List Char)) : Prop :=
  (∀ before ∈ ls.inits, 0 ≤ depth + depthAfter before) ∧ depth + depthAfter ls = 0

instance (depth : Int) (ls : List (List Char)) : Decidable (BalancedFrom depth ls) := by
  unfold BalancedFrom
  infer_instance

theorem BalancedFrom.nonneg {depth : Int} {ls : List (List Char)}
    (balanced : BalancedFrom depth ls) : 0 ≤ depth := by
  have start := balanced.1 [] (by simp)
  simpa [depthAfter] using start

theorem BalancedFrom.tail {depth : Int} {s : List Char} {ls : List (List Char)}
    (balanced : BalancedFrom depth (s :: ls)) : BalancedFrom (depth + braceDelta s) ls := by
  obtain ⟨above, closed⟩ := balanced
  refine ⟨fun before member => ?_, ?_⟩
  · have step := above (s :: before) (by simpa using member)
    simpa [depthAfter, Int.add_assoc] using step
  · simpa [depthAfter, Int.add_assoc] using closed

private theorem BalancedFrom.exists_ne_zero {depth : Int} {ls : List (List Char)}
    (balanced : BalancedFrom depth ls) (inside : 0 < depth) : ∃ l ∈ ls, braceDelta l ≠ 0 := by
  by_contra none
  have level : depthAfter ls = 0 := by
    refine List.sum_eq_zero fun delta member => ?_
    obtain ⟨l, inLines, rfl⟩ := List.mem_map.mp member
    by_contra differs
    exact none ⟨l, inLines, differs⟩
  have closed := balanced.2
  omega

private theorem foldl_past_depth (ls : List (List Char)) (p : Position) :
    (ls.foldl Position.past p).depth = p.depth + depthAfter ls := by
  induction ls generalizing p with
  | nil => simp [depthAfter]
  | cons s ls ih =>
    rw [List.foldl_cons, ih]
    simp [Position.past, Position.next, depthAfter, Int.add_assoc]

/-- From every contract header on there is a line with more braces of one kind than of the other. -/
def BodiesSpanLines (ls : List (List Char)) : Prop :=
  ∀ rest ∈ ls.tails, ∀ s ∈ rest.head?, isContractHeader s → ∃ l ∈ rest, braceDelta l ≠ 0

instance (ls : List (List Char)) : Decidable (BodiesSpanLines ls) := by
  unfold BodiesSpanLines
  infer_instance

private theorem bodiesSpanLines_cons {s : List Char} {ls : List (List Char)} :
    BodiesSpanLines (s :: ls) ↔ (isContractHeader s → ∃ l ∈ s :: ls, braceDelta l ≠ 0) ∧
      BodiesSpanLines ls := by
  simp [BodiesSpanLines]

/-- The contract that a line belongs to or opens, with the depth of its body. -/
def Position.contractOn (p : Position) (s : List Char) : Option (String × Int) :=
  ((contractLine? s 0).map fun d => (d.name, p.depth + 1)).or p.current

private theorem Position.past_depth (p : Position) (s : List Char) :
    (p.past s).depth = p.depth + braceDelta s := rfl

private theorem Position.past_current (p : Position) (s : List Char) :
    (p.past s).current =
      (p.contractOn s).filter fun c => !(p.depth + braceDelta s < c.2 && braceDelta s < 0) := by
  have closes (c : String × Int) :
      (if (p.depth + braceDelta s < c.2 && braceDelta s < 0) = true then none else some c) =
        (some c).filter fun c => !(p.depth + braceDelta s < c.2 && braceDelta s < 0) := by
    by_cases closed : (p.depth + braceDelta s < c.2 && braceDelta s < 0) = true
      <;> simp [Option.filter, closed]
  unfold past next contractOn
  cases found : contractLine? s 0 with
  | some d => exact closes (d.name, p.depth + 1)
  | none =>
    cases current : p.current with
    | some c => exact closes c
    | none => rfl

private theorem Position.contractOn_isSome (p : Position) (s : List Char) :
    (p.contractOn s).isSome ↔ isContractHeader s ∨ p.current.isSome := by
  unfold contractOn isContractHeader
  cases contractLine? s 0 <;> simp

/-- The body of the contract is open, or the next brace opens it. -/
def Position.IsPlaced (p : Position) : Prop :=
  ∀ c ∈ p.current, 1 ≤ c.2 ∧ c.2 ≤ p.depth + 1

section Placed

variable {p : Position} (placed : p.IsPlaced) (above : 0 ≤ p.depth) (s : List Char)
include placed above

private theorem Position.IsPlaced.contractOn :
    ∀ c ∈ p.contractOn s, 1 ≤ c.2 ∧ c.2 ≤ p.depth + 1 := by
  intro c named
  unfold Position.contractOn at named
  cases found : contractLine? s 0 with
  | none => exact placed c (by simpa [found] using named)
  | some d =>
    have opened : c = (d.name, p.depth + 1) := by simpa [found, eq_comm] using named
    subst opened
    exact ⟨by omega, Int.le_refl _⟩

private theorem Position.IsPlaced.pos_of_past {c : String × Int} (stays : c ∈ (p.past s).current)
    (closing : braceDelta s < 0) : 1 ≤ c.2 ∧ c.2 ≤ (p.past s).depth := by
  rw [Position.past_current, Option.mem_def, Option.filter_eq_some_iff] at stays
  obtain ⟨named, unclosed⟩ := stays
  have place := placed.contractOn above s c named
  rw [Position.past_depth]
  have around : ¬p.depth + braceDelta s < c.2 := by simpa [closing] using unclosed
  exact ⟨place.1, by omega⟩

theorem Position.IsPlaced.past : (p.past s).IsPlaced := by
  intro c stays
  by_cases closing : braceDelta s < 0
  · have inside := placed.pos_of_past above s stays closing
    exact ⟨inside.1, by omega⟩
  · rw [Position.past_current, Option.mem_def, Option.filter_eq_some_iff] at stays
    have place := placed.contractOn above s c stays.1
    rw [Position.past_depth]
    exact ⟨place.1, by omega⟩

end Placed

/-- Lines that end outside of all braces leave no contract open if and only if each one that is open
before them or named in them has a line from there on that does not balance. -/
private theorem foldl_past_current_eq_none_iff {ls : List (List Char)} {p : Position}
    (placed : p.IsPlaced) (balanced : BalancedFrom p.depth ls) :
    (ls.foldl Position.past p).current = none ↔
      (p.current.isSome → ∃ l ∈ ls, braceDelta l ≠ 0) ∧ BodiesSpanLines ls := by
  induction ls generalizing p with
  | nil => cases current : p.current <;> simp [BodiesSpanLines, current]
  | cons s ls ih =>
    have above := balanced.nonneg
    have further : BalancedFrom (p.past s).depth ls := balanced.tail
    rw [List.foldl_cons, ih (placed.past above s) further, bodiesSpanLines_cons, ← and_assoc]
    refine and_congr_left fun _ => ?_
    rw [← or_imp, or_comm, ← Position.contractOn_isSome]
    by_cases level : braceDelta s = 0
    · have same : (p.past s).current = p.contractOn s := by
        rw [Position.past_current]
        cases p.contractOn s <;> simp [level]
      simp [same, level]
    · have here : ∃ l ∈ s :: ls, braceDelta l ≠ 0 := ⟨s, List.mem_cons_self, level⟩
      refine iff_of_true (fun open_ => further.exists_ne_zero ?_) fun _ => here
      obtain ⟨c, stays⟩ := Option.isSome_iff_exists.mp open_
      by_cases closing : braceDelta s < 0
      · have inside := placed.pos_of_past above s stays closing
        omega
      · rw [Position.past_depth]
        omega

/-- The declaration is none of a contract and has no contract for its owner. -/
def Item.IsUnowned : Item → Prop
  | .contract _ => False
  | .function d => d.contract = none
  | .modifier d => d.contract = none
  | .event _ => True
  | .imported _ => True
  | .stateVariable _ => False

private theorem functionItem?_contract {ls : List (List Char)} {owner : Option String} {line : Nat}
    {d : FunctionDecl} (found : functionItem? ls owner line = some d) : d.contract = owner := by
  simp only [functionItem?] at found
  repeat' split at found
  all_goals simp only [Option.some.injEq, reduceCtorEq] at found
  all_goals
    subst found
    rfl

private theorem modifierLine?_contract {s : List Char} {owner : Option String} {line : Nat}
    {d : ModifierDecl} (found : modifierLine? s owner line = some d) : d.contract = owner := by
  simp only [modifierLine?, bind, Option.bind_eq_some_iff, Option.some.injEq] at found
  obtain ⟨_, _, _, _, _, _, rfl⟩ := found
  rfl

private theorem item?_of_current_eq_none {p : Position} (outside : p.current = none)
    {ls : List (List Char)} {line : Nat}
    {item : Item} (found : item? p ls line = some item) :
    (∃ d, item = .contract d) ∨ item.IsUnowned := by
  have unowned : p.owner = none := by simp [Position.owner, outside]
  have noBody : p.inBody = false := by simp [Position.inBody, outside]
  simp only [item?, unowned, noBody] at found
  split at found
  · next d _ => exact .inl ⟨d, by simpa using found.symm⟩
  right
  split at found
  · next declared =>
    obtain rfl : _ = item := by simpa using found
    exact functionItem?_contract declared
  split at found
  · next declared =>
    obtain rfl : _ = item := by simpa using found
    exact modifierLine?_contract declared
  split at found
  · obtain rfl : _ = item := by simpa using found
    trivial
  split at found
  · obtain rfl : _ = item := by simpa using found
    trivial
  · simp at found

private theorem itemsFrom_isUnowned {ls : List (List Char)} {p : Position}
    (outside : p.current = none) {line : Nat}
    (contracts : ∀ d, Item.contract d ∉ itemsFrom p line [] ls) :
    ∀ item ∈ itemsFrom p line [] ls, item.IsUnowned := by
  induction ls generalizing p line with
  | nil => simp [itemsFrom]
  | cons s ls ih =>
    simp only [itemsFrom_cons, List.mem_append, Option.mem_toList, not_or] at contracts ⊢
    have here (item : Item) (found : item? p (s :: ls) line = some item) : item.IsUnowned := by
      rcases item?_of_current_eq_none outside found with ⟨d, rfl⟩ | unowned
      · exact absurd found (contracts d).1
      · exact unowned
    have still : (p.past s).current = none := by
      have noHeader : contractLine? s 0 = none := by
        have header := contractLine?_down s 0 line
        rw [Nat.zero_add] at header
        cases found : contractLine? s 0 with
        | none => rfl
        | some d =>
          rw [found] at header
          exact absurd (by simp [item?, header]) (contracts { d with line := d.line + line }).1
      simp [Position.past_current, Position.contractOn, noHeader, outside]
    rintro item (found | later)
    · exact here item found
    · exact ih still (fun d => (contracts d).2) item later

/-- The text is lines that are complete, braces and headers included. -/
structure IsCompleteUnit (s : List Char) : Prop where
  ended : s.getLast? = some '\n'
  balanced : BalancedFrom 0 (lines s)
  headers : HeadersEnd (lines s)

namespace Declarations

/-- The declarations of one source and then those of another a number of lines further down. -/
structure IsJoin (whole first second : Declarations) (count : Nat) : Prop where
  contracts : whole.contracts = first.contracts ++ second.contracts.map fun d =>
    { d with line := d.line + count }
  functions : whole.functions = first.functions ++ second.functions.map fun d =>
    { d with line := d.line + count }
  modifiers : whole.modifiers = first.modifiers ++ second.modifiers.map fun d =>
    { d with line := d.line + count }
  events : whole.events = first.events ++ second.events.map fun d =>
    { d with line := d.line + count }
  imports : whole.imports = first.imports ++ second.imports.map fun d =>
    { d with line := d.line + count }
  stateVariables :
    whole.stateVariables = first.stateVariables ++ second.stateVariables.map fun d =>
      { d with line := d.line + count }

/-- No contract owns any of the declarations. -/
structure IsUnowned (d : Declarations) : Prop where
  functions : ∀ f ∈ d.functions, f.contract = none
  modifiers : ∀ m ∈ d.modifiers, m.contract = none
  stateVariables : d.stateVariables = []

end Declarations

theorem filterMap_map_moved {α : Type} {pick : Item → Option α} {move : α → α} {carry : Item → Item}
    (moves : ∀ item : Item, pick (carry item) = (pick item).map move) (all : List Item) :
    (all.map carry).filterMap pick = (all.filterMap pick).map move := by
  simp [List.filterMap_map, List.map_filterMap, moves]

private theorem extract_isJoin {whole first second : List Char} {count : Nat}
    (all : items whole = items first ++ (items second).map (Item.down count)) :
    (extract whole).IsJoin (extract first) (extract second) count := by
  constructor <;> simp only [extract, all, List.filterMap_append]
  all_goals
    congr 1
    exact filterMap_map_moved (by rintro (_ | _ | _ | _ | _ | _) <;> rfl) _

private theorem extract_isUnowned {s : List Char} (none : (extract s).contracts = []) :
    (extract s).IsUnowned := by
  have contracts : ∀ d, Item.contract d ∉ items s := by
    intro d member
    have found : d ∈ (extract s).contracts := List.mem_filterMap.mpr ⟨_, member, rfl⟩
    simp [none] at found
  have unowned : ∀ item ∈ items s, item.IsUnowned := itemsFrom_isUnowned rfl contracts
  constructor
  · intro f found
    obtain ⟨item, member, picked⟩ := List.mem_filterMap.mp found
    have owner := unowned item member
    cases item <;> simp_all [Item.IsUnowned]
  · intro m found
    obtain ⟨item, member, picked⟩ := List.mem_filterMap.mp found
    have owner := unowned item member
    cases item <;> simp_all [Item.IsUnowned]
  · refine List.filterMap_eq_nil_iff.mpr fun item member => ?_
    have owner := unowned item member
    cases item <;> simp_all [Item.IsUnowned]

def positionAfter (ls : List (List Char)) : Position :=
  ls.foldl Position.past ⟨0, none⟩

private theorem itemsFrom_modifier (p : Position) (line : Nat) :
    itemsFrom p line [] (lines "modifier m".toList) = [.modifier ⟨"m", p.owner, [], line⟩] := by
  have text : lines "modifier m".toList = ["modifier m".toList] := by decide
  have item : item? p ["modifier m".toList] line = some (.modifier ⟨"m", p.owner, [], line⟩) := by
    rfl
  rw [text, itemsFrom_cons, item]
  rfl

section Append

variable {first : List Char} (complete : IsCompleteUnit first)
include complete

private theorem IsCompleteUnit.items_append (second : List Char) :
    items (first ++ second) = items first ++
      (itemsFrom (positionAfter (lines first)) 1 [] (lines second)).map
        (Item.down (lines first).length) := by
  rw [items, lines_append (.inr complete.ended), itemsFrom_append complete.headers,
    ← itemsFrom_down]
  rfl

private theorem IsCompleteUnit.current_eq_none_iff :
    (positionAfter (lines first)).current = none ↔ BodiesSpanLines (lines first) := by
  have start : Position.IsPlaced ⟨0, none⟩ := by simp [Position.IsPlaced]
  have closed := foldl_past_current_eq_none_iff start complete.balanced
  simpa [positionAfter] using closed

private theorem IsCompleteUnit.positionAfter_eq (span : BodiesSpanLines (lines first)) :
    positionAfter (lines first) = ⟨0, none⟩ := by
  have level : (positionAfter (lines first)).depth = 0 := by
    rw [positionAfter, foldl_past_depth]
    exact complete.balanced.2
  have outside := complete.current_eq_none_iff.mpr span
  rw [← level, ← outside]

/-- What follows a complete unit declares the same as by itself if and only if no contract of the
unit has its body opened and closed without a line that changes the depth. By itself it has owners
only for what follows a contract. -/
theorem extract_append :
    ((∀ second, (extract (first ++ second)).IsJoin (extract first) (extract second)
      (lines first).length) ↔ BodiesSpanLines (lines first)) ∧
    ∀ second, (extract second).contracts = [] → (extract second).IsUnowned := by
  refine ⟨⟨fun joined => ?_, fun span second => ?_⟩, fun second => extract_isUnowned⟩
  · -- A modifier right after the unit shows which contract the unit leaves open.
    have behind : (extract (first ++ "modifier m".toList)).modifiers = (extract first).modifiers ++
        [⟨"m", (positionAfter (lines first)).owner, [], 1 + (lines first).length⟩] := by
      simp only [extract, complete.items_append, itemsFrom_modifier, List.filterMap_append]
      rfl
    have alone : (extract "modifier m".toList).modifiers = [⟨"m", none, [], 1⟩] := by
      simp only [extract, items, itemsFrom_modifier]
      rfl
    have same := (joined "modifier m".toList).modifiers
    rw [behind, alone] at same
    have owner : (positionAfter (lines first)).owner = none := by simpa using same
    rw [← complete.current_eq_none_iff]
    simpa [Position.owner] using owner
  · apply extract_isJoin
    rw [complete.items_append, complete.positionAfter_eq span]
    rfl

end Append

/-- Two contracts over several lines with a struct and a function between them, outside of both. -/
def separateSource : List Char :=
  "contract A is\n  B\n\x7b\n  uint a;\n\x7d\nstruct S \x7b\n  uint x;\n\x7d\nlibrary L \x7b\n\x7d\n".toList

theorem extract_append_separateSource :
    IsCompleteUnit separateSource ∧ BodiesSpanLines (lines separateSource) ∧
    ∀ second, (extract (separateSource ++ second)).IsJoin (extract separateSource) (extract second)
      10 := by
  have complete : IsCompleteUnit separateSource := ⟨by decide, by decide, by decide⟩
  have span : BodiesSpanLines (lines separateSource) := by decide
  have count : (lines separateSource).length = 10 := by decide
  have joined := (extract_append complete).1.mpr span
  rw [count] at joined
  exact ⟨complete, span, joined⟩

/-- A contract whose body is opened and closed on its header line takes the fields of the struct
after it. -/
theorem extract_append_emptyBody :
    IsCompleteUnit "contract A \x7b\x7d\n".toList ∧
    ¬(extract ("contract A \x7b\x7d\n".toList ++ "struct S \x7b\n  uint x;\n\x7d\n".toList)).IsJoin
      (extract "contract A \x7b\x7d\n".toList) (extract "struct S \x7b\n  uint x;\n\x7d\n".toList)
      (lines "contract A \x7b\x7d\n".toList).length := by
  refine ⟨⟨by decide, by decide, by decide⟩, fun joined => ?_⟩
  exact absurd joined.stateVariables (by decide)

end AuditPanel.Source
