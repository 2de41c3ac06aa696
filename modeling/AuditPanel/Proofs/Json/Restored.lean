import AuditPanel.Proofs.Json.Range

/-!
What is left of a value that was written as text and read again: everything but the doubles, each of
which is read on its own.
-/

set_option autoImplicit false

namespace AuditPanel.Json

mutual

/-- A value with others in the places of its doubles. -/
def mapReals (f : Float → Json) : Json → Json
  | .real x => f x
  | .array items => .array (mapItems f items)
  | .object members => .object (mapMembers f members)
  | .null => .null
  | .bool b => .bool b
  | .integer n => .integer n
  | .string s => .string s

/-- The items of an array with others in the places of their doubles. -/
def mapItems (f : Float → Json) : List Json → List Json
  | [] => []
  | v :: rest => mapReals f v :: mapItems f rest

/-- The members of an object with others in the places of their doubles. -/
def mapMembers (f : Float → Json) : List (String × Json) → List (String × Json)
  | [] => []
  | (key, v) :: rest => (key, mapReals f v) :: mapMembers f rest

end

variable {f : Float → Json} {x : Float}

private theorem mapItems_eq (items : List Json) : mapItems f items = items.map (mapReals f) := by
  induction items with
  | nil => rfl
  | cons v rest ih => rw [mapItems, ih, List.map_cons]

private theorem mapMembers_eq (members : List (String × Json)) :
    mapMembers f members = members.map fun m => (m.1, mapReals f m.2) := by
  induction members with
  | nil => rfl
  | cons m rest ih => rw [mapMembers, ih, List.map_cons]

@[simp] theorem mapReals_array (items : List Json) :
    mapReals f (.array items) = .array (items.map (mapReals f)) := by
  rw [mapReals, mapItems_eq]

@[simp] theorem mapReals_strings (items : List String) :
    mapReals f (.strings items) = .strings items := by
  rw [strings, mapReals_array, List.map_map]
  rfl

@[simp] theorem mapReals_string (s : String) : mapReals f (.string s) = .string s := rfl

@[simp] theorem mapReals_nat (n : Nat) : mapReals f (.nat n) = .nat n := rfl

@[simp] theorem mapReals_real (x : Float) : mapReals f (.real x) = f x := rfl

private theorem lastOfRuns_mapMembers (members : List (String × Json)) :
    lastOfRuns [] (members.map fun m => (m.1, mapReals f m.2)) =
      (lastOfRuns [] members).map fun m => (m.1, mapReals f m.2) := by
  induction members with
  | nil => rfl
  | cons m rest ih =>
    cases rest with
    | nil => rfl
    | cons next rest =>
      rw [List.map_cons] at ih ⊢
      rw [List.map_cons, lastOfRuns_cons_cons, lastOfRuns_cons_cons, ih]
      split
      · rfl
      · rfl

theorem mapReals_ofMembers (members : List (String × Json)) :
    mapReals f (ofMembers members) = ofMembers (members.map fun m => (m.1, mapReals f m.2)) := by
  have sorted : (members.mergeSort fun a b => a.1 ≤ b.1).map (fun m => (m.1, mapReals f m.2)) =
      (members.map fun m => (m.1, mapReals f m.2)).mergeSort fun a b => a.1 ≤ b.1 :=
    List.map_mergeSort fun _ _ _ _ => rfl
  rw [ofMembers, mapReals, mapMembers_eq, ← lastOfRuns_mapMembers, sorted, ofMembers]

def restored (v : Json) : Json :=
  v.mapReals rereal

private theorem restored_array (items : List Json) :
    restored (.array items) = .array (items.map restored) :=
  mapReals_array items

private theorem restored_object {members : List (String × Json)} (sorted : IsSorted members) :
    restored (.object members) = ofMembers (members.map fun m => (m.1, restored m.2)) := by
  have sorted' : IsSorted (members.map fun m => (m.1, restored m.2)) := List.pairwise_map.mpr sorted
  rw [ofMembers_of_isSorted sorted', restored, mapReals, mapMembers_eq]
  rfl

/-- Values of at most a depth of containers, each object in order, with whole numbers of 64 bits. -/
inductive IsStorable : Nat → Json → Prop
  | null {depth : Nat} : IsStorable depth .null
  | bool {depth : Nat} (b : Bool) : IsStorable depth (.bool b)
  | nat {depth n : Nat} (fits : n < 1 <<< 64) : IsStorable depth (.nat n)
  | string {depth : Nat} (s : String) : IsStorable depth (.string s)
  | real {depth : Nat} (x : Float) : IsStorable depth (.real x)
  | array {depth : Nat} {items : List Json} (all : ∀ v ∈ items, IsStorable depth v) :
    IsStorable (depth + 1) (.array items)
  | object {depth : Nat} {members : List (String × Json)} (sorted : IsSorted members)
    (all : ∀ m ∈ members, IsStorable depth m.2) : IsStorable (depth + 1) (.object members)

theorem IsStorable.ofMembers {depth : Nat} {members : List (String × Json)}
    (all : ∀ m ∈ members, IsStorable depth m.2) : IsStorable (depth + 1) (ofMembers members) := by
  obtain ⟨sorted, made, ordered, given⟩ := exists_ofMembers members
  rw [made]
  exact .object ordered fun m member => all m (given m member)

theorem IsStorable.strings {depth : Nat} (items : List String) :
    IsStorable (depth + 1) (.strings items) := by
  refine .array fun v member => ?_
  obtain ⟨s, -, rfl⟩ := List.mem_map.mp member
  exact .string s

private theorem realText_head (x : Float) :
    ∃ c after, realText x = c :: after ∧ isSpace c = false ∧ c ≠ ']' ∧ ¬(c = '[' ∨ c = '\x7b') := by
  by_cases special : (x.isNaN || x.isInf) = true
  · refine ⟨'n', "ull".toList, ?_, rfl, by decide, by decide⟩
    rw [realText, if_pos special]
    rfl
  have finite : x.isFinite = true := Decimal.isFinite_of_not_isNaN_isInf (by simpa using special)
  obtain ⟨p, plain | minus⟩ := exists_realText_eq finite
  · obtain ⟨c, after, split⟩ := List.exists_cons_of_ne_nil p.whole_ne_nil
    have digit : c.isDigit := p.whole_digits c (by simp [split])
    refine ⟨c, after ++ (p.fractionText ++ p.exponentText), ?_, solid_of_isDigit digit⟩
    rw [plain, RealParts.text, split, List.cons_append]
  · exact ⟨'-', p.text, minus, rfl, by decide, by decide⟩

theorem IsStorable.head {depth : Nat} {v : Json} (h : IsStorable depth v) :
    ∃ c after, text v = c :: after ∧ isSpace c = false ∧ c ≠ ']' := by
  have scalar {v : Json} (head : ∃ c after, text v = c :: after ∧ isSpace c = false ∧ c ≠ ']' ∧
    ¬(c = '[' ∨ c = '\x7b')) :
      ∃ c after, text v = c :: after ∧ isSpace c = false ∧ c ≠ ']' := by
    obtain ⟨c, after, split, space, close, -⟩ := head
    exact ⟨c, after, split, space, close⟩
  cases h with
  | null => exact ⟨'n', _, rfl, rfl, by decide⟩
  | bool b => cases b <;> exact ⟨_, _, rfl, rfl, by decide⟩
  | nat fits => exact scalar (readScalar_head (readScalar_nat fits))
  | string s => exact ⟨'"', _, rfl, rfl, by decide⟩
  | real x => exact scalar (realText_head x)
  | array => exact ⟨'[', _, rfl, rfl, by decide⟩
  | object => exact ⟨'\x7b', _, rfl, rfl, by decide⟩

private theorem IsStorable.readAs {depth : Nat} {v : Json} (h : IsStorable depth v) {fuel : Nat}
    (enough : (text v).length ≤ fuel) : ReadAs (readValue fuel depth) v (restored v) := by
  have exact_ {depth : Nat} {v : Json} (read : readScalar (text v) = some (v, []))
    (same : restored v = v) :
      ReadAs (readValue fuel depth) v (restored v) := by
    rw [same]
    exact readAs_scalar (readScalar_head read) fun t delimited =>
      readScalar_delimited delimited read
  induction h with
  | null => exact exact_ rfl rfl
  | bool b => cases b <;> exact exact_ rfl rfl
  | nat fits => exact exact_ (readScalar_nat fits) rfl
  | string s => exact exact_ (readScalar_string s) rfl
  | real x => exact readAs_scalar (realText_head x) fun t delimited =>
    readScalar_realText x delimited
  | @array depth items all ih =>
    rw [text, List.length_cons, List.length_append] at enough
    have count := length_le_itemsText_true items
    have inner (v : Json) (member : v ∈ items) : (text v).length ≤ fuel := by
      have short := length_text_le_itemsText member true
      omega
    rw [restored_array]
    exact readAs_array (fun v member => ih v member (inner v member))
      (fun v member => (all v member).head) (by omega)
  | @object depth members sorted all ih =>
    rw [text, List.length_cons, List.length_append] at enough
    have count := length_le_membersText_true members
    have inner (m : String × Json) (member : m ∈ members) : (text m.2).length ≤ fuel := by
      have short := length_text_le_membersText member true
      omega
    rw [restored_object sorted]
    exact readAs_object (fun m member => ih m member (inner m member)) (by omega)

/-- The compact text of a storable value is read as the value with its doubles as the reader takes
them. -/
theorem read?_compact {v : Json} (h : IsStorable defaultDepth v) :
    read? v.compact.toList = some (restored v) := by
  have read := h.readAs (Nat.le_succ _) [] (by simp [IsDelimited])
  rw [List.append_nil] at read
  rw [compact_toList, read?, readWithin, read]
  rfl

end AuditPanel.Json
