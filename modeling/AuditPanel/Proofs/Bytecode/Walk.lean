import AuditPanel.Bytecode
import Mathlib.Data.Finset.Card
import Mathlib.Data.List.Nodup

/-!
The walk over a code from instruction to instruction. A push takes its data along, so no position
inside of data is ever visited, and the opcodes of a code are the bytes at the visited positions.
-/

set_option autoImplicit false

namespace AuditPanel.Bytecode

/-- The positions that a walk over a code comes to: the beginning, and the position behind each
instruction on the way. The opcode `0x5f + n` pushes the `n` bytes after it, for `n` up to 32. All
others stand alone. The data of the last push may be cut off, and then the walk comes to a position
behind the end. -/
inductive Visits (code : List UInt8) : Nat → Prop
  | start : Visits code 0
  | push {i n : Nat} {op : UInt8} :
      Visits code i → code[i]? = some op → 1 ≤ n → n ≤ 32 → op.toNat = 0x5f + n →
        Visits code (i + 1 + n)
  | plain {i : Nat} {op : UInt8} :
      Visits code i → code[i]? = some op → (op.toNat < 0x60 ∨ 0x7f < op.toNat) → Visits code (i + 1)

/-- An instruction with a given opcode starts at a position. -/
def StartsAt (code : List UInt8) (op : UInt8) (i : Nat) : Prop :=
  Visits code i ∧ code[i]? = some op

/-- A position in the data of a push that starts before it. -/
def IsData (code : List UInt8) (j : Nat) : Prop :=
  ∃ i n op, StartsAt code op i ∧ n ≤ 32 ∧ op.toNat = 0x5f + n ∧ i < j ∧ j ≤ i + n

variable {code : List UInt8} {op : UInt8} {i j : Nat}

private theorem pushWidth_eq (op : UInt8) :
    pushWidth op = if 0x60 ≤ op.toNat ∧ op.toNat ≤ 0x7f then op.toNat - 0x5f else 0 := by
  simp only [pushWidth, UInt8.le_iff_toNat_le]
  rfl

theorem Visits.next (visited : Visits code i) (here : code[i]? = some op) :
    Visits code (i + 1 + pushWidth op) := by
  rw [pushWidth_eq]
  split
  · next pushes => exact visited.push here (by omega) (by omega) (by omega)
  · next plain => exact visited.plain here (by omega)

private theorem Visits.cases_next (visited : Visits code j) :
    j = 0 ∨ ∃ i op, StartsAt code op i ∧ j = i + 1 + pushWidth op := by
  cases visited with
  | start => exact .inl rfl
  | @push i n op before here positive bounded opcode =>
    refine .inr ⟨i, op, ⟨before, here⟩, ?_⟩
    rw [pushWidth_eq, if_pos (by omega)]
    omega
  | @plain i op before here outside =>
    refine .inr ⟨i, op, ⟨before, here⟩, ?_⟩
    rw [pushWidth_eq, if_neg (by omega)]

/-- A walk goes on by whole instructions: it does not come to a position between an instruction and
the next one. -/
private theorem Visits.le_or_next_le (visited : Visits code j) (starts : StartsAt code op i) :
    j ≤ i ∨ i + 1 + pushWidth op ≤ j := by
  induction bound : i + j using Nat.strong_induction_on generalizing i j op with
  | h total ih =>
    obtain rfl | ⟨k, opk, before, rfl⟩ := visited.cases_next
    · exact .inl (Nat.zero_le i)
    rcases Nat.lt_trichotomy k i with earlier | same | later
    · -- The step that leads to `j` starts before `i`, and does not pass over it.
      have passed := ih (k + i) (by omega) starts.1 before rfl
      omega
    · subst same
      obtain rfl : opk = op := Option.some.inj (before.2.symm.trans starts.2)
      exact .inr (Nat.le_refl _)
    · have passed := ih (i + k) (by omega) before.1 starts rfl
      omega

private theorem not_isData_of_visits (visited : Visits code j) : ¬ IsData code j := by
  rintro ⟨i, n, op, starts, bounded, opcode, behind, within⟩
  have width : pushWidth op = n := by
    rw [pushWidth_eq]
    split <;> omega
  have apart := visited.le_or_next_le starts
  omega

theorem Visits.moved {code' : List UInt8} {offset : Nat} (visited : Visits code j)
    (begins : Visits code' offset)
    (same : ∀ i op, Visits code i → Visits code' (offset + i) → code[i]? = some op →
      code'[offset + i]? = some op) :
    Visits code' (offset + j) := by
  induction visited with
  | start => exact begins
  | @push i n op before here positive bounded opcode ih =>
    have ahead := ih.push (same i op before ih here) positive bounded opcode
    rwa [Nat.add_assoc, Nat.add_assoc, ← Nat.add_assoc i] at ahead
  | plain before here outside ih => exact ih.plain (same _ _ before ih here) outside

theorem Visits.kept {code' : List UInt8} (visited : Visits code j)
    (same : ∀ i op, Visits code i → Visits code' i → code[i]? = some op → code'[i]? = some op) :
    Visits code' j := by
  rw [← Nat.zero_add j]
  refine visited.moved .start ?_
  intro i op own other here
  rw [Nat.zero_add] at other ⊢
  exact same i op own other here

/-- Two codes of one length differ in nothing but data. -/
structure SameInstructions (code code' : List UInt8) : Prop where
  length : code'.length = code.length
  bytes : ∀ j, ¬ IsData code j → code'[j]? = code[j]?

private theorem SameInstructions.visits_iff {code' : List UInt8}
    (same : SameInstructions code code') (j : Nat) :
    Visits code' j ↔ Visits code j := by
  have bytes {i : Nat} (visited : Visits code i) : code'[i]? = code[i]? :=
    same.bytes i (not_isData_of_visits visited)
  constructor
  · intro visited
    exact visited.kept fun i op _ own here => (bytes own).symm.trans here
  · intro visited
    exact visited.kept fun i op own _ here => (bytes own).trans here

private theorem SameInstructions.startsAt_iff {code' : List UInt8}
    (same : SameInstructions code code') (op : UInt8) (j : Nat) :
    StartsAt code' op j ↔ StartsAt code op j := by
  unfold StartsAt
  rw [same.visits_iff]
  refine and_congr_right fun visited => ?_
  rw [same.bytes j (not_isData_of_visits visited)]

section Append

variable {front back : List UInt8}

theorem Visits.append_right (visited : Visits front j) : Visits (front ++ back) j := by
  refine visited.kept fun i op _ _ here => ?_
  rw [List.getElem?_append_left (List.getElem?_eq_some_iff.mp here).1, here]

theorem Visits.append_left (whole : Visits front front.length) (visited : Visits back j) :
    Visits (front ++ back) (front.length + j) := by
  refine visited.moved whole.append_right fun i op _ _ here => ?_
  rw [List.getElem?_append_right (Nat.le_add_right _ _), Nat.add_sub_cancel_left, here]

/-- A walk over two codes, the first of which ends with a whole instruction, goes over the first and
then over the second. -/
private theorem Visits.of_append (whole : Visits front front.length)
    (visited : Visits (front ++ back) j) :
    (j < front.length → Visits front j) ∧ ∀ k, j = front.length + k → Visits back k := by
  have step {i : Nat} {op : UInt8} (here : (front ++ back)[i]? = some op)
      (ih : (i < front.length → Visits front i) ∧ ∀ k, i = front.length + k → Visits back k) :
      (i + 1 + pushWidth op < front.length → Visits front (i + 1 + pushWidth op)) ∧
        ∀ k, i + 1 + pushWidth op = front.length + k → Visits back k := by
    rcases Nat.lt_or_ge i front.length with inside | behind
    · have own : front[i]? = some op := by rwa [List.getElem?_append_left inside] at here
      refine ⟨fun _ => (ih.1 inside).next own, ?_⟩
      intro k reached
      have apart := whole.le_or_next_le ⟨ih.1 inside, own⟩
      obtain rfl : k = 0 := by omega
      exact .start
    · refine ⟨by omega, ?_⟩
      intro k reached
      obtain ⟨m, rfl⟩ := Nat.exists_eq_add_of_le behind
      have own : back[m]? = some op := by
        rwa [List.getElem?_append_right behind, Nat.add_sub_cancel_left] at here
      obtain rfl : k = m + 1 + pushWidth op := by omega
      exact (ih.2 m rfl).next own
  induction bound : j using Nat.strong_induction_on generalizing j with
  | h total ih =>
    subst bound
    obtain rfl | ⟨i, op, before, rfl⟩ := visited.cases_next
    · refine ⟨fun _ => .start, ?_⟩
      intro k reached
      obtain rfl : k = 0 := by omega
      exact .start
    · exact step before.2 (ih i (by omega) before.1 rfl)

private theorem startsAt_append_iff (whole : Visits front front.length) (op : UInt8) (j : Nat) :
    StartsAt (front ++ back) op j ↔
      StartsAt front op j ∨ ∃ k, j = front.length + k ∧ StartsAt back op k := by
  unfold StartsAt
  constructor
  · rintro ⟨visited, here⟩
    have parts := Visits.of_append whole visited
    rcases Nat.lt_or_ge j front.length with inside | behind
    · rw [List.getElem?_append_left inside] at here
      exact .inl ⟨parts.1 inside, here⟩
    · obtain ⟨k, rfl⟩ := Nat.exists_eq_add_of_le behind
      rw [List.getElem?_append_right behind, Nat.add_sub_cancel_left] at here
      exact .inr ⟨k, rfl, parts.2 k rfl, here⟩
  · rintro (⟨visited, here⟩ | ⟨k, rfl, visited, here⟩)
    · refine ⟨visited.append_right, ?_⟩
      rw [List.getElem?_append_left (List.getElem?_eq_some_iff.mp here).1, here]
    · refine ⟨Visits.append_left whole visited, ?_⟩
      rw [List.getElem?_append_right (Nat.le_add_right _ _), Nat.add_sub_cancel_left, here]

end Append

/-- The positions at which instructions start in a code that begins with `skip` bytes of data, where
the first byte has position `i`. -/
def startsFrom : Nat → Nat → List UInt8 → List Nat
  | _, _, [] => []
  | 0, i, op :: rest => i :: startsFrom (pushWidth op) (i + 1) rest
  | skip + 1, i, _ :: rest => startsFrom skip (i + 1) rest

private theorem le_of_mem_startsFrom {skip : Nat} {rest : List UInt8}
    (member : j ∈ startsFrom skip i rest) : i ≤ j := by
  induction rest generalizing skip i with
  | nil => cases skip <;> simp [startsFrom] at member
  | cons op rest ih =>
    cases skip with
    | zero =>
      rcases List.mem_cons.mp member with rfl | later
      · exact Nat.le_refl _
      · exact Nat.le_of_succ_le (ih later)
    | succ skip => exact Nat.le_of_succ_le (ih member)

private theorem startsFrom_nodup (skip i : Nat) (rest : List UInt8) :
    (startsFrom skip i rest).Nodup := by
  induction rest generalizing skip i with
  | nil => cases skip <;> exact List.nodup_nil
  | cons op rest ih =>
    cases skip with
    | zero =>
      refine List.nodup_cons.mpr ⟨?_, ih _ _⟩
      intro member
      exact absurd (le_of_mem_startsFrom member) (Nat.not_succ_le_self i)
    | succ skip => exact ih _ _

private theorem opcodesFrom_eq (skip : Nat) (out front rest : List UInt8) :
    opcodesFrom skip out rest =
      out.reverse ++ (startsFrom skip front.length rest).filterMap fun j =>
        (front ++ rest)[j]? := by
  induction rest generalizing skip out front with
  | nil => cases skip <;> simp [opcodesFrom, startsFrom]
  | cons op rest ih =>
    have onwards (skip : Nat) (out : List UInt8) := ih skip out (front ++ [op])
    simp only [List.length_append, List.length_singleton, List.append_assoc, List.singleton_append]
      at onwards
    cases skip with
    | zero => simp [opcodesFrom, startsFrom, onwards]
    | succ skip => simp [opcodesFrom, startsFrom, onwards]

/-- From a position with `skip` bytes of data on, the listed positions are those that the walk comes
to. -/
private theorem mem_startsFrom_iff {skip : Nat} {front rest : List UInt8}
    (ahead : Visits (front ++ rest) (front.length + skip))
    (data : ∀ k, front.length ≤ k → k < front.length + skip → ¬ Visits (front ++ rest) k) :
    j ∈ startsFrom skip front.length rest ↔
      front.length ≤ j ∧ j < (front ++ rest).length ∧ Visits (front ++ rest) j := by
  induction rest generalizing skip front with
  | nil =>
    cases skip <;>
    · simp only [startsFrom, List.not_mem_nil, List.append_nil, false_iff]
      omega
  | cons op rest ih =>
    have onwards {skip : Nat} := @ih skip (front ++ [op])
    simp only [List.length_append, List.append_assoc, List.singleton_append, List.length_cons,
      List.length_nil, Nat.zero_add] at onwards ⊢
    cases skip with
    | zero =>
      have starts : StartsAt (front ++ op :: rest) op front.length := ⟨ahead, by simp⟩
      have passed : ∀ k, front.length + 1 ≤ k → k < front.length + 1 + pushWidth op →
          ¬ Visits (front ++ op :: rest) k := by
        intro k behind within visited
        have apart := visited.le_or_next_le starts
        omega
      rw [startsFrom, List.mem_cons, onwards (starts.1.next starts.2) passed]
      constructor
      · rintro (rfl | ⟨behind, within, visited⟩)
        · exact ⟨Nat.le_refl _, by omega, starts.1⟩
        · exact ⟨by omega, within, visited⟩
      · rintro ⟨behind, within, visited⟩
        rcases Nat.eq_or_lt_of_le behind with same | later
        · exact .inl same.symm
        · exact .inr ⟨later, within, visited⟩
    | succ skip =>
      have further : Visits (front ++ op :: rest) (front.length + 1 + skip) := by
        rwa [Nat.add_assoc, Nat.add_comm 1]
      rw [startsFrom, onwards further fun k behind within => data k (by omega) (by omega)]
      constructor
      · rintro ⟨behind, within, visited⟩
        exact ⟨by omega, within, visited⟩
      · rintro ⟨behind, within, visited⟩
        rcases Nat.eq_or_lt_of_le behind with same | later
        · exact absurd (same ▸ visited) (data front.length (Nat.le_refl _) (by omega))
        · exact ⟨later, within, visited⟩

/-- The positions at which the instructions of a code start. -/
def starts (code : List UInt8) : List Nat :=
  startsFrom 0 0 code

private theorem mem_starts_iff : j ∈ starts code ↔ j < code.length ∧ Visits code j := by
  have whole : j ∈ starts code ↔ 0 ≤ j ∧ j < code.length ∧ Visits code j :=
    @mem_startsFrom_iff j 0 [] code .start fun k _ within => absurd within (Nat.not_lt_zero k)
  exact whole.trans (and_iff_right (Nat.zero_le j))

private theorem startsAt_iff_mem_starts :
    StartsAt code op j ↔ j ∈ starts code ∧ code[j]? = some op := by
  rw [mem_starts_iff, StartsAt]
  constructor
  · rintro ⟨visited, here⟩
    exact ⟨⟨(List.getElem?_eq_some_iff.mp here).1, visited⟩, here⟩
  · rintro ⟨⟨-, visited⟩, here⟩
    exact ⟨visited, here⟩

instance (code : List UInt8) (op : UInt8) : DecidablePred (StartsAt code op) :=
  fun _ => decidable_of_iff _ startsAt_iff_mem_starts.symm

/-- The number of instructions of a code with a given opcode. -/
def instructionCount (code : List UInt8) (op : UInt8) : Nat :=
  ((Finset.range code.length).filter (StartsAt code op)).card

theorem count_opcodes (code : List UInt8) (op : UInt8) :
    (opcodes code).count op = instructionCount code op := by
  have listed : (Finset.range code.length).filter (StartsAt code op) =
      ((starts code).filter fun j => code[j]? == some op).toFinset := by
    ext j
    simp only [Finset.mem_filter, Finset.mem_range, startsAt_iff_mem_starts, mem_starts_iff,
      List.mem_toFinset, List.mem_filter, beq_iff_eq]
    tauto
  have distinct : ((starts code).filter fun j => code[j]? == some op).Nodup :=
    (startsFrom_nodup 0 0 code).filter _
  rw [instructionCount, listed, List.toFinset_card_of_nodup distinct, opcodes,
    opcodesFrom_eq 0 [] [] code, List.reverse_nil, List.nil_append, List.count_filterMap,
    List.countP_eq_length_filter]
  rfl

theorem SameInstructions.instructionCount_eq {code' : List UInt8}
    (same : SameInstructions code code') (op : UInt8) :
    instructionCount code' op = instructionCount code op := by
  unfold instructionCount
  rw [same.length, Finset.filter_congr fun j _ => same.startsAt_iff op j]

theorem instructionCount_append {front back : List UInt8} (whole : Visits front front.length)
    (op : UInt8) :
    instructionCount (front ++ back) op = instructionCount front op + instructionCount back op := by
  have within {code : List UInt8} {j : Nat} (starts : StartsAt code op j) : j < code.length :=
    (List.getElem?_eq_some_iff.mp starts.2).1
  have parts : (Finset.range (front ++ back).length).filter (StartsAt (front ++ back) op) =
      (Finset.range front.length).filter (StartsAt front op) ∪
        ((Finset.range back.length).filter (StartsAt back op)).image (front.length + ·) := by
    ext j
    simp only [Finset.mem_union, Finset.mem_image, Finset.mem_filter, Finset.mem_range]
    constructor
    · rintro ⟨-, starts⟩
      rcases (startsAt_append_iff whole op j).mp starts with own | ⟨k, rfl, own⟩
      · exact .inl ⟨within own, own⟩
      · exact .inr ⟨k, ⟨within own, own⟩, rfl⟩
    · intro either
      have starts : StartsAt (front ++ back) op j := by
        rw [startsAt_append_iff whole]
        rcases either with ⟨-, own⟩ | ⟨k, ⟨-, own⟩, rfl⟩
        · exact .inl own
        · exact .inr ⟨k, rfl, own⟩
      exact ⟨within starts, starts⟩
  have apart : Disjoint ((Finset.range front.length).filter (StartsAt front op))
      (((Finset.range back.length).filter (StartsAt back op)).image (front.length + ·)) := by
    rw [Finset.disjoint_left]
    intro j first second
    obtain ⟨k, -, rfl⟩ := Finset.mem_image.mp second
    have bound := Finset.mem_range.mp (Finset.mem_filter.mp first).1
    omega
  rw [instructionCount, parts, Finset.card_union_of_disjoint apart,
    Finset.card_image_of_injective _ fun _ _ => Nat.add_left_cancel]
  rfl

/-- The second push is cut off by the end, and all `0xf4` after it are its data. -/
example : instructionCount [0x60, 0xf4, 0xf4, 0x61, 0xf4] 0xf4 = 1 := by decide

end AuditPanel.Bytecode
