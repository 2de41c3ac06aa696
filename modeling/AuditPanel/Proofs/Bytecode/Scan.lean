import AuditPanel.Proofs.Bytecode.Hex
import AuditPanel.Proofs.Bytecode.Walk

/-!
The scan counts instructions and never data. Whatever writes a code is scanned, with a count for
each reported opcode that is the number of its instructions.
-/

set_option autoImplicit false

namespace AuditPanel.Bytecode

/-- The entries of a report with a number for each opcode of a table; those with none are left
out. -/
def entriesOf (table : List Opcode) (number : UInt8 → Nat) : List Flagged :=
  (table.filter fun o => number o.byte ≠ 0).map fun o => ⟨o.name, number o.byte, o.risk⟩

def numberOf (table : List Opcode) (number : UInt8 → Nat) (name : String) : Nat :=
  match table.find? (·.name = name) with
  | some o => number o.byte
  | none => 0

private theorem count_entriesOf {table : List Opcode} (distinct : (table.map (·.name)).Nodup)
    (size : Nat) (number : UInt8 → Nat) (name : String) :
    (Scan.mk size (entriesOf table number)).count name = numberOf table number name := by
  induction table with
  | nil => rfl
  | cons o table ih =>
    obtain ⟨fresh, distinct⟩ := List.nodup_cons.mp distinct
    have rest := ih distinct
    unfold Scan.count numberOf entriesOf at rest ⊢
    by_cases named : o.name = name
    · by_cases absent : number o.byte = 0
      · -- An opcode that does not occur is not listed, and no other has its name.
        have none_ : table.find? (·.name = name) = none := by
          refine List.find?_eq_none.mpr fun other member same => fresh ?_
          exact List.mem_map.mpr ⟨other, member, (of_decide_eq_true same).trans named.symm⟩
        rw [none_] at rest
        simpa [absent, named] using rest
      · simp [absent, named]
    · by_cases absent : number o.byte = 0
      · simpa [absent, named] using rest
      · simpa [absent, named] using rest

private theorem flaggedOpcodes_nodup : (flaggedOpcodes.map (·.name)).Nodup := by decide

private theorem numberOf_flagged (number : UInt8 → Nat) {o : Opcode} (member : o ∈ flaggedOpcodes) :
    numberOf flaggedOpcodes number o.name = number o.byte := by
  have found : ∀ o ∈ flaggedOpcodes, flaggedOpcodes.find? (·.name = o.name) = some o := by decide
  rw [numberOf, found o member]

private theorem numberOf_add (number number' number'' : UInt8 → Nat)
    (sum : ∀ op, number op = number' op + number'' op)
    (table : List Opcode) (name : String) :
    numberOf table number name = numberOf table number' name + numberOf table number'' name := by
  unfold numberOf
  split
  · exact sum _
  · rfl

private theorem scanCode_eq (code : List UInt8) :
    scanCode code = ⟨code.length, entriesOf flaggedOpcodes (instructionCount code)⟩ := by
  simp only [scanCode, entriesOf, count_opcodes, ← List.filterMap_eq_map, List.filterMap_filter]
  refine congrArg (Scan.mk code.length) (List.filterMap_congr fun o _ => ?_)
  by_cases absent : instructionCount code o.byte = 0 <;> simp [absent]

private theorem scan_writes {text : String} {code : List UInt8} (writes : Writes text code) :
    scan text = .ok (scanCode code) := by
  rw [scan, decodeHex_writes writes]
  rfl

/-- What the scan of a text that writes a code tells of its instructions. -/
structure CountsInstructions (text : String) (code : List UInt8) (s : Scan) : Prop where
  scanned : scan text = .ok s
  codeSize : s.codeSize = code.length
  counts : ∀ o ∈ flaggedOpcodes, s.count o.name = instructionCount code o.byte
  listed : s.flagged = entriesOf flaggedOpcodes (instructionCount code)
  blind : ∀ text' code', Writes text' code' → SameInstructions code code' → scan text' = .ok s
  additive : ∀ front back frontText backText, code = front ++ back → Visits front front.length →
    Writes frontText front → Writes backText back → ∃ s' s'', scan frontText = .ok s' ∧
      scan backText = .ok s'' ∧ ∀ name, s.count name = s'.count name + s''.count name

theorem scan_countsInstructions {text : String} {code : List UInt8} (writes : Writes text code) :
    ∃ s, CountsInstructions text code s := by
  refine ⟨scanCode code, scan_writes writes, rfl, ?_, ?_, ?_, ?_⟩
  · intro o member
    rw [scanCode_eq, count_entriesOf flaggedOpcodes_nodup, numberOf_flagged _ member]
  · rw [scanCode_eq]
  · intro text' code' writes' same
    have number : instructionCount code' = instructionCount code := funext same.instructionCount_eq
    rw [scan_writes writes', scanCode_eq, scanCode_eq, number, same.length]
  · rintro front back frontText backText rfl whole writesFront writesBack
    refine ⟨_, _, scan_writes writesFront, scan_writes writesBack, ?_⟩
    intro name
    simp only [scanCode_eq, count_entriesOf flaggedOpcodes_nodup]
    exact numberOf_add _ _ _ (instructionCount_append whole) _ name

/-- A push of two bytes that would be reported if they were opcodes, and an instruction that is. -/
def pushThenDelegate : List UInt8 := [0x61, 0xff, 0xff, 0xf4]

private theorem sameInstructions_pushThenDelegate :
    SameInstructions pushThenDelegate [0x61, 0x00, 0x32, 0xf4] where
  length := rfl
  bytes := by
    have data {j : Nat} (behind : 0 < j) (within : j ≤ 2) : IsData pushThenDelegate j :=
      ⟨0, 2, 0x61, ⟨.start, rfl⟩, by decide, rfl, behind, by omega⟩
    intro j noData
    match j with
    | 0 => rfl
    | 1 => exact absurd (data (by decide) (by decide)) noData
    | 2 => exact absurd (data (by decide) (by decide)) noData
    | 3 => rfl
    | _ + 4 => rfl

theorem scan_counts_delegate :
    Writes " 0X61fFFFf4\n" pushThenDelegate ∧ ∃ s,
      CountsInstructions " 0X61fFFFf4\n" pushThenDelegate s ∧
      s.count "SELFDESTRUCT" = 0 ∧ s.count "DELEGATECALL" = 1 ∧ scan "610032f4" = .ok s := by
  have writes : Writes " 0X61fFFFf4\n" pushThenDelegate := by
    refine ⟨[' '], ['0', 'X'], ['6', '1', 'f', 'F', 'F', 'F', 'f', '4'],
      ['\n'], by decide, by decide, by decide, by decide, ?_⟩
    exact .cons (by decide) (by decide)
      (.cons (by decide) (by decide) (.cons (by decide) (by decide)
      (.cons (by decide) (by decide) .nil)))
  have changed : Writes "610032f4" [0x61, 0x00, 0x32, 0xf4] := by
    refine ⟨[], [], ['6', '1', '0', '0', '3', '2', 'f', '4'],
      [], by decide, by decide, by decide, by decide, ?_⟩
    exact .cons (by decide) (by decide)
      (.cons (by decide) (by decide) (.cons (by decide) (by decide)
      (.cons (by decide) (by decide) .nil)))
  obtain ⟨s, tells⟩ := scan_countsInstructions writes
  have destroys := tells.counts ⟨0xff, "SELFDESTRUCT", _⟩ List.mem_cons_self
  have delegates :=
    tells.counts ⟨0xf4, "DELEGATECALL", _⟩ (List.mem_cons_of_mem _ List.mem_cons_self)
  exact ⟨writes, s, tells, destroys.trans (by decide), delegates.trans (by decide),
    tells.blind _ _ changed sameInstructions_pushThenDelegate⟩

end AuditPanel.Bytecode
