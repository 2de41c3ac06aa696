import AuditPanel.Bytecode
import AuditPanel.Proofs.Digest
import AuditPanel.Proofs.Text.Search
import Mathlib.Data.List.TakeWhile

/-!
Hexadecimal texts of a code. Every way to write a code is read: with small and capital digits, with
or without a mark in front and with blanks around it.
-/

set_option autoImplicit false

namespace AuditPanel.Bytecode

open AuditPanel.Text

/-- A hexadecimal digit, small or capital, with its value. -/
def IsDigit (c : Char) (n : Nat) : Prop :=
  n < 16 ∧ (c = n.digitChar ∨ c = n.digitChar.toUpper)

instance (c : Char) (n : Nat) : Decidable (IsDigit c n) :=
  inferInstanceAs (Decidable (_ ∧ _))

/-- Digits that spell a code: two for each byte, the higher one first. -/
inductive Spells : List Char → List UInt8 → Prop
  | nil : Spells [] []
  | cons {high low : Char} {digits : List Char} {byte : UInt8} {code : List UInt8} :
      IsDigit high (byte.toNat / 16) → IsDigit low (byte.toNat % 16) → Spells digits code →
        Spells (high :: low :: digits) (byte :: code)

/-- A text that writes a code. -/
def Writes (text : String) (code : List UInt8) : Prop :=
  ∃ before mark digits after, text.toList = before ++ (mark ++ digits) ++ after ∧
    isAllBlank before ∧ isAllBlank after ∧ mark ∈ [[], ['0', 'x'], ['0', 'X']] ∧ Spells digits code

variable {c : Char} {n : Nat} {digits : List Char} {code : List UInt8}

theorem IsDigit.facts (digit : IsDigit c n) :
    Json.hexValue? c = some n ∧ c.toNat < 128 ∧ isBlank c = false ∧ c ≠ 'x' ∧ c ≠ 'X' := by
  have both : ∀ n < 16, [n.digitChar, n.digitChar.toUpper].all (fun c => decide
      (Json.hexValue? c = some n ∧ c.toNat < 128 ∧ isBlank c = false ∧ c ≠ 'x' ∧ c ≠ 'X')) =
        true := by
    decide
  obtain ⟨bound, either⟩ := digit
  exact of_decide_eq_true (List.all_eq_true.mp (both n bound) c (by simpa using either))

private theorem Spells.forall_mem (spells : Spells digits code) :
    ∀ c ∈ digits, ∃ n, IsDigit c n := by
  induction spells with
  | nil => simp
  | cons high low _ ih =>
    intro c member
    rcases List.mem_cons.mp member with rfl | member
    · exact ⟨_, high⟩
    rcases List.mem_cons.mp member with rfl | member
    · exact ⟨_, low⟩
    · exact ih c member

theorem Spells.length (spells : Spells digits code) : digits.length = 2 * code.length := by
  induction spells with
  | nil => rfl
  | cons _ _ _ ih => simp only [List.length_cons, ih]; omega

private theorem toList_loop_eq (bytes : ByteArray) (i : Nat) (out : List UInt8) :
    ByteArray.toList.loop bytes i out = out.reverse ++ bytes.data.toList.drop i := by
  induction left : bytes.size - i generalizing i out with
  | zero =>
    have beyond : bytes.data.toList.length ≤ i := by
      rw [Array.length_toList]
      exact Nat.le_of_sub_eq_zero left
    rw [ByteArray.toList.loop, if_neg (by omega), List.drop_eq_nil_of_le beyond, List.append_nil]
  | succ left ih =>
    have inside : i < bytes.size := by omega
    have here : i < bytes.data.toList.length := by rwa [Array.length_toList]
    have byte : bytes.get! i = bytes.data.toList[i] := by
      rw [Array.getElem_toList]
      exact getElem!_pos bytes.data i inside
    rw [ByteArray.toList.loop, if_pos inside, ih _ _ (by omega), List.drop_eq_getElem_cons here,
      byte, List.reverse_cons, List.append_assoc, List.singleton_append]

private theorem toList_eq_data (bytes : ByteArray) : bytes.toList = bytes.data.toList :=
  toList_loop_eq bytes 0 []

theorem utf8EncodeChar_ascii (ascii : c.toNat < 128) :
    String.utf8EncodeChar c = [c.val.toUInt8] := by
  refine String.utf8EncodeChar_eq_singleton ?_
  have small : c.val ≤ 0x7f := UInt32.le_iff_toNat_le.mpr (Nat.le_of_lt_succ ascii)
  simp [Char.utf8Size, small]

private theorem toUTF8_ascii {s : List Char} (ascii : ∀ c ∈ s, c.toNat < 128) :
    (String.ofList s).toUTF8.toList = s.map fun c => c.val.toUInt8 := by
  have encoded : s.flatMap String.utf8EncodeChar = s.map fun c => c.val.toUInt8 := by
    rw [← List.flatMap_singleton' (s.map _), List.flatMap_map]
    exact List.flatMap_congr fun c member => utf8EncodeChar_ascii (ascii c member)
  rw [toList_eq_data, String.toUTF8, String.toByteArray_ofList, List.utf8Encode,
    List.toList_data_toByteArray, encoded]

private theorem ofNat_toUInt8 (ascii : c.toNat < 128) : Char.ofNat c.val.toUInt8.toNat = c := by
  have small : c.val.toUInt8.toNat = c.toNat := by
    rw [UInt32.toNat_toUInt8]
    exact Nat.mod_eq_of_lt (Nat.lt_trans ascii (by decide))
  rw [small, Char.ofNat_toNat]

private theorem pairsFrom_spells (spells : Spells digits code) (offset : Nat) (out : List UInt8) :
    pairsFrom offset out (digits.map fun c => c.val.toUInt8) = .ok (out.reverse ++ code) := by
  induction spells generalizing offset out with
  | nil => simp [pairsFrom]
  | @cons high low digits byte code highDigit lowDigit _ ih =>
    obtain ⟨highValue, highAscii, -⟩ := highDigit.facts
    obtain ⟨lowValue, lowAscii, -⟩ := lowDigit.facts
    have whole : UInt8.ofNat (16 * (byte.toNat / 16) + byte.toNat % 16) = byte := by
      rw [Nat.div_add_mod, UInt8.ofNat_toNat]
    simp only [List.map_cons, pairsFrom, ofNat_toUInt8 highAscii, ofNat_toUInt8 lowAscii, highValue,
      lowValue, whole, ih, List.reverse_cons, List.append_assoc, List.singleton_append]

private theorem decodeHex_spells (spells : Spells digits code) : decodeHex digits = .ok code := by
  have ascii : ∀ c ∈ digits, c.toNat < 128 := by
    intro c member
    obtain ⟨n, digit⟩ := spells.forall_mem c member
    exact digit.facts.2.1
  have even : ¬ digits.length % 2 = 1 := by
    rw [spells.length]
    omega
  simp only [decodeHex, toUTF8_ascii ascii, List.length_map, if_neg even, pairsFrom_spells spells,
    List.reverse_nil, List.nil_append]

private theorem trim_padded {before s after : List Char} (blankBefore : isAllBlank before)
    (blankAfter : isAllBlank after)
    (solid : ∀ c ∈ s, isBlank c = false) : trim (before ++ s ++ after) = s := by
  have blank : ∀ c ∈ after, isBlank c := by simpa [isAllBlank] using blankAfter
  rw [trim, List.append_assoc, trimStart_append blankBefore]
  cases s with
  | nil =>
    rw [List.nil_append, trimStart, List.dropWhile_eq_nil_iff.mpr blank]
    rfl
  | cons c s =>
    rw [List.cons_append, trimStart_cons (solid c List.mem_cons_self), ← List.cons_append, trimEnd,
      List.reverse_append, List.dropWhile_append_of_pos fun d member =>
        blank d (List.mem_reverse.mp member)]
    have last : (c :: s).reverse.dropWhile isBlank = (c :: s).reverse := by
      rw [List.dropWhile_eq_self_iff]
      intro positive
      simp only [solid _ (List.mem_reverse.mp (List.getElem_mem positive)), Bool.false_eq_true,
        not_false_iff]
    rw [last, List.reverse_reverse]

theorem decodeHex_writes {text : String} (writes : Writes text code) :
    decodeHex (digitsOf text.toList) = .ok code := by
  obtain ⟨before, mark, digits, after, shape, blankBefore, blankAfter, marked, spells⟩ := writes
  have solid : ∀ c ∈ mark ++ digits, isBlank c = false := by
    intro c member
    rcases List.mem_append.mp member with inMark | inDigits
    · have marks : [[], ['0', 'x'], ['0', 'X']].all (fun mark => mark.all fun c => !isBlank c) =
        true := by decide
      have own := List.all_eq_true.mp (List.all_eq_true.mp marks mark marked) c inMark
      simpa using own
    · obtain ⟨n, digit⟩ := spells.forall_mem c inDigits
      exact digit.facts.2.2.1
  have own : digitsOf text.toList = digits := by
    rw [digitsOf, shape, trim_padded blankBefore blankAfter solid]
    simp only [List.mem_cons, List.not_mem_nil, or_false] at marked
    rcases marked with rfl | rfl | rfl
    · -- Without a mark, the second character is a digit and no part of a mark.
      cases spells with
      | nil => rfl
      | cons high low _ =>
        obtain ⟨-, -, -, noSmall, noCapital⟩ := low.facts
        simp only [List.nil_append]
        split
        · next same => simp_all
        · next same => simp_all
        · rfl
    · rfl
    · rfl
  rw [own, decodeHex_spells spells]

end AuditPanel.Bytecode
