import AuditPanel.Digest
import AuditPanel.Json.Reader
import Mathlib.Data.Nat.Digits.Defs

/-!
The hexadecimal form of a digest says all that the digest says: the digits of a word read back give
the word.
-/

set_option autoImplicit false

namespace AuditPanel.Digest

def readHex? (s : List Char) : Option Nat :=
  s.foldlM (fun n c => (Json.hexValue? c).map fun d => 16 * n + d) 0

private theorem hexValue?_digitChar {d : Nat} (h : d < 16) :
    Json.hexValue? d.digitChar = some d := by
  revert d
  decide

private theorem readHex?_append_digitChar (s : List Char) {d : Nat} (h : d < 16) :
    readHex? (s ++ [d.digitChar]) = (readHex? s).map fun n => 16 * n + d := by
  cases read : readHex? s with
  | none => simp_all [readHex?, List.foldlM_append]
  | some n => simp_all [readHex?, List.foldlM_append, hexValue?_digitChar]

private theorem readHex?_toDigits (n : Nat) : readHex? (Nat.toDigits 16 n) = some n := by
  induction n using Nat.strong_induction_on with
  | h n ih =>
    rcases Nat.lt_or_ge n 16 with small | large
    · have digit := readHex?_append_digitChar [] small
      rw [Nat.toDigits_of_lt_base small]
      simpa [readHex?] using digit
    · have higher := ih (n / 16) (Nat.div_lt_self (by omega) (by omega))
      rw [Nat.toDigits_of_base_le (by omega) large,
        readHex?_append_digitChar _ (Nat.mod_lt n (by omega)), higher, Option.map_some,
        Nat.div_add_mod]

private theorem readHex?_zeros (k : Nat) (s : List Char) :
    readHex? (List.replicate k '0' ++ s) = readHex? s := by
  induction k with
  | zero => rfl
  | succ k ih => exact ih

private theorem readHex?_wordHex (word : UInt32) : readHex? (wordHex word) = some word.toNat := by
  rw [wordHex, readHex?_zeros, readHex?_toDigits]

private theorem wordHex_length (word : UInt32) : (wordHex word).length = 8 := by
  have atMost : (Nat.toDigits 16 word.toNat).length ≤ 8 :=
    (Nat.length_toDigits_le_iff (by omega) (by omega)).mpr word.toNat_lt
  simp only [wordHex, List.length_append, List.length_replicate]
  omega

private theorem wordHex_ne_nil (word : UInt32) : wordHex word ≠ [] :=
  List.ne_nil_of_length_pos (by simp [wordHex_length])

private theorem wordHex_injective : Function.Injective wordHex := by
  intro v w same
  have read := readHex?_wordHex v
  rw [same, readHex?_wordHex, Option.some.injEq] at read
  exact UInt32.toNat_inj.mp read.symm

private theorem flatMap_wordHex_injective : Function.Injective (List.flatMap wordHex) := by
  intro vs
  induction vs with
  | nil =>
    intro ws same
    cases ws with
    | nil => rfl
    | cons w ws => simp [wordHex_ne_nil] at same
  | cons v vs ih =>
    intro ws same
    cases ws with
    | nil => simp [wordHex_ne_nil] at same
    | cons w ws =>
      rw [List.flatMap_cons, List.flatMap_cons] at same
      obtain ⟨first, others⟩ :=
        List.append_inj same ((wordHex_length v).trans (wordHex_length w).symm)
      rw [wordHex_injective first, ih others]

private theorem Chaining.toList_injective : Function.Injective Chaining.toList := by
  rintro ⟨⟩ ⟨⟩ same
  simpa [Chaining.toList] using same

theorem hex_eq_hex_iff {m m' : ByteArray} : hex m = hex m' ↔ sha256 m = sha256 m' := by
  rw [hex, hex, String.ofList_inj, flatMap_wordHex_injective.eq_iff,
    Chaining.toList_injective.eq_iff]

end AuditPanel.Digest
