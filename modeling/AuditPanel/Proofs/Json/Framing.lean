import AuditPanel.Proofs.Json.Numbers
import AuditPanel.Proofs.Text.Lines

/-!
Compact texts one after another. No value has a control character in its compact text, whatever its
strings and keys hold, so that line ends between such texts are the only ones and the lines of the
whole are just the texts.
-/

set_option autoImplicit false

namespace AuditPanel.Json

open Decimal

/-- A text without control characters, and so without line ends. -/
def IsFlat (s : List Char) : Prop :=
  ∀ c ∈ s, 0x20 ≤ c.toNat

instance (s : List Char) : Decidable (IsFlat s) :=
  List.decidableBAll (fun c : Char => 0x20 ≤ c.toNat) s

private theorem isFlat_nil : IsFlat [] :=
  nofun

private theorem isFlat_cons {c : Char} {s : List Char} :
    IsFlat (c :: s) ↔ 0x20 ≤ c.toNat ∧ IsFlat s :=
  List.forall_mem_cons

private theorem isFlat_append {s t : List Char} : IsFlat (s ++ t) ↔ IsFlat s ∧ IsFlat t :=
  List.forall_mem_append

private theorem isFlat_digits {s : List Char} (digits : ∀ c ∈ s, c.isDigit) : IsFlat s := by
  intro c member
  have digit := digits c member
  simp only [Char.isDigit, Bool.and_eq_true, decide_eq_true_eq, ge_iff_le, UInt32.le_iff_toNat_le]
    at digit
  have zero : '0'.val.toNat = 48 := rfl
  have code : c.val.toNat = c.toNat := rfl
  omega

private theorem isFlat_hexDigit {n : Nat} (small : n < 16) : 0x20 ≤ (hexDigit n).toNat := by
  have all : ∀ n < 16, 0x20 ≤ (hexDigit n).toNat := by decide
  exact all n small

private theorem isFlat_escapeChar (c : Char) : IsFlat (escapeChar c) := by
  have pair (a b : Char) (first : 0x20 ≤ a.toNat) (second : 0x20 ≤ b.toNat) : IsFlat [a, b] :=
    isFlat_cons.mpr ⟨first, isFlat_cons.mpr ⟨second, isFlat_nil⟩⟩
  unfold escapeChar
  split_ifs with _ _ _ _ _ _ _ control
  · exact pair _ _ (by decide) (by decide)
  · exact pair _ _ (by decide) (by decide)
  · exact pair _ _ (by decide) (by decide)
  · exact pair _ _ (by decide) (by decide)
  · exact pair _ _ (by decide) (by decide)
  · exact pair _ _ (by decide) (by decide)
  · exact pair _ _ (by decide) (by decide)
  · have digits : IsFlat [hexDigit (c.toNat / 16), hexDigit (c.toNat % 16)] :=
      pair _ _ (isFlat_hexDigit (by omega)) (isFlat_hexDigit (by omega))
    have opening : IsFlat ['\\', 'u', '0', '0'] := by decide
    exact isFlat_append.mpr ⟨opening, digits⟩
  · exact isFlat_cons.mpr ⟨Nat.not_lt.mp control, isFlat_nil⟩

private theorem isFlat_quoted (s : String) : IsFlat (quoted s) := by
  have inside : IsFlat (s.toList.flatMap escapeChar) := by
    intro c member
    obtain ⟨d, -, escaped⟩ := List.mem_flatMap.mp member
    exact isFlat_escapeChar d c escaped
  refine isFlat_cons.mpr ⟨by decide, isFlat_append.mpr ⟨inside, by decide⟩⟩

private theorem isFlat_int (n : Int) : IsFlat (toString n).toList := by
  have digits (n : Nat) : IsFlat (digitText n) := isFlat_digits fun c member =>
    isDigit_of_mem_digitText member
  rw [toList_toString_int]
  split
  · exact digits _
  · exact isFlat_cons.mpr ⟨by decide, digits _⟩

private theorem RealParts.isFlat_text (p : RealParts) : IsFlat p.text := by
  have fraction : IsFlat p.fractionText := by
    unfold RealParts.fractionText
    cases found : p.fraction with
    | none => exact isFlat_nil
    | some s => exact isFlat_cons.mpr ⟨by decide, isFlat_digits (p.fraction_digits s found).2⟩
  have exponent : IsFlat p.exponentText := by
    unfold RealParts.exponentText
    cases p.exponent with
    | none => exact isFlat_nil
    | some e => exact isFlat_cons.mpr ⟨by decide, isFlat_int e⟩
  exact isFlat_append.mpr ⟨isFlat_digits p.whole_digits, isFlat_append.mpr ⟨fraction, exponent⟩⟩

private theorem isFlat_realText (x : Float) : IsFlat (realText x) := by
  by_cases special : (x.isNaN || x.isInf) = true
  · rw [realText, if_pos special]
    decide
  · have finite : x.isFinite = true := isFinite_of_not_isNaN_isInf (by simpa using special)
    obtain ⟨p, plain | minus⟩ := exists_realText_eq finite
    · rw [plain]
      exact p.isFlat_text
    · rw [minus]
      exact isFlat_cons.mpr ⟨by decide, p.isFlat_text⟩

mutual

private theorem isFlat_text (v : Json) : IsFlat (text v) := by
  cases v with
  | null => exact (by decide : IsFlat "null".toList)
  | bool b =>
    cases b
    · exact (by decide : IsFlat "false".toList)
    · exact (by decide : IsFlat "true".toList)
  | integer n => exact isFlat_int n
  | real x => exact isFlat_realText x
  | string s => exact isFlat_quoted s
  | array items =>
    exact isFlat_cons.mpr ⟨by decide, isFlat_append.mpr ⟨isFlat_itemsText true items, by decide⟩⟩
  | object members =>
    exact isFlat_cons.mpr
      ⟨by decide, isFlat_append.mpr ⟨isFlat_membersText true members, by decide⟩⟩

private theorem isFlat_itemsText (first : Bool) (items : List Json) :
    IsFlat (itemsText first items) := by
  cases items with
  | nil => exact isFlat_nil
  | cons v rest =>
    have comma : IsFlat (if first then [] else [',']) := by
      cases first <;> decide
    exact isFlat_append.mpr ⟨comma, isFlat_append.mpr ⟨isFlat_text v, isFlat_itemsText false rest⟩⟩

private theorem isFlat_membersText (first : Bool) (members : List (String × Json)) :
    IsFlat (membersText first members) := by
  cases members with
  | nil => exact isFlat_nil
  | cons m rest =>
    have comma : IsFlat (if first then [] else [',']) := by
      cases first <;> decide
    have value : IsFlat (':' :: (text m.2 ++ membersText false rest)) :=
      isFlat_cons.mpr
        ⟨by decide, isFlat_append.mpr ⟨isFlat_text m.2, isFlat_membersText false rest⟩⟩
    exact isFlat_append.mpr ⟨comma, isFlat_append.mpr ⟨isFlat_quoted m.1, value⟩⟩

end

theorem isFlat_compact (v : Json) : IsFlat v.compact.toList := by
  rw [compact_toList]
  exact isFlat_text v

end AuditPanel.Json

namespace AuditPanel.Text

open Json

private theorem not_mem_of_isFlat {s : List Char} (flat : IsFlat s) : '\n' ∉ s ∧ '\r' ∉ s := by
  constructor <;> exact fun member => absurd (flat _ member) (by decide)

theorem lines_flatMap {texts : List (List Char)} (flat : ∀ s ∈ texts, IsFlat s) :
    lines (texts.flatMap (· ++ ['\n'])) = texts := by
  induction texts with
  | nil => rfl
  | cons s rest ih =>
    obtain ⟨first, later⟩ := List.forall_mem_cons.mp flat
    obtain ⟨one, noReturn⟩ := not_mem_of_isFlat first
    rw [List.flatMap_cons, List.append_assoc, List.singleton_append, lines_append_cons one,
      ih later, closeLine_reverse_of_not_mem noReturn]

end AuditPanel.Text
