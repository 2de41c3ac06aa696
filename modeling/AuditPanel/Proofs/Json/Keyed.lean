import AuditPanel.Proofs.Json.Object
import AuditPanel.Proofs.Json.Reader

/-!
No object in a value that the strict reader gives has a key twice, at whatever depth it stands: the
members of each one were put in order when its closing brace was read.
-/

set_option autoImplicit false

namespace AuditPanel.Json

variable {s rest : List Char} {v : Json}

theorem IsSorted.nodup {members : List (String × Json)} (sorted : IsSorted members) :
    (members.map (·.1)).Nodup :=
  List.pairwise_map.mpr (sorted.imp fun below => ne_of_lt below)

/-- A value in which the keys of every object increase strictly. -/
inductive IsKeyed : Json → Prop
  | null : IsKeyed .null
  | bool (b : Bool) : IsKeyed (.bool b)
  | integer (n : Int) : IsKeyed (.integer n)
  | real (x : Float) : IsKeyed (.real x)
  | string (s : String) : IsKeyed (.string s)
  | array {items : List Json} (all : ∀ v ∈ items, IsKeyed v) : IsKeyed (.array items)
  | object {members : List (String × Json)} (sorted : IsSorted members)
      (all : ∀ m ∈ members, IsKeyed m.2) :
    IsKeyed (.object members)

theorem IsKeyed.nodup {members : List (String × Json)} (keyed : IsKeyed (.object members)) :
    (members.map (·.1)).Nodup := by
  cases keyed with
  | object sorted => exact sorted.nodup

theorem IsKeyed.of_member? {members : List (String × Json)} (keyed : IsKeyed (.object members))
    {key : String} (h : member? key members = some v) : IsKeyed v := by
  cases keyed with
  | object sorted all => exact all _ ((member?_eq_some_iff sorted.nodup).mp h)

private theorem isKeyed_ofMembers {members : List (String × Json)}
    (all : ∀ m ∈ members, IsKeyed m.2) :
    IsKeyed (ofMembers members) := by
  obtain ⟨sorted, same, increasing, among⟩ := exists_ofMembers members
  rw [same]
  exact .object increasing fun m member => all m (among m member)

private theorem isKeyed_wholeNumber (negative : Bool) (n : Nat) :
    IsKeyed (wholeNumber negative n) := by
  unfold wholeNumber
  split_ifs
  · exact .real _
  · exact .integer _
  · exact .integer _

private theorem isKeyed_magnitudeOf? {negative : Bool} {digits : List Char}
    {fraction : Option (List Char)}
    {mark : Option (Bool × List Char)} (h : magnitudeOf? negative digits fraction mark = some v) :
    IsKeyed v := by
  have real {x : Option Float} (h : x.map .real = some v) : IsKeyed v := by
    obtain ⟨y, -, rfl⟩ := Option.map_eq_some_iff.mp h
    exact .real y
  unfold magnitudeOf? at h
  dsimp only at h
  split at h
  · exact real h
  · split at h
    · cases h
      exact isKeyed_wholeNumber negative _
    · exact real h
  · exact real h

private theorem isKeyed_readMagnitude {negative : Bool}
    (h : readMagnitude negative s = some (v, rest)) : IsKeyed v := by
  obtain ⟨-, mark, -, value⟩ := readMagnitude_eq_some_iff.mp h
  exact isKeyed_magnitudeOf? value

private theorem isKeyed_readScalar (h : readScalar s = some (v, rest)) : IsKeyed v := by
  unfold readScalar at h
  split at h
  · obtain ⟨⟨text, left⟩, -, same⟩ := Option.map_eq_some_iff.mp h
    cases same
    exact .string text
  · exact isKeyed_readMagnitude h
  · cases h
    exact .bool true
  · cases h
    exact .bool false
  · cases h
    exact .null
  · exact isKeyed_readMagnitude h

section Containers

variable {item : List Char → Option (Json × List Char)}
  (keyed : ∀ s v rest, item s = some (v, rest) → IsKeyed v) {fuel : Nat}
include keyed

private theorem isKeyed_readElements {out : List Json} (all : ∀ w ∈ out, IsKeyed w)
    (h : readElements item fuel out s = some (v, rest)) : IsKeyed v := by
  induction fuel generalizing out s with
  | zero => simp [readElements] at h
  | succ fuel ih =>
    obtain ⟨element, after, read, behind⟩ := readElements_cases h
    have all' : ∀ w ∈ element :: out, IsKeyed w := List.forall_mem_cons.mpr ⟨keyed _ _ _ read, all⟩
    obtain ⟨left, -, further⟩ | ⟨-, rfl⟩ := behind
    · exact ih all' further
    · exact .array fun w member => all' w (List.mem_reverse.mp member)

private theorem isKeyed_readMembers {out : List (String × Json)} (all : ∀ m ∈ out, IsKeyed m.2)
    (h : readMembers item fuel out s = some (v, rest)) : IsKeyed v := by
  induction fuel generalizing out s with
  | zero => simp [readMembers] at h
  | succ fuel ih =>
    obtain ⟨_, key, _, _, value, _, -, -, -, read, behind⟩ := readMembers_cases h
    have all' : ∀ m ∈ (key, value) :: out, IsKeyed m.2 :=
      List.forall_mem_cons.mpr ⟨keyed _ _ _ read, all⟩
    obtain ⟨left, -, further⟩ | ⟨-, rfl⟩ := behind
    · exact ih all' further
    · exact isKeyed_ofMembers fun m member => all' m (List.mem_reverse.mp member)

end Containers

private theorem isKeyed_readValue {fuel depth : Nat} (h : readValue fuel depth s = some (v, rest)) :
    IsKeyed v := by
  induction depth using Nat.strong_induction_on generalizing s v rest with
  | _ depth ih =>
    obtain ⟨c, after, found, ⟨⟨inner, rfl⟩, bracket⟩ | ⟨-, read⟩⟩ := readValue_cases h
    · have keyed : ∀ s v rest, readValue fuel inner s = some (v, rest) → IsKeyed v :=
        fun s v rest read => ih inner (Nat.lt_succ_self inner) read
      rcases bracket with rfl | rfl
      · obtain ⟨-, rfl⟩ | ⟨-, items⟩ := readValue_array_cases found h
        · exact .array (List.forall_mem_nil _)
        · exact isKeyed_readElements keyed (List.forall_mem_nil _) items
      · obtain ⟨-, rfl⟩ | ⟨-, members⟩ := readValue_object_cases found h
        · exact .object .nil (List.forall_mem_nil _)
        · exact isKeyed_readMembers keyed (List.forall_mem_nil _) members
    · exact isKeyed_readScalar read

theorem isKeyed_read? (h : read? s = some v) : IsKeyed v := by
  simp only [read?, readWithin] at h
  split at h
  · cases h
  · next found =>
    rw [Option.ite_none_right_eq_some] at h
    cases h.2
    exact isKeyed_readValue found

end AuditPanel.Json
