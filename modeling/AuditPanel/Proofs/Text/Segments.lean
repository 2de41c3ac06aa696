import AuditPanel.Text.Segments
import Mathlib.Data.List.Infix

/-!
The pieces of a text. A text has one cut into marks and the literal text between them in which no
mark starts inside a literal piece, and that is the cut that is made.
-/

set_option autoImplicit false

namespace AuditPanel.Text

variable {α : Type}

/-- A literal text in front of pieces. It is one piece with the literal text that they begin
with. -/
def putBefore (text : List Char) : List (Segment α) → List (Segment α)
  | .literal later :: rest => .literal (text ++ later) :: rest
  | pieces => if text.isEmpty then pieces else .literal text :: pieces

private theorem putBefore_nil (pieces : List (Segment α)) : putBefore [] pieces = pieces := by
  rcases pieces with _ | ⟨_ | _, _⟩ <;> rfl

private theorem putBefore_putBefore (s t : List Char) (pieces : List (Segment α)) :
    putBefore s (putBefore t pieces) = putBefore (s ++ t) pieces := by
  cases t with
  | nil => rw [putBefore_nil, List.append_nil]
  | cons c t => rcases pieces with _ | ⟨_ | _, _⟩ <;> simp [putBefore]

private theorem reverse_closeLiteral (literal : List Char) (out : List (Segment α)) (value : α)
    (rest : List (Segment α)) :
    (closeLiteral literal out).reverse ++ .mark value :: rest =
      out.reverse ++ putBefore literal.reverse (.mark value :: rest) := by
  cases literal with
  | nil => rfl
  | cons c literal => simp [closeLiteral, putBefore]

section Search

variable {markAt? : List Char → Option (α × Nat)}

private theorem segmentsFrom_eq (skip : Nat) (literal : List Char) (out : List (Segment α))
    (s : List Char) :
    segmentsFrom markAt? skip literal out s =
      out.reverse ++ putBefore literal.reverse (segments markAt? (s.drop skip)) := by
  induction s generalizing skip literal out with
  | nil =>
    rw [List.drop_nil]
    cases literal with
    | nil => simp [segmentsFrom, closeLiteral, segments, putBefore]
    | cons c literal => simp [segmentsFrom, closeLiteral, segments, putBefore]
  | cons c rest ih =>
    cases skip with
    | succ skip => exact ih skip literal out
    | zero =>
      rw [List.drop_zero]
      cases found : markAt? (c :: rest) with
      | none =>
        simp only [segments, segmentsFrom, found]
        rw [ih, ih, List.reverse_nil, List.nil_append, putBefore_putBefore, List.reverse_cons,
          List.reverse_singleton]
      | some mark =>
        obtain ⟨value, length⟩ := mark
        simp only [segments, segmentsFrom, found]
        rw [ih, ih, List.reverse_nil, putBefore_nil, List.reverse_cons, List.append_assoc,
          List.singleton_append, reverse_closeLiteral]
        rfl

private theorem segments_cons_mark {c : Char} {rest : List Char} {value : α} {length : Nat}
    (found : markAt? (c :: rest) = some (value, length)) :
    segments markAt? (c :: rest) = .mark value :: segments markAt? (rest.drop (length - 1)) := by
  simp only [segments, segmentsFrom, found]
  rw [segmentsFrom_eq, List.reverse_nil, putBefore_nil]
  rfl

private theorem segments_cons_text {c : Char} {rest : List Char}
    (none : markAt? (c :: rest) = none) :
    segments markAt? (c :: rest) = putBefore [c] (segments markAt? rest) := by
  simp only [segments, segmentsFrom, none]
  rw [segmentsFrom_eq]
  rfl

private theorem segment_induction (markAt? : List Char → Option (α × Nat))
    {motive : List Char → Prop} (nil : motive [])
    (mark : ∀ c rest value length, markAt? (c :: rest) = some (value, length) →
      motive (rest.drop (length - 1)) → motive (c :: rest))
    (text : ∀ c rest, markAt? (c :: rest) = none → motive rest → motive (c :: rest))
    (s : List Char) : motive s := by
  induction size : s.length using Nat.strong_induction_on generalizing s with
  | _ bound ih =>
    cases s with
    | nil => exact nil
    | cons c rest =>
      rw [List.length_cons] at size
      cases found : markAt? (c :: rest) with
      | none => exact text c rest found (ih rest.length (by omega) rest rfl)
      | some here =>
        obtain ⟨value, length⟩ := here
        have shorter : (rest.drop (length - 1)).length < bound := by
          rw [List.length_drop]
          omega
        exact mark c rest value length found (ih _ shorter _ rfl)

theorem segments_append {t rest : List Char}
    (none : ∀ u ∈ t.tails, u ≠ [] → markAt? (u ++ rest) = none) :
    segments markAt? (t ++ rest) = putBefore t (segments markAt? rest) := by
  induction t with
  | nil => rw [List.nil_append, putBefore_nil]
  | cons c t ih =>
    rw [List.tails_cons, List.forall_mem_cons] at none
    have here : markAt? (c :: (t ++ rest)) = .none := none.1 (List.cons_ne_nil c t)
    rw [List.cons_append, segments_cons_text here, ih none.2, putBefore_putBefore,
      List.singleton_append]

end Search

def Segment.isLiteral : Segment α → Bool
  | .literal _ => true
  | .mark _ => false

def Segment.text (write : α → List Char) : Segment α → List Char
  | .literal text => text
  | .mark value => write value

/-- The cuts of texts into valid marks and literal pieces. Each literal piece is as long as it can
be, and nowhere in it does a mark start. -/
inductive IsCut (write : α → List Char) (valid : α → Prop) :
    List Char → List (Segment α) → Prop where
  | nil : IsCut write valid [] []
  | mark {value : α} {rest : List Char} {pieces : List (Segment α)} :
    valid value → IsCut write valid rest pieces →
      IsCut write valid (write value ++ rest) (.mark value :: pieces)
  | literal {text rest : List Char} {pieces : List (Segment α)} :
    text ≠ [] → (∀ u ∈ text.tails, u ≠ [] → ∀ value, valid value → ¬ write value <+: u ++ rest) →
      (∀ piece ∈ pieces.head?, ¬ piece.isLiteral) → IsCut write valid rest pieces →
      IsCut write valid (text ++ rest) (.literal text :: pieces)

theorem putBefore_eq_cons {text : List Char} {pieces : List (Segment α)} (nonempty : text ≠ [])
    (bounded : ∀ piece ∈ pieces.head?, ¬ piece.isLiteral) :
    putBefore text pieces = .literal text :: pieces := by
  rcases pieces with _ | ⟨later | value, rest⟩
  · simp [putBefore, nonempty]
  · exact absurd rfl (bounded (.literal later) rfl)
  · simp [putBefore, nonempty]

namespace IsCut

variable {write : α → List Char} {valid : α → Prop}

theorem flatMap_text {s : List Char} {pieces : List (Segment α)}
    (cut : IsCut write valid s pieces) :
    pieces.flatMap (·.text write) = s := by
  induction cut with
  | nil => rfl
  | mark _ _ ih => rw [List.flatMap_cons, ih]; rfl
  | literal _ _ _ _ ih => rw [List.flatMap_cons, ih]; rfl

private theorem putBefore_singleton {c : Char} {s : List Char} {pieces : List (Segment α)}
    (cut : IsCut write valid s pieces) (none : ∀ value, valid value → ¬ write value <+: c :: s) :
    IsCut write valid (c :: s) (putBefore [c] pieces) := by
  have alone : ∀ u ∈ [c].tails, u ≠ [] → ∀ value, valid value → ¬ write value <+: u ++ s := by
    intro u suffix_c nonempty
    obtain rfl | rfl : u = [c] ∨ u = [] := by simpa using suffix_c
    · exact none
    · exact absurd rfl nonempty
  cases cut with
  | nil => exact literal (List.cons_ne_nil c []) alone (by simp) nil
  | mark holds cut =>
    exact literal (List.cons_ne_nil c []) alone (by simp [Segment.isLiteral]) (mark holds cut)
  | @literal text rest pieces nonempty skips bounded cut =>
    refine literal (List.cons_ne_nil c text) ?_ bounded cut
    rw [List.tails_cons, List.forall_mem_cons]
    exact ⟨fun _ => none, skips⟩

theorem append_mark {s tail : List Char} {pieces more : List (Segment α)} {value : α}
    (cut : IsCut write valid s pieces)
    (apart : ∀ u ≠ [], ∀ other, valid other → write other <+: u ++ tail → write other <+: u)
    (later : IsCut write valid tail (.mark value :: more)) :
    IsCut write valid (s ++ tail) (pieces ++ .mark value :: more) := by
  induction cut with
  | nil => exact later
  | mark holds _ ih =>
    rw [List.append_assoc]
    exact mark holds ih
  | @literal text rest pieces nonempty skips bounded _ ih =>
    rw [List.append_assoc]
    refine literal nonempty ?_ ?_ ih
    · intro u suffix_text nonempty other holds starts
      rw [← List.append_assoc] at starts
      have inside := apart _ (List.append_ne_nil_of_left_ne_nil nonempty rest) other holds starts
      exact skips u suffix_text nonempty other holds inside
    · cases pieces with
      | nil => simp [Segment.isLiteral]
      | cons piece pieces => exact bounded

end IsCut

section Reading

variable {markAt? : List Char → Option (α × Nat)} {write : α → List Char} {valid : α → Prop}

/-- A search for marks that finds a valid mark, with its length, exactly where one is written. -/
structure Reads (markAt? : List Char → Option (α × Nat)) (write : α → List Char)
    (valid : α → Prop) : Prop where
  found_iff : ∀ s value length,
    markAt? s = some (value, length) ↔ valid value ∧ write value <+: s ∧
      length = (write value).length
  nonempty : ∀ value, valid value → write value ≠ []

namespace Reads

variable (reads : Reads markAt? write valid)

include reads

theorem none_iff {s : List Char} :
    markAt? s = none ↔ ∀ value, valid value → ¬ write value <+: s := by
  rw [Option.eq_none_iff_forall_ne_some]
  constructor
  · intro none value holds starts
    exact none _ ((reads.found_iff s value _).mpr ⟨holds, starts, rfl⟩)
  · rintro absent ⟨value, length⟩ found
    obtain ⟨holds, starts, _⟩ := (reads.found_iff s value length).mp found
    exact absent value holds starts

private theorem segments_mark {value : α} (holds : valid value) (rest : List Char) :
    segments markAt? (write value ++ rest) = .mark value :: segments markAt? rest := by
  obtain ⟨c, more, written⟩ := List.exists_cons_of_ne_nil (reads.nonempty value holds)
  have found : markAt? (c :: (more ++ rest)) = some (value, (write value).length) := by
    refine (reads.found_iff _ value _).mpr ⟨holds, ?_, rfl⟩
    rw [written]
    exact List.prefix_append (c :: more) rest
  rw [written, List.cons_append, segments_cons_mark found, written, List.length_cons,
    Nat.add_sub_cancel, List.drop_left]

theorem isCut_segments (s : List Char) : IsCut write valid s (segments markAt? s) := by
  induction s using segment_induction markAt? with
  | nil => exact .nil
  | mark c rest value length found ih =>
    obtain ⟨holds, ⟨behind, split⟩, rfl⟩ := (reads.found_iff _ value length).mp found
    rw [← split, reads.segments_mark holds]
    apply IsCut.mark holds
    obtain ⟨first, more, written⟩ := List.exists_cons_of_ne_nil (reads.nonempty value holds)
    rw [written, List.cons_append, List.cons.injEq] at split
    rwa [← split.2, written, List.length_cons, Nat.add_sub_cancel, List.drop_left] at ih
  | text c rest none ih =>
    rw [segments_cons_text none]
    exact ih.putBefore_singleton (reads.none_iff.mp none)

theorem isCut_iff {s : List Char} {pieces : List (Segment α)} :
    IsCut write valid s pieces ↔ pieces = segments markAt? s := by
  constructor
  · intro cut
    induction cut with
    | nil => rfl
    | mark holds _ ih => rw [reads.segments_mark holds, ih]
    | @literal text rest pieces nonempty skips bounded _ ih =>
      rw [segments_append, ← ih, putBefore_eq_cons nonempty bounded]
      intro u suffix_text nonempty
      exact reads.none_iff.mpr (skips u suffix_text nonempty)
  · rintro rfl
    exact reads.isCut_segments s

end Reads

end Reading

end AuditPanel.Text
