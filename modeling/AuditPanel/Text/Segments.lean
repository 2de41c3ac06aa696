/-!
A text cut into marks and the literal text between them. Marks are found from the front and do not
overlap.
-/

set_option autoImplicit false

namespace AuditPanel.Text

/-- A piece of a text: literal, or a mark with what it stands for. -/
inductive Segment (α : Type) where
  | literal (text : List Char)
  | mark (value : α)
  deriving Repr

/-- A literal piece onto the reversed pieces so far, unless it is empty. -/
def closeLiteral {α : Type} (literal : List Char) (out : List (Segment α)) : List (Segment α) :=
  match literal with
  | [] => out
  | _ :: _ => .literal literal.reverse :: out

/-- The pieces of the rest of a text, where the next `skip` characters belong to a mark, after the
reversed beginning of a literal piece and the reversed pieces so far. -/
def segmentsFrom {α : Type} (markAt? : List Char → Option (α × Nat)) :
    Nat → List Char → List (Segment α) → List Char → List (Segment α)
  | _, literal, out, [] => (closeLiteral literal out).reverse
  | skip + 1, literal, out, _ :: rest => segmentsFrom markAt? skip literal out rest
  | 0, literal, out, c :: rest =>
    match markAt? (c :: rest) with
    | some (value, length) =>
      segmentsFrom markAt? (length - 1) [] (.mark value :: closeLiteral literal out) rest
    | none => segmentsFrom markAt? 0 (c :: literal) out rest

/-- The pieces of a text, where `markAt?` tells what mark a text starts with and how long it is. -/
def segments {α : Type} (markAt? : List Char → Option (α × Nat)) (s : List Char) :
    List (Segment α) :=
  segmentsFrom markAt? 0 [] [] s

end AuditPanel.Text
