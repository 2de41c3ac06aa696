import AuditPanel.Text.Ranges

/-!
Blanks, words and lines of a text given as its list of characters.

Every loop here keeps its result reversed and turns it round at the end, so that long texts need no
deep stack.
-/

set_option autoImplicit false

namespace AuditPanel.Text

def blankRanges : List (Nat × Nat) := [
  (0x9, 0xD), (0x20, 0x20), (0x85, 0x85), (0xA0, 0xA0), (0x1680, 0x1680), (0x2000, 0x200A),
  (0x2028, 0x2029), (0x202F, 0x202F), (0x205F, 0x205F), (0x3000, 0x3000)]

/-- A white space character of any script, line ends included. -/
def isBlank (c : Char) : Bool :=
  inRanges blankRanges c.toNat

def trimStart (s : List Char) : List Char :=
  s.dropWhile isBlank

def trimEnd (s : List Char) : List Char :=
  (s.reverse.dropWhile isBlank).reverse

def trim (s : List Char) : List Char :=
  trimEnd (trimStart s)

def isAllBlank (s : List Char) : Bool :=
  s.all isBlank

/-- A reversed line without the carriage return that stood before its line feed. -/
def closeLine : List Char → List Char
  | '\r' :: line => line.reverse
  | line => line.reverse

/-- Lines of the rest, after the reversed beginning of a line and the reversed lines so far. -/
def linesFrom : List Char → List (List Char) → List Char → List (List Char)
  | [], out, [] => out.reverse
  | line, out, [] => (line.reverse :: out).reverse
  | line, out, c :: rest =>
    if c = '\n' then linesFrom [] (closeLine line :: out) rest else linesFrom (c :: line) out rest

/-- The lines of a text. A line feed ends a line and takes one carriage return before it along; an
end of text right after a line feed opens no further line. -/
def lines (s : List Char) : List (List Char) :=
  linesFrom [] [] s

/-- The maximal runs of characters on which `p` fails, after a reversed beginning of one and the
reversed runs so far. -/
def runsFrom (p : Char → Bool) : List Char → List (List Char) → List Char → List (List Char)
  | [], out, [] => out.reverse
  | run, out, [] => (run.reverse :: out).reverse
  | run, out, c :: rest =>
    if p c then
      match run with
      | [] => runsFrom p [] out rest
      | _ :: _ => runsFrom p [] (run.reverse :: out) rest
    else runsFrom p (c :: run) out rest

/-- The non-empty pieces between characters on which `p` holds. -/
def runsBetween (p : Char → Bool) (s : List Char) : List (List Char) :=
  runsFrom p [] [] s

/-- The words of a text: its non-empty pieces between blanks. -/
def words (s : List Char) : List (List Char) :=
  runsBetween isBlank s

/-- The pieces between characters on which `p` holds, empty ones included, after a reversed
beginning of a piece and the reversed pieces so far. -/
def piecesFrom (p : Char → Bool) : List Char → List (List Char) → List Char → List (List Char)
  | piece, out, [] => (piece.reverse :: out).reverse
  | piece, out, c :: rest =>
    if p c then piecesFrom p [] (piece.reverse :: out) rest else piecesFrom p (c :: piece) out rest

/-- The pieces between characters on which `p` holds; there is one more of them than such
characters. -/
def piecesBetween (p : Char → Bool) (s : List Char) : List (List Char) :=
  piecesFrom p [] [] s

def joinWith (sep : List Char) (parts : List (List Char)) : List Char :=
  (parts.intersperse sep).flatten

end AuditPanel.Text
