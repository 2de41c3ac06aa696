/-!
Places in a YAML text: what is still to be read, with line and column, and the characters that
matter to the layout.
-/

set_option autoImplicit false

namespace AuditPanel.Yaml

def isBlank (c : Char) : Bool :=
  c == ' ' || c == '\t'

def isBreak (c : Char) : Bool :=
  c == '\n' || c == '\r' || c == '\u0085' || c == '\u2028' || c == '\u2029'

/-- Whether a blank, the end of a line or the end of the text stands in front. -/
def isGap (s : List Char) : Bool :=
  match s with
  | [] => true
  | c :: _ => isBlank c || isBreak c

def isLineEnd (s : List Char) : Bool :=
  match s with
  | [] => true
  | c :: _ => isBreak c

def isNameChar (c : Char) : Bool :=
  c.isAlphanum || c == '_' || c == '-'

def isPrintable (c : Char) : Bool :=
  let n := c.toNat
  c == '\t' || c == '\n' || c == '\r' || (0x20 ≤ n && n ≤ 0x7E) || n == 0x85 ||
    (0xA0 ≤ n && n ≤ 0xFFFD) || 0x10000 ≤ n

/-- A place in a text: what is left and how many characters that is, the number of bytes in front,
the line, and the number of characters in front in the line. -/
structure Cursor where
  rest : List Char
  left : Nat
  index : Nat
  line : Nat
  column : Nat
  deriving Repr, DecidableEq, Inhabited

namespace Cursor

def start (s : List Char) : Cursor :=
  ⟨s, s.length, 0, 0, 0⟩

def byteSize (s : List Char) : Nat :=
  (s.map Char.utf8Size).foldl (· + ·) 0

def advance (c : Cursor) (n : Nat) : Cursor :=
  { c with
    rest := c.rest.drop n
    left := c.left - n
    index := c.index + byteSize (c.rest.take n)
    column := c.column + n }

def skipWhile (c : Cursor) (p : Char → Bool) : Cursor :=
  c.advance (c.rest.takeWhile p).length

def toLineEnd (c : Cursor) : Cursor :=
  c.skipWhile fun d => !isBreak d

/-- The place in the next line, and the break as it is read: a line separator or paragraph separator
as itself, all else as a line feed. Nothing happens where no line ends. -/
def takeBreak (c : Cursor) : List Char × Cursor :=
  match c.rest with
  | '\r' :: '\n' :: rest => (['\n'], ⟨rest, c.left - 2, c.index + 2, c.line + 1, 0⟩)
  | d :: rest =>
    if isBreak d then
      ([if d == '\u2028' || d == '\u2029' then d else '\n'],
        ⟨rest, c.left - 1, c.index + d.utf8Size, c.line + 1, 0⟩)
    else ([], c)
  | [] => ([], c)

/-- Whether the mark that starts or ends a document stands at a place. -/
def isAtMarker (c : Cursor) (mark : Char) : Bool :=
  c.column == 0 && c.rest.take 3 == [mark, mark, mark] && isGap (c.rest.drop 3)

def isAtDocumentMarker (c : Cursor) : Bool :=
  c.isAtMarker '-' || c.isAtMarker '.'

end Cursor

end AuditPanel.Yaml
