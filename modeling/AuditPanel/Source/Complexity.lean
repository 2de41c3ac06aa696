import AuditPanel.Text.Search

/-!
Complexity and size of a comment-blanked source.
-/

set_option autoImplicit false

namespace AuditPanel.Source

open AuditPanel.Text

/-- The number of positions of a text where `p` holds, given the character before each and the count
so far. -/
def countFrom (p : Option Char → List Char → Bool) : Nat → Option Char → List Char → Nat
  | n, _, [] => n
  | n, before, c :: rest => countFrom p (if p before (c :: rest) then n + 1 else n) (some c) rest

/-- The number of positions of a text where `p` holds. -/
def countPositions (p : Option Char → List Char → Bool) (s : List Char) : Nat :=
  countFrom p 0 none s

/-- Whether `word` stands at a position as a word of its own. -/
def isWholeWord (word : String) (before : Option Char) (s : List Char) : Bool :=
  !isWordAt before && match after? word s with
    | some rest => endsWord rest
    | none => false

/-- Whether `else` and `if` stand at a position as two words with blanks between them. -/
def isElseIf (before : Option Char) (s : List Char) : Bool :=
  !isWordAt before && match ((after? "else" s).bind afterBlanks?).bind (after? "if") with
    | some rest => endsWord rest
    | none => false

/-- The number of disjoint pairs of the character `mark`, after a count and whether a first one has
just been seen. -/
def countPairsFrom (mark : Char) : Nat → Bool → List Char → Nat
  | n, _, [] => n
  | n, seen, c :: rest =>
    if c = mark then
      (if seen then countPairsFrom mark (n + 1) false rest else countPairsFrom mark n true rest)
    else countPairsFrom mark n false rest

/-- The number of disjoint pairs of the character `mark`. -/
def countPairs (mark : Char) (s : List Char) : Nat :=
  countPairsFrom mark 0 false s

/-- One more than the number of branches: `if`, `else if`, `while`, `for`, both short-circuit
operators and `?`. An `else if` counts as itself and as an `if`. -/
def cyclomatic (cleaned : List Char) : Nat :=
  1 + countPositions (isWholeWord "if") cleaned + countPositions isElseIf cleaned
    + countPositions (isWholeWord "while") cleaned + countPositions (isWholeWord "for") cleaned
    + countPairs '&' cleaned + countPairs '|' cleaned + cleaned.count '?'

def linesOfCode (cleaned : List Char) : Nat :=
  ((lines cleaned).filter (!isAllBlank ·)).length

end AuditPanel.Source
