import AuditPanel.Text.Lines
import AuditPanel.Text.WordChars

/-!
Searching a text: literal pieces, runs of blanks and suffixes with the character before them.
-/

set_option autoImplicit false

namespace AuditPanel.Text

/-- The text after the literal `word`, if the text starts with it. -/
def after? (word : String) (s : List Char) : Option (List Char) :=
  word.toList.isPrefixOf? s

/-- The text after its leading blanks, of which there must be one at least. -/
def afterBlanks? : List Char → Option (List Char)
  | [] => none
  | c :: rest => if isBlank c then some (trimStart rest) else none

/-- The text after one character on which `p` holds. -/
def afterChar? (p : Char → Bool) : List Char → Option (List Char)
  | [] => none
  | c :: rest => if p c then some rest else none

def identifier? : List Char → Option (List Char × List Char)
  | [] => none
  | c :: rest =>
    if isNameStart c then some (c :: rest.takeWhile isWordChar, rest.dropWhile isWordChar) else none

/-- Whether a text starts with something outside every word, or is over. -/
def endsWord : List Char → Bool
  | [] => true
  | c :: _ => !isWordChar c

/-- Whether `p` holds at some position, given the character before it and the text from it on. -/
def anyPosition (p : Option Char → List Char → Bool) : Option Char → List Char → Bool
  | before, [] => p before []
  | before, c :: rest => p before (c :: rest) || anyPosition p (some c) rest

/-- Whether `p` holds at some position of `s`. -/
def holdsSomewhere (p : Option Char → List Char → Bool) (s : List Char) : Bool :=
  anyPosition p none s

/-- The first answer of `f` over the positions of a text, from the front. -/
def firstPosition {α : Type} (f : List Char → Option α) : List Char → Option α
  | [] => f []
  | c :: rest =>
    match f (c :: rest) with
    | some a => some a
    | none => firstPosition f rest

/-- Whether the literal `word` occurs in the text. -/
def contains (word : String) (s : List Char) : Bool :=
  let pattern := word.toList
  holdsSomewhere (fun _ rest => pattern.isPrefixOf rest) s

/-- The text before the first occurrence of `word`, with the text passed so far reversed; the whole
text if there is none. -/
def beforeFrom (word : List Char) : List Char → List Char → List Char
  | passed, [] => passed.reverse
  | passed, c :: rest =>
    if word.isPrefixOf (c :: rest) then passed.reverse else beforeFrom word (c :: passed) rest

/-- The text before the first occurrence of a non-empty literal, or the whole text. -/
def before (word : String) (s : List Char) : List Char :=
  beforeFrom word.toList [] s

/-- A text split at its first `sep`: what stands before it and what after, if it occurs. -/
def splitAtChar? (sep : Char) (s : List Char) : Option (List Char × List Char) :=
  match s.dropWhile (· != sep) with
  | [] => none
  | _ :: rest => some (s.takeWhile (· != sep), rest)

end AuditPanel.Text
