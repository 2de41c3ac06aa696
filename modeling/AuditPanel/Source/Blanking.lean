import AuditPanel.Text.Search

/-!
Blanking of comments and of the contents of string literals. Every character is kept or becomes one
blank, and line feeds stay, so that columns and line numbers are those of the source.
-/

set_option autoImplicit false

namespace AuditPanel.Source

def isQuote (c : Char) : Bool :=
  c == '"' || c == '\''

/-- What the text before a position leaves open. -/
inductive Region where
  | code
  | lineComment
  | blockComment
  | literal (quote : Char)
  deriving Repr, DecidableEq

/-- The rest of a source with its comments blanked, from an open region on, onto the reversed text
so far. -/
def blankCommentsFrom : Region → List Char → List Char → List Char
  | _, out, [] => out.reverse
  | .code, out, '/' :: '/' :: rest => blankCommentsFrom .lineComment (' ' :: ' ' :: out) rest
  | .code, out, '/' :: '*' :: rest => blankCommentsFrom .blockComment (' ' :: ' ' :: out) rest
  | .code, out, c :: rest =>
    blankCommentsFrom (if isQuote c then .literal c else .code) (c :: out) rest
  | .lineComment, out, c :: rest =>
    if c = '\n' then blankCommentsFrom .code ('\n' :: out) rest
    else blankCommentsFrom .lineComment (' ' :: out) rest
  | .blockComment, out, '*' :: '/' :: rest => blankCommentsFrom .code (' ' :: ' ' :: out) rest
  | .blockComment, out, c :: rest =>
    blankCommentsFrom .blockComment ((if c = '\n' then '\n' else ' ') :: out) rest
  | .literal quote, out, '\\' :: c :: rest =>
    blankCommentsFrom (.literal quote) (c :: '\\' :: out) rest
  | .literal quote, out, c :: rest =>
    blankCommentsFrom (if c = quote ∨ c = '\n' then .code else .literal quote) (c :: out) rest

/-- A source with its comments blanked. A string literal ends at its quote or at the end of its
line; a backslash in it takes the next character along, a line feed too. -/
def blankComments (s : List Char) : List Char :=
  blankCommentsFrom .code [] s

/-- The rest of a text with the contents of its literals blanked, where `quote` is the open quote,
onto the reversed text so far. -/
def blankLiteralsFrom : Option Char → List Char → List Char → List Char
  | _, out, [] => out.reverse
  | none, out, c :: rest => blankLiteralsFrom (if isQuote c then some c else none) (c :: out) rest
  | some _, out, '\\' :: '\n' :: rest => blankLiteralsFrom none ('\n' :: ' ' :: out) rest
  | some quote, out, '\\' :: _ :: rest => blankLiteralsFrom (some quote) (' ' :: ' ' :: out) rest
  | some quote, out, c :: rest =>
    if c = '\n' ∨ c = quote ∧ c ≠ '\\' then blankLiteralsFrom none (c :: out) rest
    else blankLiteralsFrom (some quote) (' ' :: out) rest

/-- A comment-blanked text with the contents of its string literals blanked. Quotes and line feeds
stay. -/
def blankLiterals (s : List Char) : List Char :=
  blankLiteralsFrom none [] s

/-- The text in which rules and identifiers are looked for: comments and literal contents are
blank. -/
def codeOnly (s : List Char) : List Char :=
  blankLiterals (blankComments s)

end AuditPanel.Source
