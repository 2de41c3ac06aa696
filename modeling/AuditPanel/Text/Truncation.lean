import AuditPanel.Text.Lines

/-!
Cutting texts to a number of characters. A cut source keeps its head and its tail, with a banner
that states how many characters lie between them.
-/

set_option autoImplicit false

namespace AuditPanel.Text

/-- The longest part of a source that is shown whole when no other limit is given. -/
def defaultSourceLimit : Nat := 30000

def errorLimit : Nat := 2000

/-- The first `limit` characters. -/
def truncate (s : List Char) (limit : Nat) : List Char :=
  s.take limit

/-- The line that stands for `count` characters left out. -/
def omissionBanner (count : Nat) : List Char :=
  s!"\n\n// ... [truncated {count} chars] ...\n\n".toList

/-- A source of at most `limit` characters as it is, a longer one as its first and last `limit / 2`
characters around a banner. -/
def truncateSource (s : List Char) (limit : Nat) : List Char :=
  let total := s.length
  if total ≤ limit then s
  else
    let half := limit / 2
    s.take half ++ omissionBanner (total - 2 * half) ++ s.drop (total - half)

def truncateError (s : List Char) : List Char :=
  if s.length ≤ errorLimit then s else s.take errorLimit ++ ['.', '.', '.']

end AuditPanel.Text
