import AuditPanel.Source.Blanking

/-!
The brace balance of a line. Braces inside string literals do not count, and a literal does not
reach over the end of its line.
-/

set_option autoImplicit false

namespace AuditPanel.Source

/-- What a line of code has open: nothing, a literal, or a literal whose next character is
escaped. -/
inductive LineState where
  | code
  | literal (quote : Char)
  | escaped (quote : Char)
  deriving Repr, DecidableEq

def LineState.next : LineState → Char → LineState
  | .code, c => if isQuote c then .literal c else .code
  | .literal quote, c =>
    if c = '\\' then .escaped quote else if c = quote then .code else .literal quote
  | .escaped quote, _ => .literal quote

def LineState.weight : LineState → Char → Int
  | .code, '\x7b' => 1
  | .code, '\x7d' => -1
  | _, _ => 0

def braceDeltaFrom : LineState → Int → List Char → Int
  | _, delta, [] => delta
  | state, delta, c :: rest => braceDeltaFrom (state.next c) (delta + state.weight c) rest

/-- Opening less closing braces of a line outside its string literals. -/
def braceDelta (line : List Char) : Int :=
  braceDeltaFrom .code 0 line

end AuditPanel.Source
