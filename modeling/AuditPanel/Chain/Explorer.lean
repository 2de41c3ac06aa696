import AuditPanel.Json.Decode
import AuditPanel.Json.Reader
import AuditPanel.Text.Search

/-!
Verified sources as explorers give them: a plain text, or files by their paths, which are put
together into one source.
-/

set_option autoImplicit false

namespace AuditPanel.Explorer

open AuditPanel.Text

/-- A text without the outer one of two pairs of braces around it. -/
def unwrapped (s : List Char) : List Char :=
  if s.take 2 = ['\x7b', '\x7b'] ∧ s.reverse.take 2 = ['\x7d', '\x7d'] then (s.drop 1).dropLast
    else s

/-- The entries of an object by their paths: those under its sources if it has any, or else its
own. -/
def entries (members : List (String × Json)) : List (String × Json) :=
  match Json.member? "sources" members with
  | some (.object sources) => sources
  | _ => members

/-- A file with a line in front that names its path; none if the entry has no content. -/
def fileText? (entry : String × Json) : Option String :=
  ((entry.2.get? "content").bind Json.asString?).map fun content =>
    "// File: " ++ entry.1 ++ "\n" ++ content

/-- The files of an object in the order of their paths, with an empty line between two; none without
any. -/
def filesText? (members : List (String × Json)) : Option String :=
  match (entries members).filterMap fileText? with
  | [] => none
  | files => some ("\n\n".intercalate files)

/-- The source that the text of an explorer gives; none if there is none. A text that is no object
is the source. -/
def source? (raw : List Char) : Option String :=
  let text := trim raw
  if text.isEmpty then none
  else
    let inner := unwrapped text
    match if inner.head? = some '\x7b' then Json.read? inner else none with
    | some (.object members) => filesText? members
    | _ => some (String.ofList text)

end AuditPanel.Explorer
