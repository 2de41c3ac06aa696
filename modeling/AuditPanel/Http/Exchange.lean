import AuditPanel.Http.Status
import AuditPanel.Json.Printer
import AuditPanel.Json.Reader

/-!
Exchanges with remote services: a call, the answer to it and the means by which a call is answered.
-/

set_option autoImplicit false

namespace AuditPanel.Http

/-- A call to a remote service. -/
structure Call where
  method : String
  url : String
  headers : List (String × String)
  body : Option Json
  deriving Inhabited

namespace Call

def post (url : String) (headers : List (String × String)) (body : Json) : Call :=
  ⟨"POST", url, headers ++ [("content-type", "application/json")], some body⟩

/-- A character of a query as it is sent: letters, digits and four marks as they are, a blank as a
plus sign, and all else as its bytes in hexadecimal digits. -/
def queryChar (c : Char) : List Char :=
  if c.isAlphanum || c == '*' || c == '-' || c == '.' || c == '_' then [c]
  else if c == ' ' then ['+']
  else
    c.toString.toUTF8.toList.flatMap fun b =>
      '%' :: [Nat.digitChar (b.toNat / 16), Nat.digitChar (b.toNat % 16)].map Char.toUpper

def queryText (s : String) : String :=
  String.ofList (s.toList.flatMap queryChar)

def query (parts : List (String × String)) : String :=
  "&".intercalate (parts.map fun p => queryText p.1 ++ "=" ++ queryText p.2)

/-- A call that asks for what is at an address with a query, behind the query that the address has
already. -/
def get (url : String) (parts : List (String × String)) : Call :=
  ⟨"GET", url ++ (if url.toList.contains '?' then "&" else "?") ++ query parts, [], none⟩

end Call

/-- The answer to a call. -/
structure Answer where
  status : Nat
  text : String
  deriving Repr, DecidableEq, Inhabited

namespace Answer

def value? (a : Answer) : Option Json :=
  Json.read? a.text.toList

end Answer

/-- The means by which calls are answered: an answer, or the reason why there is none. -/
abbrev Transport := Call → Except String Answer

def offline : Transport :=
  fun c => .error ("no route to " ++ c.url)

end AuditPanel.Http
