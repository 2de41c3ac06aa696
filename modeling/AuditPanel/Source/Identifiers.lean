import AuditPanel.Text.Search

/-!
Identifiers of a source and the lower-case words they are made of.
-/

set_option autoImplicit false

namespace AuditPanel.Source

open AuditPanel.Text

def isIdentifierStart (c : Char) : Bool :=
  c.isAlpha || c == '_' || c == '$'

def isIdentifierChar (c : Char) : Bool :=
  c.isAlphanum || c == '_' || c == '$'

/-- The identifiers of the rest, after the reversed beginning of one and the reversed identifiers so
far. -/
def identifiersFrom : List Char → List (List Char) → List Char → List (List Char)
  | [], out, [] => out.reverse
  | part, out, [] => (part.reverse :: out).reverse
  | [], out, c :: rest =>
    if isIdentifierStart c then identifiersFrom [c] out rest else identifiersFrom [] out rest
  | p :: part, out, c :: rest =>
    if isIdentifierChar c then identifiersFrom (c :: p :: part) out rest
    else identifiersFrom [] ((p :: part).reverse :: out) rest

/-- The identifiers of a text in order: the longest runs of identifier characters from a start
character on. -/
def identifiers (s : List Char) : List (List Char) :=
  identifiersFrom [] [] s

/-- Whether a word starts at `c` after `previous`: at a capital after a small letter or digit, and
at the last capital of a run before a small letter. -/
def startsWord (previous c : Char) (next : Option Char) : Bool :=
  c.isUpper && (!previous.isUpper || match next with
    | some n => n.isLower
    | none => false)

/-- The words of the rest of a chunk without separators, after the reversed beginning of a word in
lower case and the character before. -/
def chunkWordsFrom : List Char → Char → List Char → List (List Char)
  | part, _, [] => [part.reverse]
  | part, previous, c :: rest =>
    if startsWord previous c rest.head? then part.reverse :: chunkWordsFrom [c.toLower] c rest
    else chunkWordsFrom (c.toLower :: part) c rest

def chunkWords : List Char → List (List Char)
  | [] => []
  | c :: rest => chunkWordsFrom [c.toLower] c rest

/-- The lower-case words of an identifier, split at underscores, dollar signs and changes of
case. -/
def splitIdentifier (ident : List Char) : List (List Char) :=
  (runsBetween (fun c => c == '_' || c == '$') ident).flatMap chunkWords

def joinedPairs : List (List Char) → List (List Char)
  | a :: b :: rest => (a ++ b) :: joinedPairs (b :: rest)
  | _ => []

/-- The words of all identifiers of a text, and each two neighbouring words of one identifier
joined. -/
def identifierWords (code : List Char) : List String :=
  (identifiers code).flatMap fun ident =>
    let parts := splitIdentifier ident
    (joinedPairs parts ++ parts).map String.ofList

end AuditPanel.Source
