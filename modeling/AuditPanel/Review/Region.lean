import AuditPanel.Json.Reader

/-!
The JSON object in a reviewer's answer: the first balanced pair of braces whose text is an object.
Quotes delimit strings only inside an open brace, so that apostrophes and quotes of prose around it
are harmless.
-/

set_option autoImplicit false

namespace AuditPanel.Review

/-- An answer beyond this many bytes is ignored. -/
def answerLimit : Nat := 512 * 1024

/-- The longest beginning of a text of at most `room` bytes, onto the reversed text so far. -/
def takeBytes : Nat → List Char → List Char → List Char
  | _, out, [] => out.reverse
  | room, out, c :: rest =>
    if c.utf8Size ≤ room then takeBytes (room - c.utf8Size) (c :: out) rest else out.reverse

/-- A balanced pair of braces by the positions of its two characters. -/
structure BracePair where
  start : Nat
  stop : Nat
  deriving Repr, DecidableEq

/-- Where the search for braces stands: inside a string or not, and after a backslash in one. -/
inductive BraceState where
  | outside
  | string
  | escaped
  deriving Repr, DecidableEq

/-- The pairs of the rest of a text, with the positions of the open braces, innermost first, and the
pairs so far. -/
def bracePairsFrom : BraceState → List Nat → List BracePair → Nat → List Char → List BracePair
  | _, _, pairs, _, [] => pairs
  | .escaped, opened, pairs, i, _ :: rest => bracePairsFrom .string opened pairs (i + 1) rest
  | .string, opened, pairs, i, c :: rest =>
    let state := if c = '\\' then .escaped else if c = '"' then .outside else .string
    bracePairsFrom state opened pairs (i + 1) rest
  | .outside, opened, pairs, i, c :: rest =>
    if c = '\x7b' then bracePairsFrom .outside (i :: opened) pairs (i + 1) rest
    else if c = '\x7d' then
      match opened with
      | [] => bracePairsFrom .outside [] pairs (i + 1) rest
      | start :: opened => bracePairsFrom .outside opened (⟨start, i⟩ :: pairs) (i + 1) rest
    else if c = '"' ∧ opened ≠ [] then bracePairsFrom .string opened pairs (i + 1) rest
    else bracePairsFrom .outside opened pairs (i + 1) rest

/-- The balanced pairs of braces of a text in the order of their opening braces. -/
def bracePairs (s : List Char) : List BracePair :=
  (bracePairsFrom .outside [] [] 0 s).mergeSort fun a b => a.start ≤ b.start

/-- The members of the object that fills a pair of braces, where `s` is the text from the opening
brace on. -/
def objectIn? (fuel : Nat) (pair : BracePair) (s : List Char) : Option (List (String × Json)) :=
  match Json.readValue fuel Json.defaultDepth s with
  | some (.object members, rest) =>
    if s.length = rest.length + (pair.stop + 1 - pair.start) then some members else none
  | _ => none

/-- The object of the first pair that holds one, where `s` is the text from position `i` on. -/
def firstObject? (fuel : Nat) : Nat → List Char → List BracePair → Option (List (String × Json))
  | _, _, [] => none
  | i, s, pair :: rest =>
    let here := s.drop (pair.start - i)
    match objectIn? fuel pair here with
    | some members => some members
    | none => firstObject? fuel pair.start here rest

def extractObject? (text : List Char) : Option (List (String × Json)) :=
  let kept := takeBytes answerLimit [] text
  firstObject? (kept.length + 1) 0 kept (bracePairs kept)

end AuditPanel.Review
