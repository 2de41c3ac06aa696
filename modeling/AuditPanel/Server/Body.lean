import AuditPanel.Json.Decode
import AuditPanel.Json.Reader

/-!
Bodies of requests, read against the shape that a request must have. The first fault in the order of
the text decides whether a body is malformed or of another shape. What follows the value is not
looked at.
-/

set_option autoImplicit false

namespace AuditPanel.Server

/-- Why a body cannot be used: its text is no JSON, or it is JSON of another shape. -/
inductive BodyFault where
  | malformed
  | mismatched
  deriving Repr, DecidableEq

/-- A reader of one shape: the value at the front of a text and the text after it. -/
abbrev ShapeReader := List Char → Except BodyFault (Json × List Char)

/-- The fault of a text at whose front a value of another kind is wanted. -/
def faultAt (s : List Char) : BodyFault :=
  match s with
  | '[' :: _ => .mismatched
  | '\x7b' :: _ => .mismatched
  | _ => if (Json.readScalar s).isSome then .mismatched else .malformed

def orMalformed {α : Type} : Option α → Except BodyFault α
  | some a => .ok a
  | none => .error .malformed

def textShape : ShapeReader := fun s =>
  match Json.skipSpace s with
  | '"' :: rest => (orMalformed (Json.readString rest)).map fun (text, rest) => (.string text, rest)
  | s => .error (faultAt s)

def optionShape (inner : ShapeReader) : ShapeReader := fun s =>
  match Json.skipSpace s with
  | 'n' :: 'u' :: 'l' :: 'l' :: rest => .ok (.null, rest)
  | 'n' :: _ => .error .malformed
  | s => inner s

def wordIn (words : List String) (s : List Char) : Except BodyFault (String × List Char) := do
  let (word, rest) ← orMalformed (Json.readString s)
  if words.contains word then .ok (word, rest) else .error .mismatched

/-- One of the given words, or an object with one of them over null. -/
def wordShape (words : List String) : ShapeReader := fun s =>
  match Json.skipSpace s with
  | '"' :: rest => (wordIn words rest).map fun (word, rest) => (.string word, rest)
  | '\x7b' :: rest => do
    let (word, rest) ← match Json.skipSpace rest with
      | '"' :: rest => wordIn words rest
      | rest => .error (faultAt rest)
    let rest ← match Json.skipSpace rest with
      | ':' :: rest => .ok (Json.skipSpace rest)
      | _ => .error .malformed
    let rest ← match rest with
      | 'n' :: 'u' :: 'l' :: 'l' :: rest => .ok (Json.skipSpace rest)
      | rest => .error (faultAt rest)
    match rest with
    | '\x7d' :: rest => .ok (.string word, rest)
    | _ => .error .malformed
  | _ => .error .malformed

/-- The elements of a list from the first one on, with those so far reversed. -/
def elementsShape (inner : ShapeReader) : Nat → List Json → ShapeReader
  | 0, _, _ => .error .malformed
  | fuel + 1, out, s => do
    let (v, rest) ← inner s
    match Json.skipSpace rest with
    | ']' :: rest => .ok (.array (v :: out).reverse, rest)
    | ',' :: rest =>
      match Json.skipSpace rest with
      | ']' :: _ => .error .malformed
      | rest => elementsShape inner fuel (v :: out) rest
    | _ => .error .malformed

def listShape (inner : ShapeReader) : ShapeReader := fun s =>
  match Json.skipSpace s with
  | '[' :: rest =>
    match Json.skipSpace rest with
    | ']' :: rest => .ok (.array [], rest)
    | [] => .error .malformed
    | rest => elementsShape inner (rest.length + 1) [] rest
  | s => .error (faultAt s)

/-- Whether a field may be left out: never, in an object only, or in an object and at the end of an
array. -/
inductive Presence where
  | required
  | optional
  | defaulted
  deriving Repr, DecidableEq

/-- A field of a record. -/
structure FieldShape where
  name : String
  presence : Presence
  reader : ShapeReader

/-- The text after a string that is passed over, from behind its opening quote. The units of escapes
have to be spelled right, whatever they stand for. -/
def skipString : List Char → Option (List Char)
  | [] => none
  | '"' :: rest => some rest
  | '\\' :: 'u' :: a :: b :: c :: d :: rest =>
    if [a, b, c, d].all fun digit => (Json.hexValue? digit).isSome then skipString rest else none
  | '\\' :: c :: rest => if (Json.simpleEscape? c).isSome then skipString rest else none
  | c :: rest => if c.toNat < 0x20 then none else skipString rest

/-- The text after the magnitude of a number that is passed over, however great it is. -/
def skipMagnitude (s : List Char) : Option (List Char) :=
  let (whole, rest) := Decimal.digitRun s
  if whole.isEmpty || (whole.head? == some '0' && 1 < whole.length) then none
  else
    match rest with
    | '.' :: rest =>
      let (fraction, rest) := Decimal.digitRun rest
      if fraction.isEmpty then none else (Json.readExponent rest).map (·.2)
    | rest => (Json.readExponent rest).map (·.2)

def skipScalar (s : List Char) : Option (List Char) :=
  match s with
  | '"' :: rest => skipString rest
  | '-' :: rest => skipMagnitude rest
  | 't' :: 'r' :: 'u' :: 'e' :: rest => some rest
  | 'f' :: 'a' :: 'l' :: 's' :: 'e' :: rest => some rest
  | 'n' :: 'u' :: 'l' :: 'l' :: rest => some rest
  | rest => skipMagnitude rest

mutual

/-- The text after a value that is passed over, however deep its containers nest. -/
def skipValue : Nat → List Char → Option (List Char)
  | 0, _ => none
  | fuel + 1, s =>
    match Json.skipSpace s with
    | '[' :: rest =>
      match Json.skipSpace rest with
      | ']' :: rest => some rest
      | rest => skipElements fuel rest
    | '\x7b' :: rest =>
      match Json.skipSpace rest with
      | '\x7d' :: rest => some rest
      | rest => skipMembers fuel rest
    | rest => skipScalar rest

def skipElements : Nat → List Char → Option (List Char)
  | 0, _ => none
  | fuel + 1, s =>
    match skipValue fuel s with
    | none => none
    | some rest =>
      match Json.skipSpace rest with
      | ',' :: rest => skipElements fuel rest
      | ']' :: rest => some rest
      | _ => none

def skipMembers : Nat → List Char → Option (List Char)
  | 0, _ => none
  | fuel + 1, s =>
    match Json.skipSpace s with
    | '"' :: rest =>
      match (skipString rest).map Json.skipSpace with
      | some (':' :: rest) =>
        match skipValue fuel rest with
        | none => none
        | some rest =>
          match Json.skipSpace rest with
          | ',' :: rest => skipMembers fuel rest
          | '\x7d' :: rest => some rest
          | _ => none
      | _ => none
    | _ => none

end

/-- The members of a record in an object from the first key on, with those so far. Members of other
names are passed over, and a field may not come twice. -/
def membersShape (fields : List FieldShape) : Nat → List (String × Json) → List Char →
    Except BodyFault (List (String × Json) × List Char)
  | 0, _, _ => .error .malformed
  | fuel + 1, found, s =>
    match s with
    | '"' :: rest => do
      let (key, rest) ← orMalformed (Json.readString rest)
      let field := fields.find? (·.name = key)
      if field.isSome && found.any (·.1 = key) then .error .mismatched
      else
        let rest ← match Json.skipSpace rest with
          | ':' :: rest => .ok rest
          | _ => .error .malformed
        let (found, rest) ← match field with
          | some f => (f.reader rest).map fun (v, rest) => ((key, v) :: found, rest)
          | none => (orMalformed (skipValue (2 * rest.length + 2) rest)).map fun rest =>
            (found, rest)
        match Json.skipSpace rest with
        | '\x7d' :: rest => .ok (found, rest)
        | ',' :: rest => membersShape fields fuel found (Json.skipSpace rest)
        | _ => .error .malformed
    | _ => .error .malformed

/-- The members of a record in an array from the current field on. Fields with a default may be left
out at the end. -/
def positionsShape :
    List FieldShape → Bool → List Char → Except BodyFault (List (String × Json) × List Char)
  | [], _, s =>
    match Json.skipSpace s with
    | ']' :: rest => .ok ([], rest)
    | _ => .error .malformed
  | f :: fields, isFirst, s => do
    match Json.skipSpace s with
    | ']' :: rest =>
      if f.presence = .defaulted then positionsShape fields isFirst (']' :: rest)
        else .error .mismatched
    | s =>
      let s ← match isFirst, s with
        | true, s => .ok s
        | false, ',' :: rest =>
          match Json.skipSpace rest with
          | ']' :: _ => .error .malformed
          | rest => .ok rest
        | false, _ => .error .malformed
      let (v, rest) ← f.reader s
      let (members, rest) ← positionsShape fields false rest
      .ok ((f.name, v) :: members, rest)

/-- A record: an object with its members, or an array of its fields in order. -/
def recordShape (fields : List FieldShape) : ShapeReader := fun s =>
  match Json.skipSpace s with
  | '\x7b' :: rest => do
    let (found, rest) ← match Json.skipSpace rest with
      | '\x7d' :: rest => .ok ([], rest)
      | rest => membersShape fields (rest.length + 1) [] rest
    if fields.any fun f =>
      f.presence = .required && !found.any (·.1 = f.name) then .error .mismatched
    else .ok (.ofMembers found, rest)
  | '[' :: rest => (positionsShape fields true rest).map fun (members, rest) =>
    (.ofMembers members, rest)
  | s => .error (faultAt s)

end AuditPanel.Server
