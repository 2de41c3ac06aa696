import AuditPanel.Decimal.Layout
import AuditPanel.Json.Value

/-!
JSON text of a value: compact, or with one member a line and two blanks of indentation a level.
Doubles are written with their shortest digits, and those that are no number or infinite as null.
-/

set_option autoImplicit false

namespace AuditPanel.Json

def hexDigit (n : Nat) : Char :=
  if n < 10 then Char.ofNat ('0'.toNat + n) else Char.ofNat ('a'.toNat + (n - 10))

def escapeChar (c : Char) : List Char :=
  if c = '"' then ['\\', '"']
  else if c = '\\' then ['\\', '\\']
  else if c = '\x08' then ['\\', 'b']
  else if c = '\x0c' then ['\\', 'f']
  else if c = '\n' then ['\\', 'n']
  else if c = '\r' then ['\\', 'r']
  else if c = '\t' then ['\\', 't']
  else if c.toNat < 0x20 then
    ['\\', 'u', '0', '0', hexDigit (c.toNat / 16), hexDigit (c.toNat % 16)]
  else [c]

def quoted (s : String) : List Char :=
  '"' :: s.toList.flatMap escapeChar ++ ['"']

def realText (x : Float) : List Char :=
  if x.isNaN || x.isInf then "null".toList else (Decimal.recordLayout.render x).toList

/-- A text onto a reversed text. -/
def onto (out : List Char) (text : List Char) : List Char :=
  text.reverseAux out

mutual

/-- The compact text of a value, reversed onto the reversed text so far. -/
def writeOnto (out : List Char) : Json → List Char
  | .null => onto out "null".toList
  | .bool b => onto out (if b then "true" else "false").toList
  | .integer n => onto out (toString n).toList
  | .real x => onto out (realText x)
  | .string s => onto out (quoted s)
  | .array items => ']' :: writeItems true ('[' :: out) items
  | .object members => '\x7d' :: writeMembers true ('\x7b' :: out) members

def writeItems (first : Bool) (out : List Char) : List Json → List Char
  | [] => out
  | v :: rest => writeItems false (writeOnto (if first then out else ',' :: out) v) rest

/-- The members of an object, with a comma before each but the first. -/
def writeMembers (first : Bool) (out : List Char) : List (String × Json) → List Char
  | [] => out
  | (key, v) :: rest =>
    writeMembers false (writeOnto (':' :: onto (if first then out else ',' :: out) (quoted key)) v)
      rest

end

def compact (v : Json) : String :=
  String.ofList (writeOnto [] v).reverse

/-- A line end and the indentation of a level, reversed onto the reversed text so far. -/
def newLineOnto (out : List Char) (level : Nat) : List Char :=
  List.replicate (2 * level) ' ' ++ '\n' :: out

mutual

/-- The text of a value over several lines, reversed onto the reversed text so far. -/
def layOutOnto (level : Nat) (out : List Char) : Json → List Char
  | .array [] => ']' :: '[' :: out
  | .array (v :: rest) => ']' :: newLineOnto (layOutItems level true ('[' :: out) (v :: rest)) level
  | .object [] => '\x7d' :: '\x7b' :: out
  | .object (m :: rest) =>
    '\x7d' :: newLineOnto (layOutMembers level true ('\x7b' :: out) (m :: rest)) level
  | v => writeOnto out v

def layOutItems (level : Nat) (first : Bool) (out : List Char) : List Json → List Char
  | [] => out
  | v :: rest =>
    let line := newLineOnto (if first then out else ',' :: out) (level + 1)
    layOutItems level false (layOutOnto (level + 1) line v) rest

def layOutMembers (level : Nat) (first : Bool) (out : List Char) : List (String × Json) → List Char
  | [] => out
  | (key, v) :: rest =>
    let line := newLineOnto (if first then out else ',' :: out) (level + 1)
    layOutMembers level false (layOutOnto (level + 1) (' ' :: ':' :: onto line (quoted key)) v) rest

end

def indented (v : Json) : String :=
  String.ofList (layOutOnto 0 [] v).reverse

end AuditPanel.Json
