import AuditPanel.Json.Reader
import AuditPanel.Yaml.Cursor

/-!
Scalars of a YAML text: plain ones, quoted ones and blocks. Where a scalar runs over lines, a single
break becomes a blank and further ones stay.
-/

set_option autoImplicit false

namespace AuditPanel.Yaml

/-- Blanks and breaks between two words: the blanks of a line, reversed, or the first break and the
reversed ones after it. A broken gap hides its blanks. -/
structure Gap where
  blanks : List Char
  isBroken : Bool
  first : List Char
  more : List Char
  deriving Repr, DecidableEq, Inhabited

namespace Gap

def empty : Gap :=
  ⟨[], false, [], []⟩

/-- A gap after a break that does not count. -/
def escaped : Gap :=
  ⟨[], true, [], []⟩

def text (g : Gap) : List Char :=
  if g.isBroken then
    if g.first = ['\n'] then (if g.more.isEmpty then [' '] else g.more.reverse) else g.first ++
      g.more.reverse
  else g.blanks.reverse

def addBreak (g : Gap) (b : List Char) : Gap :=
  if g.isBroken then { g with more := b ++ g.more } else ⟨[], true, b, g.more⟩

def addBlank (g : Gap) (c : Char) : Gap :=
  if g.isBroken then g else { g with blanks := c :: g.blanks }

/-- The gap at a place. After a break no tab may stand before the column `indent`. -/
def scan? (indent : Int) : Nat → Gap → Cursor → Option (Gap × Cursor)
  | 0, _, _ => none
  | fuel + 1, g, c =>
    match c.rest with
    | [] => some (g, c)
    | d :: _ =>
      if isBlank d then
        if g.isBroken && (c.column : Int) < indent && d == '\t' then none
        else scan? indent fuel (g.addBlank d) (c.advance 1)
      else if isBreak d then
        let (b, c) := c.takeBreak
        scan? indent fuel (g.addBreak b) c
      else some (g, c)

end Gap

def isFlowIndicator (c : Char) : Bool :=
  c == ',' || c == '[' || c == ']' || c == '\x7b' || c == '\x7d'

def endsPlain (inFlow : Bool) (s : List Char) : Bool :=
  match s with
  | [] => true
  | c :: rest => (c == ':' && isGap rest) || (inFlow && isFlowIndicator c)

/-- Whether a colon stands in front of an indicator, which is refused inside brackets. -/
def isBadColon (inFlow : Bool) (s : List Char) : Bool :=
  match s with
  | ':' :: c :: _ => inFlow && (isFlowIndicator c || c == '?')
  | _ => false

/-- The rest of a word of a plain scalar: its characters, and those behind it. -/
def plainWord? (inFlow : Bool) : List Char → List Char → Option (List Char × List Char)
  | out, [] => some (out.reverse, [])
  | out, c :: rest =>
    if isBlank c || isBreak c then some (out.reverse, c :: rest)
    else if isBadColon inFlow (c :: rest) then none
    else if endsPlain inFlow (c :: rest) then some (out.reverse, c :: rest)
    else plainWord? inFlow (c :: out) rest

/-- A scalar that was read: its text, the place behind it and whether a line ended behind it. -/
structure ScannedScalar where
  text : List Char
  cursor : Cursor
  isLineBehind : Bool
  deriving Repr, DecidableEq, Inhabited

/-- A plain scalar from a word on, after a gap, with the reversed text so far. Outside brackets,
what continues it stands at the column `indent` or further right. -/
def plainFrom? (inFlow : Bool) (indent : Int) :
    Nat → List Char → Gap → Cursor → Option ScannedScalar
  | 0, _, _, _ => none
  | fuel + 1, out, g, c =>
    if c.isAtDocumentMarker || c.rest.head? == some '#' then some ⟨out.reverse, c, g.isBroken⟩
    else
      match plainWord? inFlow [] c.rest with
      | none => none
      | some (word, _) =>
        let (out, g) :=
          if word.isEmpty then (out, g) else (word.reverse ++ g.text.reverse ++ out, .empty)
        let c := c.advance word.length
        if c.rest.isEmpty || !isGap c.rest then some ⟨out.reverse, c, g.isBroken⟩
        else
          match Gap.scan? indent (c.left + 1) g c with
          | none => none
          | some (g, c) =>
            if !inFlow && (c.column : Int) < indent then some ⟨out.reverse, c, g.isBroken⟩
            else plainFrom? inFlow indent fuel out g c

def plain? (inFlow : Bool) (indent : Int) (c : Cursor) : Option ScannedScalar :=
  plainFrom? inFlow indent (c.left + 1) [] .empty c

def escapedChar? : Char → Option Char
  | '0' => some '\x00'
  | 'a' => some '\x07'
  | 'b' => some '\x08'
  | 't' => some '\t'
  | '\t' => some '\t'
  | 'n' => some '\n'
  | 'v' => some '\x0b'
  | 'f' => some '\x0c'
  | 'r' => some '\r'
  | 'e' => some '\x1b'
  | ' ' => some ' '
  | '"' => some '"'
  | '/' => some '/'
  | '\\' => some '\\'
  | 'N' => some '\u0085'
  | '_' => some '\u00a0'
  | 'L' => some '\u2028'
  | 'P' => some '\u2029'
  | _ => none

/-- The number of hexadecimal digits after the letter of an escape. -/
def escapeDigits? : Char → Option Nat
  | 'x' => some 2
  | 'u' => some 4
  | 'U' => some 8
  | _ => none

def codeChar? (digits : List Char) : Option Char := do
  let values ← digits.mapM Json.hexValue?
  let n := values.foldl (fun n v => 16 * n + v) 0
  if (0xD800 ≤ n && n ≤ 0xDFFF) || 0x10FFFF < n then none else some (Char.ofNat n)

/-- The character of an escape after its backslash, and the length of the escape without the
backslash. -/
def escape? (s : List Char) : Option (Char × Nat) :=
  match s with
  | [] => none
  | c :: rest =>
    match escapeDigits? c with
    | some n =>
      let digits := rest.take n
      if digits.length < n then none else (codeChar? digits).map fun d => (d, n + 1)
    | none => (escapedChar? c).map fun d => (d, 1)

/-- How a word of a quoted scalar ends: at a blank, a break or the closing quote, or at a break that
a backslash hides. -/
inductive QuotedStop where
  | open
  | hiddenBreak
  deriving Repr, DecidableEq

/-- The rest of a word of a quoted scalar, with the reversed text so far. -/
def quotedWord? (quote : Char) : Nat → List Char → Cursor → Option (List Char × Cursor × QuotedStop)
  | 0, _, _ => none
  | fuel + 1, out, c =>
    match c.rest with
    | [] => some (out, c, .open)
    | d :: rest =>
      if isBlank d || isBreak d then some (out, c, .open)
      else if d == quote then
        if quote == '\'' && rest.head? == some '\'' then quotedWord? quote fuel ('\'' :: out)
          (c.advance 2)
        else some (out, c, .open)
      else if quote == '"' && d == '\\' then
        if !rest.isEmpty && isLineEnd rest then some (out, (c.advance 1).takeBreak.2, .hiddenBreak)
        else
          match escape? rest with
          | none => none
          | some (e, n) => quotedWord? quote fuel (e :: out) (c.advance (n + 1))
      else quotedWord? quote fuel (d :: out) (c.advance 1)

/-- A quoted scalar after its opening quote, with the reversed text so far. -/
def quotedFrom? (quote : Char) : Nat → List Char → Cursor → Option ScannedScalar
  | 0, _, _ => none
  | fuel + 1, out, c =>
    if c.isAtDocumentMarker || c.rest.isEmpty then none
    else
      match quotedWord? quote (c.left + 1) out c with
      | none => none
      | some (out, c, stop) =>
        if stop == .open && c.rest.head? == some quote then some ⟨out.reverse, c.advance 1, false⟩
        else
          let g := if stop == .hiddenBreak then Gap.escaped else Gap.empty
          match Gap.scan? 0 (c.left + 1) g c with
          | none => none
          | some (g, c) => quotedFrom? quote fuel (g.text.reverse ++ out) c

def quoted? (quote : Char) (c : Cursor) : Option ScannedScalar :=
  quotedFrom? quote (c.left + 1) [] (c.advance 1)

/-- What becomes of the breaks at the end of a block: none stays, the first one stays, or all do. -/
inductive Chomping where
  | strip
  | clip
  | keep
  deriving Repr, DecidableEq

def chompingOf? : Char → Option Chomping
  | '-' => some .strip
  | '+' => some .keep
  | _ => none

/-- The header of a block: chomping and, where one is given, the indentation relative to the parent,
with the length of the header. Zero is no indentation. -/
def blockHeader? (s : List Char) : Option (Chomping × Option Nat × Nat) :=
  let digit? (c : Char) : Option Nat := if c.isDigit then some (c.toNat - '0'.toNat) else none
  let checked (chomping : Chomping) (n : Nat) (length : Nat) :
      Option (Chomping × Option Nat × Nat) :=
    if n = 0 then none else some (chomping, some n, length)
  match s with
  | [] => some (.clip, none, 0)
  | a :: rest =>
    match chompingOf? a, digit? a with
    | some chomping, _ =>
      match rest.head?.bind digit? with
      | some n => checked chomping n 2
      | none => some (chomping, none, 1)
    | none, some n =>
      match rest.head?.bind chompingOf? with
      | some chomping => checked chomping n 2
      | none => checked .clip n 1
    | none, none => some (.clip, none, 0)

/-- The breaks before the next line of a block that is not empty, reversed onto those so far, the
place there, and the deepest column of the lines passed over. Unless the indentation is known, all
leading blanks are passed over. -/
def blockBreaks? (indent : Option Nat) :
    Nat → Nat → List Char → Cursor → Option (List Char × Nat × Cursor)
  | 0, _, _, _ => none
  | fuel + 1, deepest, breaks, c =>
    let blanks := (c.rest.takeWhile (· == ' ')).length
    let c := c.advance (match indent with
      | some n => min blanks (n - c.column)
      | none => blanks)
    let deepest := max deepest c.column
    let isInside : Bool := match indent with
      | some n => c.column < n
      | none => true
    match c.rest with
    | '\t' :: _ => if isInside then none else some (breaks, deepest, c)
    | d :: _ =>
      if isBreak d then
        let (b, c) := c.takeBreak
        blockBreaks? indent fuel deepest (b ++ breaks) c
      else some (breaks, deepest, c)
    | [] => some (breaks, deepest, c)

/-- The lines of a block from the current one on: the reversed text so far, the break before the
line, the reversed breaks after that one, and whether the line before starts with a blank. The
answer leaves the last two open. -/
def blockLines? (isLiteral : Bool) (indent : Nat) :
    Nat → List Char → List Char → List Char → Bool → Cursor →
    Option (List Char × List Char × List Char × Cursor)
  | 0, _, _, _, _, _ => none
  | fuel + 1, out, first, more, wasBlank, c =>
    if c.column ≠ indent || c.rest.isEmpty then some (out, first, more, c)
    else
      let startsBlank := (c.rest.head?.map isBlank).getD false
      let joined :=
        if !isLiteral && first = ['\n'] && !wasBlank && !startsBlank then
          if more.isEmpty then ' ' :: out else out
        else first.reverse ++ out
      let line := c.rest.takeWhile fun d => !isBreak d
      let (b, c) := c.toLineEnd.takeBreak
      match blockBreaks? (some indent) (c.left + 1) 0 [] c with
      | none => none
      | some (breaks, _, c) =>
        blockLines? isLiteral indent fuel (line.reverse ++ (more ++ joined)) b breaks startsBlank c

/-- The block at a place where its indicator stands, under a parent at the column `parent`. -/
def block? (isLiteral : Bool) (parent : Int) (c : Cursor) : Option ScannedScalar := do
  let (chomping, increment, length) ← blockHeader? (c.rest.drop 1)
  let c := (c.advance (length + 1)).skipWhile isBlank
  let c := if c.rest.head? == some '#' then c.toLineEnd else c
  if !isLineEnd c.rest then none
  else
    let c := c.takeBreak.2
    let given := increment.map fun n => if 0 ≤ parent then parent.toNat + n else n
    let (breaks, deepest, c) ← blockBreaks? given (c.left + 1) 0 [] c
    let indent := given.getD (max deepest (max (parent + 1).toNat 1))
    let (out, first, more, c) ← blockLines? isLiteral indent (c.left + 1) [] [] breaks false c
    let out := if chomping == .strip then out else first.reverse ++ out
    let out := if chomping == .keep then more ++ out else out
    some ⟨out.reverse, c, true⟩

end AuditPanel.Yaml
