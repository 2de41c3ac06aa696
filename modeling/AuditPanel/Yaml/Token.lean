import AuditPanel.Yaml.Scalar

/-!
Tokens of a YAML text. Indentation becomes the start and end of blocks, and what turns out to be a
key when its colon is met gets a mark in front.
-/

set_option autoImplicit false

namespace AuditPanel.Yaml

/-- A token. What a handle stands for and the suffix of a tag are bytes, which need not be text. -/
inductive Token where
  | versionDirective (major minor : Nat)
  | tagDirective (handle : String) (expansion : List UInt8)
  | documentStart
  | documentEnd
  | blockSequenceStart
  | blockMappingStart
  | blockEnd
  | flowSequenceStart
  | flowSequenceEnd
  | flowMappingStart
  | flowMappingEnd
  | blockEntry
  | flowEntry
  | key
  | value
  | alias (name : String)
  | anchor (name : String)
  | tag (handle : String) (suffix : List UInt8)
  | scalar (text : String) (isPlain : Bool)
  deriving Repr, DecidableEq, Inhabited

namespace Token

def opens : Token → Bool
  | blockSequenceStart => true
  | blockMappingStart => true
  | flowSequenceStart => true
  | flowMappingStart => true
  | _ => false

def closes : Token → Bool
  | blockEnd => true
  | flowSequenceEnd => true
  | flowMappingEnd => true
  | _ => false

/-- The number of open collections after a token, and the most of them so far. -/
def nest (levels : Nat × Nat) (t : Token) : Nat × Nat :=
  let level := if t.opens then levels.1 + 1 else if t.closes then levels.1 - 1 else levels.1
  (level, max levels.2 level)

def nesting (tokens : List Token) : Nat :=
  (tokens.foldl nest (0, 0)).2

end Token

/-- A token that may turn out to be the start of a key: how many tokens stand before it, where it
stands, and whether it has to be a key because it stands at the indentation of a block. -/
structure KeyCandidate where
  position : Nat
  place : Cursor
  isRequired : Bool
  deriving Repr, DecidableEq, Inhabited

/-- Where the scan of a text stands: the place, the columns of the open blocks, the candidates for a
key with the one of the innermost bracket first, whether a key may start here, and the reversed
tokens so far with their number. -/
structure ScanState where
  cursor : Cursor
  indents : List Nat
  candidates : List (Option KeyCandidate)
  mayStartKey : Bool
  tokens : List Token
  count : Nat
  isDone : Bool
  deriving Inhabited

namespace ScanState

def start (s : List Char) : ScanState :=
  ⟨.start s, [], [none], true, [], 0, false⟩

def inFlow (s : ScanState) : Bool :=
  !(s.candidates.drop 1).isEmpty

/-- The column of the innermost open block, or minus one without any. -/
def indent (s : ScanState) : Int :=
  match s.indents with
  | n :: _ => n
  | [] => -1

def push (s : ScanState) (t : Token) : ScanState :=
  { s with tokens := t :: s.tokens, count := s.count + 1 }

/-- One more token in front of those that follow the first `position`. -/
def insert (s : ScanState) (position : Nat) (t : Token) : ScanState :=
  let later := s.count - position
  { s with tokens := s.tokens.take later ++ t :: s.tokens.drop later, count := s.count + 1 }

/-- The end of blocks, one after the other, that are open to the right of a column. -/
def closeBlocksFrom (column : Int) : List Nat → ScanState → ScanState
  | [], s => { s with indents := [] }
  | n :: rest, s =>
    if column < n then closeBlocksFrom column rest (s.push .blockEnd)
      else { s with indents := n :: rest }

/-- The end of the blocks that are open to the right of a column, unless inside brackets. -/
def closeBlocks (s : ScanState) (column : Int) : ScanState :=
  if s.inFlow then s else closeBlocksFrom column s.indents s

/-- A block opened at a column, in front of the token at a position, if the column is to the right
of the open ones; never inside brackets. -/
def openBlock (s : ScanState) (column position : Nat) (t : Token) : ScanState :=
  if !s.inFlow && s.indent < column then { s.insert position t with indents := column :: s.indents }
    else s

/-- The state without the candidate of the innermost bracket, which must not be required. -/
def dropCandidate? (s : ScanState) : Option ScanState :=
  match s.candidates with
  | some k :: rest => if k.isRequired then none else some { s with candidates := none :: rest }
  | _ => some s

def saveCandidate? (s : ScanState) : Option ScanState :=
  if s.mayStartKey then
    let k : KeyCandidate := ⟨s.count, s.cursor, !s.inFlow && s.indent = s.cursor.column⟩
    (s.dropCandidate?).map fun s => { s with candidates := some k :: s.candidates.drop 1 }
  else some s

def keyLimit : Nat := 1024

def isFresh (k : KeyCandidate) (c : Cursor) : Bool :=
  k.place.line == c.line && c.index ≤ k.place.index + keyLimit

/-- The candidate of the innermost bracket if it can still be a key; refused if it is required and
cannot. -/
def freshCandidate? (s : ScanState) : Option (Option KeyCandidate) :=
  match s.candidates with
  | some k :: _ =>
    if isFresh k s.cursor then some (some k) else if k.isRequired then none else some none
  | _ => some none

/-- The state at the next token: blanks, comments, breaks and the byte order mark of a line passed
over. Tabs count as blanks only where no key may start. -/
def toToken : Nat → ScanState → ScanState
  | 0, s => s
  | fuel + 1, s =>
    let c := if s.cursor.column == 0 && s.cursor.rest.head? == some '\uFEFF' then s.cursor.advance 1
      else s.cursor
    let c := c.skipWhile fun d => d == ' ' || ((s.inFlow || !s.mayStartKey) && d == '\t')
    let c := if c.rest.head? == some '#' then c.toLineEnd else c
    if isLineEnd c.rest && !c.rest.isEmpty then
      toToken fuel { s with cursor := c.takeBreak.2, mayStartKey := s.mayStartKey || !s.inFlow }
    else { s with cursor := c }

/-- A version number of at most nine digits. -/
def versionNumber? (s : List Char) : Option (Nat × List Char) :=
  let digits := s.takeWhile Char.isDigit
  if digits.isEmpty || 9 < digits.length then none
  else some (Decimal.digitsValue digits, s.dropWhile Char.isDigit)

def isTagChar (inAddress : Bool) (c : Char) : Bool :=
  isNameChar c || ";/?:@&=+$.%!~*'()".toList.contains c ||
    (inAddress && (c == ',' || c == '[' || c == ']'))

/-- The number of bytes in the encoding of a character that starts with a byte, unless no character
does. -/
def sequenceLength? (first : UInt8) : Option Nat :=
  if first &&& 0x80 = 0 then some 1
  else if first &&& 0xE0 = 0xC0 then some 2
  else if first &&& 0xF0 = 0xE0 then some 3
  else if first &&& 0xF8 = 0xF0 then some 4
  else none

/-- The byte that a percent sign and two digits at the front of a text write. -/
def percentByte? : List Char → Option (UInt8 × List Char)
  | '%' :: a :: b :: rest => do
    some (UInt8.ofNat (16 * (← Json.hexValue? a) + (← Json.hexValue? b)), rest)
  | _ => none

/-- A number of bytes that continue a character, written with percent signs at the front of a text,
onto the reversed bytes so far. -/
def trailingBytes? : Nat → List UInt8 → List Char → Option (List UInt8 × List Char)
  | 0, bytes, s => some (bytes, s)
  | n + 1, bytes, s =>
    (percentByte? s).bind fun (b, rest) =>
      if b &&& 0xC0 = 0x80 then trailingBytes? n (b :: bytes) rest else none

/-- The bytes written with percent signs at the front of the address part of a tag, onto the
reversed bytes so far. They have the outer form of a character and need not be one. -/
def tagEscape? (bytes : List UInt8) (s : List Char) : Option (List UInt8 × List Char) := do
  let (first, rest) ← percentByte? s
  trailingBytes? ((← sequenceLength? first) - 1) (first :: bytes) rest

/-- The address part of a tag at the front of a text, onto the reversed bytes so far. -/
def tagAddress? (inAddress : Bool) : Nat → List UInt8 → List Char → Option (List UInt8 × List Char)
  | 0, _, _ => none
  | fuel + 1, out, s =>
    match s with
    | [] => some (out.reverse, [])
    | c :: rest =>
      if !isTagChar inAddress c then some (out.reverse, c :: rest)
      else if c == '%' then (tagEscape? out (c :: rest)).bind fun (out, rest) =>
        tagAddress? inAddress fuel out rest
      else tagAddress? inAddress fuel (UInt8.ofNat c.toNat :: out) rest

/-- What counts of the bytes of a tag: a zero byte ends it. -/
def tagPart (bytes : List UInt8) : List UInt8 :=
  bytes.takeWhile (· != 0)

/-- The handle at the front of a tag: an exclamation mark, or a name between two of them, or an open
name. -/
def tagHandle? : List Char → Option (List Char × List Char)
  | '!' :: rest =>
    let name := rest.takeWhile isNameChar
    match rest.dropWhile isNameChar with
    | '!' :: rest => some ('!' :: name ++ ['!'], rest)
    | rest => some ('!' :: name, rest)
  | _ => none

/-- A directive after its percent sign: its token and the text behind it. -/
def directive? (s : List Char) : Option (Token × List Char) := do
  let name := s.takeWhile isNameChar
  let rest := s.dropWhile isNameChar
  if name.isEmpty || !isGap rest then none
  else
    let rest := rest.dropWhile isBlank
    match String.ofList name with
    | "YAML" =>
      let (major, rest) ← versionNumber? rest
      match rest with
      | '.' :: rest => (versionNumber? rest).map fun (minor, rest) =>
        (.versionDirective major minor, rest)
      | _ => none
    | "TAG" =>
      let (handle, rest) ← tagHandle? rest
      if (handle.getLast? != some '!') || !(rest.head?.map isBlank).getD false then none
      else
        let (address, rest) ← tagAddress? true (rest.length + 1) [] (rest.dropWhile isBlank)
        if address.isEmpty || !isGap rest then none
        else some (.tagDirective (String.ofList handle) (tagPart address), rest)
    | _ => none

/-- The tag at the front of a text: its token and the text behind it. -/
def tagToken? (s : List Char) : Option (Token × List Char) :=
  match s with
  | '!' :: '<' :: rest => do
    let (address, rest) ← tagAddress? true (rest.length + 1) [] rest
    match rest with
    | '>' :: rest => if address.isEmpty then none else some (.tag "" (tagPart address), rest)
    | _ => none
  | _ => do
    let (handle, rest) ← tagHandle? s
    if 1 < handle.length && handle.getLast? == some '!' then
      let (address, rest) ← tagAddress? false (rest.length + 1) [] rest
      if address.isEmpty then none else some (.tag (String.ofList handle) (tagPart address), rest)
    else
      let start := (handle.drop 1).map fun c => UInt8.ofNat c.toNat
      let (address, rest) ← tagAddress? false (rest.length + 1) start.reverse rest
      let suffix := tagPart address
      if suffix.isEmpty then some (.tag "" "!".toUTF8.data.toList, rest)
        else some (.tag "!" suffix, rest)

def anchorName? (s : List Char) : Option String :=
  let name := s.takeWhile isNameChar
  let rest := s.dropWhile isNameChar
  let ends := match rest with
    | [] => true
    | c :: _ => isGap rest || "?:,]\x7d%@`".toList.contains c
  if name.isEmpty || !ends then none else some (String.ofList name)

/-- The state with a token whose text ends where `rest` starts. -/
def pushTo (s : ScanState) (t : Token) (rest : List Char) : ScanState :=
  ({ s with cursor := s.cursor.advance (s.cursor.left - rest.length) } : ScanState).push t

def finish? (s : ScanState) : Option ScanState :=
  (s.closeBlocks (-1)).dropCandidate?.map fun s => { s with mayStartKey := false, isDone := true }

def directiveAt? (s : ScanState) : Option ScanState := do
  let s ← (s.closeBlocks (-1)).dropCandidate?
  let (t, rest) ← directive? (s.cursor.rest.drop 1)
  let s := ({ s with mayStartKey := false } : ScanState).pushTo t rest
  let c := s.cursor.skipWhile isBlank
  let c := if c.rest.head? == some '#' then c.toLineEnd else c
  if isLineEnd c.rest then some { s with cursor := c.takeBreak.2 } else none

def documentMark? (s : ScanState) (t : Token) : Option ScanState := do
  let s ← (s.closeBlocks (-1)).dropCandidate?
  some (({ s with mayStartKey := false, cursor := s.cursor.advance 3 } : ScanState).push t)

def openBracket? (s : ScanState) (t : Token) : Option ScanState := do
  let s ← s.saveCandidate?
  some
    (({ s with
        candidates := none :: s.candidates
        mayStartKey := true
        cursor := s.cursor.advance 1 } : ScanState).push t)

def closeBracket? (s : ScanState) (t : Token) : Option ScanState := do
  let s ← s.dropCandidate?
  let candidates := if s.inFlow then s.candidates.drop 1 else s.candidates
  some
    (({ s with candidates := candidates, mayStartKey := false, cursor := s.cursor.advance 1 } :
      ScanState).push t)

def comma? (s : ScanState) : Option ScanState := do
  let s ← s.dropCandidate?
  some (({ s with mayStartKey := true, cursor := s.cursor.advance 1 } : ScanState).push .flowEntry)

def itemMark? (s : ScanState) : Option ScanState := do
  if !s.inFlow && !s.mayStartKey then none
  else
    let s ← (s.openBlock s.cursor.column s.count .blockSequenceStart).dropCandidate?
    some
      (({ s with mayStartKey := true, cursor := s.cursor.advance 1 } : ScanState).push .blockEntry)

def keyMark? (s : ScanState) : Option ScanState := do
  if !s.inFlow && !s.mayStartKey then none
  else
    let s ← (s.openBlock s.cursor.column s.count .blockMappingStart).dropCandidate?
    some (({ s with mayStartKey := !s.inFlow, cursor := s.cursor.advance 1 } : ScanState).push .key)

/-- The state after the mark of a value. If there is a candidate it is the key. -/
def valueMark? (s : ScanState) : Option ScanState := do
  match ← s.freshCandidate? with
  | some k =>
    let s := (s.insert k.position .key).openBlock k.place.column k.position .blockMappingStart
    some (({ s with
      candidates := none :: s.candidates.drop 1
      mayStartKey := false
      cursor := s.cursor.advance 1 } : ScanState).push .value)
  | none =>
    if !s.inFlow && !s.mayStartKey then none
    else
      let s := s.openBlock s.cursor.column s.count .blockMappingStart
      some
        (({ s with mayStartKey := !s.inFlow, cursor := s.cursor.advance 1 } : ScanState).push
          .value)

def named? (s : ScanState) (token : String → Token) : Option ScanState := do
  let s ← s.saveCandidate?
  let name ← anchorName? (s.cursor.rest.drop 1)
  some
    (({ s with mayStartKey := false, cursor := s.cursor.advance (name.length + 1) } :
      ScanState).push (token name))

/-- The state after a tag, behind which a gap or, inside brackets, a comma has to stand. -/
def tag? (s : ScanState) : Option ScanState := do
  let s ← s.saveCandidate?
  let (t, rest) ← tagToken? s.cursor.rest
  if isGap rest || (s.inFlow && rest.head? == some ',') then
    some (({ s with mayStartKey := false } : ScanState).pushTo t rest)
  else none

def inlineScalar? (s : ScanState) (isPlain : Bool) (read : Cursor → Option ScannedScalar) :
    Option ScanState := do
  let s ← s.saveCandidate?
  let r ← read s.cursor
  some
    (({ s with mayStartKey := r.isLineBehind, cursor := r.cursor } : ScanState).push
      (.scalar (String.ofList r.text) isPlain))

def blockScalar? (s : ScanState) (isLiteral : Bool) : Option ScanState := do
  let s ← s.dropCandidate?
  let r ← block? isLiteral s.indent s.cursor
  some
    (({ s with mayStartKey := true, cursor := r.cursor } : ScanState).push
      (.scalar (String.ofList r.text) false))

def startsPlain (inFlow : Bool) (s : List Char) : Bool :=
  match s with
  | [] => false
  | c :: rest =>
    if c == '-' then !(rest.head?.map isBlank).getD false
    else if c == '?' || c == ':' then !inFlow && !isGap rest
    else !isBlank c && !isBreak c && !",[]\x7b\x7d#&*!|>'\"%@`".toList.contains c

def tokenAt? (s : ScanState) : Option ScanState :=
  let c := s.cursor
  let flow := s.inFlow
  match c.rest with
  | [] => finish? s
  | d :: rest =>
    if c.column == 0 && d == '%' then directiveAt? s
    else if c.isAtMarker '-' then documentMark? s .documentStart
    else if c.isAtMarker '.' then documentMark? s .documentEnd
    else if d == '[' then openBracket? s .flowSequenceStart
    else if d == '\x7b' then openBracket? s .flowMappingStart
    else if d == ']' then closeBracket? s .flowSequenceEnd
    else if d == '\x7d' then closeBracket? s .flowMappingEnd
    else if d == ',' then comma? s
    else if d == '-' && isGap rest then itemMark? s
    else if d == '?' && (flow || isGap rest) then keyMark? s
    else if d == ':' && (flow || isGap rest) then valueMark? s
    else if d == '*' then named? s .alias
    else if d == '&' then named? s .anchor
    else if d == '!' then tag? s
    else if d == '|' && !flow then blockScalar? s true
    else if d == '>' && !flow then blockScalar? s false
    else if d == '\'' || d == '"' then inlineScalar? s false (quoted? d)
    else if startsPlain flow c.rest then inlineScalar? s true (plain? flow (s.indent + 1))
    else none

/-- The state after one more token, with the blocks closed that end in front of it. -/
def next? (s : ScanState) : Option ScanState :=
  let s := toToken (s.cursor.left + 1) s
  tokenAt? (s.closeBlocks s.cursor.column)

def run? : Nat → ScanState → Option (List Token)
  | 0, _ => none
  | fuel + 1, s =>
    if s.isDone then some s.tokens.reverse
    else
      match s.next? with
      | none => none
      | some s => run? fuel s

end ScanState

/-- The tokens of a text; none if it cannot be cut into tokens. -/
def Token.ofText? (s : List Char) : Option (List Token) :=
  if s.all isPrintable then (ScanState.start s).run? (s.length + 2) else none

end AuditPanel.Yaml
