import AuditPanel.Source.Braces
import AuditPanel.Source.Declaration

/-!
Declarations read line by line from a comment-blanked source.

A line is tried as a contract header, a function header, a special function, a modifier, an event,
an import and, in the body of a contract itself, a state variable; the first form that fits decides.
A running brace depth tells which contract a line belongs to.
-/

set_option autoImplicit false

namespace AuditPanel.Source

open AuditPanel.Text

/-- First words that rule a line out as a state variable. -/
def nonVariableWords : List String :=
  ["function", "modifier", "event", "struct", "enum", "using", "error", "constructor", "fallback",
    "receive", "return", "emit", "import", "pragma", "contract", "interface", "library", "abstract",
    "type", "delete", "require", "revert", "assert"]

/-- Words of a parameter that are neither its type nor its name. -/
def storageWords : List String :=
  ["memory", "storage", "calldata", "indexed"]

/-- Words that may stand between the type and the name of a state variable. -/
def variableFlags : List String :=
  ["public", "private", "internal", "constant", "immutable", "override", "payable", "transient"]

def contractWords : List (String × ContractKind) :=
  [("contract", .contract), ("interface", .interface), ("library", .library)]

/-- The pieces of a text between separators outside parentheses, after a depth, the reversed
beginning of a piece and the reversed pieces so far. Only a last piece that is blank is dropped. -/
def splitTopLevelFrom (sep : Char) :
    Int → List Char → List (List Char) → List Char → List (List Char)
  | _, piece, out, [] =>
    let last := trim piece.reverse
    (if last.isEmpty then out else last :: out).reverse
  | depth, piece, out, c :: rest =>
    let depth := if c = '(' then depth + 1 else if c = ')' then depth - 1 else depth
    if c = sep ∧ depth = 0 then splitTopLevelFrom sep depth [] (trim piece.reverse :: out) rest
    else splitTopLevelFrom sep depth (c :: piece) out rest

/-- The trimmed pieces of a text between separators outside parentheses. -/
def splitTopLevel (sep : Char) (s : List Char) : List (List Char) :=
  splitTopLevelFrom sep 0 [] [] s

/-- A parameter by its words: the first that is no storage word is the type, the last of the others
the name. -/
def parameter? (s : List Char) : Option Parameter :=
  match (words s).map String.ofList |>.filter (!storageWords.contains ·) with
  | [] => none
  | typeName :: rest => some ⟨typeName, rest.getLast?⟩

def parameters (s : List Char) : List Parameter :=
  (splitTopLevel ',' s).filterMap parameter?

/-- A text split at the parenthesis that closes the one open at `depth`, after the reversed text so
far. -/
def closingParenFrom : Nat → List Char → List Char → Option (List Char × List Char)
  | _, _, [] => none
  | depth, inside, c :: rest =>
    if c = ')' then
      match depth with
      | 0 => some (inside.reverse, rest)
      | depth + 1 => closingParenFrom depth (c :: inside) rest
    else closingParenFrom (if c = '(' then depth + 1 else depth) (c :: inside) rest

/-- The parameter list of a header and the text after it. An unclosed list takes the whole rest. -/
def headerParts (header : List Char) : List Char × List Char :=
  match splitAtChar? '(' header with
  | none => ([], header)
  | some (_, rest) =>
    match closingParenFrom 0 [] rest with
    | some parts => parts
    | none => (rest, [])

/-- The text after an argument list without nesting, if one follows. -/
def skipArguments (s : List Char) : List Char :=
  match trimStart s with
  | '(' :: rest =>
    match rest.dropWhile (· != ')') with
    | _ :: rest => rest
    | [] => s
  | _ => s

/-- The attribute words of a text with at most `fuel` characters: every identifier outside one level
of argument lists that follow an identifier. -/
def attributeWords : Nat → List Char → List String
  | 0, _ => []
  | fuel + 1, s =>
    match identifier? (s.dropWhile (!isNameStart ·)) with
    | none => []
    | some (word, rest) => String.ofList word :: attributeWords fuel (skipArguments rest)

/-- What the attributes of a header say so far. -/
structure Attributes where
  visibility : Option Visibility
  mutability : Mutability
  modifiers : List String
  deriving Repr, DecidableEq

def Attributes.add (a : Attributes) (word : String) : Attributes :=
  match word with
  | "public" => { a with visibility := some .publicly }
  | "external" => { a with visibility := some .externally }
  | "internal" => { a with visibility := some .internally }
  | "private" => { a with visibility := some .privately }
  | "payable" => { a with mutability := .payable }
  | "view" => { a with mutability := .view }
  | "constant" => { a with mutability := .view }
  | "pure" => { a with mutability := .pure }
  | "virtual" => a
  | "override" => a
  | other => { a with modifiers := a.modifiers ++ [other] }

/-- The attributes that the text after a parameter list gives, up to its return list. -/
def attributesOf (s : List Char) : Attributes :=
  let text := before "returns" s
  (attributeWords text.length text).foldl Attributes.add ⟨none, .nonpayable, []⟩

def functionOf (header : List Char) (name : String) (kind : FunctionKind) (contract : Option String)
    (line : Nat) :
    FunctionDecl :=
  let (params, rest) := headerParts header
  let attributes := attributesOf rest
  let usual := match kind with
    | .fallback => .externally
    | .receive => .externally
    | .function => .publicly
    | .constructor => .publicly
  { name := name
    kind := kind
    contract := contract
    visibility := attributes.visibility.getD usual
    mutability := if kind = .receive then .payable else attributes.mutability
    parameters := parameters params
    modifiers := attributes.modifiers
    line := line }

def headerLines : Nat := 20

/-- The text of a header from its first line up to its brace or semicolon, with a blank for each
line end. -/
def headerText : List (List Char) → List Char
  | [] => []
  | line :: rest =>
    if line.any (fun c => c == '\x7b' || c == ';') then line.takeWhile
      (fun c => c != '\x7b' && c != ';')
    else line ++ ' ' :: headerText rest

/-- The first of the words that a text starts with, as an answer, and the text after it. -/
def wordOf? {α : Type} : List (String × α) → List Char → Option (α × List Char)
  | [], _ => none
  | (word, a) :: rest, s =>
    match after? word s with
    | some tail => some (a, tail)
    | none => wordOf? rest s

/-- A contract word, blanks and an identifier, with the text after them. -/
def contractHead? (s : List Char) : Option (ContractKind × List Char × List Char) := do
  let (kind, rest) ← wordOf? contractWords s
  let rest ← afterBlanks? rest
  let (name, rest) ← identifier? rest
  some (kind, name, rest)

/-- The bases of an inheritance list: each piece up to its first parenthesis or blank. -/
def basesOf (s : List Char) : List String :=
  (splitTopLevel ',' s).filterMap fun piece =>
    ((runsBetween (fun c => c == '(' || c == ' ') piece).head?).map String.ofList

def inheritance (s : List Char) : List String :=
  let list := do
    let rest ← afterBlanks? s
    let rest ← after? "is" rest
    let rest ← afterBlanks? rest
    some (rest.takeWhile (· != '\x7b'))
  match list with
  | none => []
  | some text => basesOf text

/-- A contract header: an optional word `abstract`, a contract word, a name and an optional
inheritance list. -/
def contractLine? (s : List Char) (line : Nat) : Option ContractDecl :=
  let s := trimStart s
  let (isAbstract, rest) := match (after? "abstract" s).bind afterBlanks? with
    | some rest => (true, rest)
    | none => (false, s)
  (contractHead? rest).map fun (kind, name, rest) =>
    ⟨kind, String.ofList name, isAbstract, inheritance rest, line⟩

/-- The name in a function header, if it has one, where an opening parenthesis follows. -/
def functionLine? (s : List Char) : Option (Option String) := do
  let rest ← after? "function" (trimStart s)
  let rest := trimStart rest
  match identifier? rest with
  | some (name, rest) =>
    let _ ← after? "(" (trimStart rest)
    some (some (String.ofList name))
  | none =>
    let _ ← after? "(" rest
    some none

def specialLine? (s : List Char) : Option FunctionKind := do
  let (kind, rest) ← wordOf? [("constructor", .constructor), ("fallback", .fallback),
    ("receive", .receive)] (trimStart s)
  let _ ← after? "(" (trimStart rest)
  some kind

def untilParen? (s : List Char) : Option (List Char) :=
  (splitAtChar? ')' s).map (·.1)

/-- A modifier and its parameters; an unclosed parameter list counts as none. -/
def modifierLine? (s : List Char) (contract : Option String) (line : Nat) :
    Option ModifierDecl := do
  let rest ← after? "modifier" (trimStart s)
  let rest ← afterBlanks? rest
  let (name, rest) ← identifier? rest
  let list := (after? "(" (trimStart rest)).bind untilParen?
  some ⟨String.ofList name, contract, parameters (list.getD []), line⟩

def eventLine? (s : List Char) (line : Nat) : Option EventDecl := do
  let rest ← after? "event" (trimStart s)
  let rest ← afterBlanks? rest
  let (name, rest) ← identifier? rest
  let rest ← after? "(" (trimStart rest)
  let list ← untilParen? rest
  some ⟨String.ofList name, parameters list, line⟩

/-- The first non-empty text between two quotes of any kind before which no semicolon stands. -/
def quotedPath? : List Char → Option (List Char)
  | [] => none
  | c :: rest =>
    let here := if isQuote c then
        let path := rest.takeWhile (!isQuote ·)
        if path.isEmpty || path.length == rest.length then none else some path
      else none
    match here with
    | some path => some path
    | none => if c = ';' then none else quotedPath? rest

def importLine? (s : List Char) (line : Nat) : Option ImportDecl := do
  let rest ← after? "import" (trimStart s)
  let rest ← afterBlanks? rest
  let path ← quotedPath? rest
  some ⟨String.ofList path, line⟩

/-- Array brackets after a type, at most `fuel` of them, onto the reversed type so far. -/
def arraySuffix : Nat → List Char → List Char → List Char × List Char
  | 0, out, s => (out, s)
  | fuel + 1, out, s =>
    let blanks := s.takeWhile isBlank
    match s.dropWhile isBlank with
    | '[' :: rest =>
      match splitAtChar? ']' rest with
      | some (inside, rest) =>
        arraySuffix fuel (']' :: inside.reverse ++ '[' :: blanks.reverse ++ out) rest
      | none => (out, s)
    | _ => (out, s)

/-- A type by its name, with dots and array brackets, and the text after it. -/
def plainType? : List Char → Option (List Char × List Char)
  | [] => none
  | c :: rest =>
    if isNameStart c then
      let inName := fun c => isWordChar c || c == '.'
      let (out, rest) :=
        arraySuffix rest.length (c :: rest.takeWhile inName).reverse (rest.dropWhile inName)
      some (out.reverse, rest)
    else none

/-- Whether a text starts with an equals sign or a semicolon after blanks. -/
def endsVariable (s : List Char) : Bool :=
  match trimStart s with
  | c :: _ => c == '=' || c == ';'
  | [] => false

/-- The flag at the front of a text, which a blank follows, and the text after the blanks. -/
def flag? (s : List Char) : Option (String × List Char) := do
  let (flag, rest) ← wordOf? (variableFlags.map fun w => (w, w)) s
  let rest ← afterBlanks? rest
  some (flag, rest)

/-- The flags and the name of a state variable at the front of a text of at most `fuel` characters.
As many flags as possible are taken; a last flag word with no name after it is the name itself. -/
def flagsAndName? : Nat → List Char → Option (List String × List Char)
  | 0, _ => none
  | fuel + 1, s =>
    let nameHere := match identifier? s with
      | some (name, rest) => if endsVariable rest then some ([], name) else none
      | none => none
    match flag? s with
    | none => nameHere
    | some (flag, rest) =>
      match flagsAndName? fuel rest with
      | some (flags, name) => some (flag :: flags, name)
      | none => nameHere

def variableTail? (s : List Char) : Option (List String × List Char) :=
  (afterBlanks? s).bind fun rest => flagsAndName? (rest.length + 1) rest

/-- The positions after the closing parentheses of a text, the last one first: the text up to each,
onto the reversed text so far, and the text after it. -/
def parenEndsFrom : List (List Char × List Char) → List Char → List Char →
    List (List Char × List Char)
  | ends, _, [] => ends
  | ends, out, c :: rest =>
    parenEndsFrom (if c = ')' then (c :: out, rest) :: ends else ends) (c :: out) rest

/-- The type, the flags and the name of a state variable whose type is a mapping. The mapping
reaches as far as a variable's tail still follows it. -/
def mappingParts? (s : List Char) : Option (List Char × List String × List Char) := do
  let rest ← after? "mapping" s
  let inside ← after? "(" (trimStart rest)
  let first ← inside.head?
  let opened := first :: '(' :: (rest.takeWhile isBlank).reverse ++ "mapping".toList.reverse
  (parenEndsFrom [] opened inside.tail).findSome? fun (typeName, tail) =>
    (variableTail? tail).map fun (flags, name) => (typeName.reverse, flags, name)

/-- The type, the flags and the name of a state variable at the front of a text. -/
def variableParts? (s : List Char) : Option (List Char × List String × List Char) :=
  match mappingParts? s with
  | some found => some found
  | none => do
    let (typeName, rest) ← plainType? s
    let (flags, name) ← variableTail? rest
    some (typeName, flags, name)

def variableLine? (s : List Char) (contract : Option String) (line : Nat) :
    Option StateVariable := do
  let first ← (words s).head?
  if nonVariableWords.contains (String.ofList first) || first.head? == some '\x7d' then none
  else
    let (typeName, flags, name) ← variableParts? (trimStart s)
    let visibility :=
      if flags.contains "public" then .publicly
      else if flags.contains "private" then .privately
      else .internally
    some
      { typeName := String.ofList (joinWith [' '] (words typeName))
        name := String.ofList name
        contract := contract
        visibility := visibility
        isConstant := flags.contains "constant"
        isImmutable := flags.contains "immutable"
        line := line }

/-- One declaration of any kind. -/
inductive Item where
  | contract (d : ContractDecl)
  | function (d : FunctionDecl)
  | modifier (d : ModifierDecl)
  | event (d : EventDecl)
  | imported (d : ImportDecl)
  | stateVariable (d : StateVariable)
  deriving Repr, DecidableEq

/-- Where the extraction stands: the brace depth, and the contract whose body is open with the depth
of that body. -/
structure Position where
  depth : Int
  current : Option (String × Int)
  deriving Repr, DecidableEq

/-- The contract that the next line belongs to. -/
def Position.owner (p : Position) : Option String :=
  p.current.map (·.1)

/-- Whether the next line stands in the body of a contract itself. -/
def Position.inBody (p : Position) : Bool :=
  match p.current with
  | none => false
  | some (_, body) => body == p.depth

/-- The function whose header starts on the first of the given lines. -/
def functionItem? (ls : List (List Char)) (owner : Option String) (line : Nat) :
    Option FunctionDecl :=
  let s := ls.headD []
  let header := headerText (ls.take headerLines)
  match functionLine? s with
  | some (some name) => some (functionOf header name .function owner line)
  | some none => some (functionOf header "fallback" .fallback owner line)
  | none =>
    match specialLine? s with
    | some .constructor => some (functionOf header "constructor" .constructor owner line)
    | some .receive => some (functionOf header "receive" .receive owner line)
    | some kind => some (functionOf header "fallback" kind owner line)
    | none => none

def item? (p : Position) (ls : List (List Char)) (line : Nat) : Option Item :=
  let s := ls.headD []
  match contractLine? s line with
  | some d => some (.contract d)
  | none =>
  match functionItem? ls p.owner line with
  | some d => some (.function d)
  | none =>
  match modifierLine? s p.owner line with
  | some d => some (.modifier d)
  | none =>
  match eventLine? s line with
  | some d => some (.event d)
  | none =>
  match importLine? s line with
  | some d => some (.imported d)
  | none => if p.inBody then (variableLine? s p.owner line).map .stateVariable else none

def Position.next (p : Position) (item : Option Item) (s : List Char) : Position :=
  let current := match item with
    | some (.contract d) => some (d.name, p.depth + 1)
    | _ => p.current
  let delta := braceDelta s
  let depth := p.depth + delta
  let closed := match current with
    | some (_, body) => depth < body && delta < 0
    | none => false
  ⟨depth, if closed then none else current⟩

/-- The declarations of the lines from a position and a line number on, onto the reversed
declarations so far. -/
def itemsFrom : Position → Nat → List Item → List (List Char) → List Item
  | _, _, out, [] => out.reverse
  | p, line, out, s :: rest =>
    let item := item? p (s :: rest) line
    itemsFrom (p.next item s) (line + 1) (item.toList ++ out) rest

def items (cleaned : List Char) : List Item :=
  itemsFrom ⟨0, none⟩ 1 [] (lines cleaned)

/-- The version requirement after the word `pragma` at the front of a text. Blanks alone are a
requirement only if there are two of them at least. -/
def pragmaAt? (s : List Char) : Option (List Char) := do
  let rest ← after? "pragma" s
  let rest ← afterBlanks? rest
  let rest ← after? "solidity" rest
  let blanks := rest.takeWhile isBlank
  let (text, _) ← splitAtChar? ';' (rest.dropWhile isBlank)
  if blanks.isEmpty || (text.isEmpty && blanks.length < 2) then none else some (trim text)

def pragma? (cleaned : List Char) : Option String :=
  (firstPosition pragmaAt? cleaned).map String.ofList

def extract (cleaned : List Char) : Declarations :=
  let all := items cleaned
  { pragma := pragma? cleaned
    contracts := all.filterMap fun | .contract d => some d | _ => none
    functions := all.filterMap fun | .function d => some d | _ => none
    modifiers := all.filterMap fun | .modifier d => some d | _ => none
    events := all.filterMap fun | .event d => some d | _ => none
    imports := all.filterMap fun | .imported d => some d | _ => none
    stateVariables := all.filterMap fun | .stateVariable d => some d | _ => none }

/-- Whether a contract, interface or library is declared anywhere in a source, comments aside. -/
def hasDeclaration (source : List Char) : Bool :=
  holdsSomewhere (fun c rest => !isWordAt c && (contractHead? rest).isSome) (blankComments source)

end AuditPanel.Source
