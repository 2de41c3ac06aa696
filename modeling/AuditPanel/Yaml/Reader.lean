import AuditPanel.Yaml.Node
import AuditPanel.Yaml.Plain

/-!
The value that a YAML text writes.
-/

set_option autoImplicit false

namespace AuditPanel.Yaml

def ofScalar? (isPlain : Bool) (text : String) : Option Yaml :=
  if isPlain then ofPlain? text else some (.string text)

def ofInteger? (text : String) : Option Yaml :=
  (wholeNumber? 64 text.toList).map .integer

def coreTag (name : String) : List UInt8 :=
  (Node.coreAddress ++ name).toUTF8.data.toList

/-- The meaning of a scalar whose tag is not local: the tags of truth values, numbers and null force
their reading, and all others make a text. -/
def ofTagged? (tag : List UInt8) (text : String) : Option Yaml :=
  if tag == coreTag "bool" then (truthValue? text).map .bool
  else if tag == coreTag "int" then ofInteger? text
  else if tag == coreTag "float" then (double? text.toList).map .real
  else if tag == coreTag "null" then if isNullWord text then some .null else none
  else some (.string text)

/-- Whether a tag is local: it starts with an exclamation mark. -/
def isLocalTag (tag : List UInt8) : Bool :=
  tag.head? == some (UInt8.ofNat '!'.toNat)

/-- The name of a local tag: its text behind the exclamation mark, or the mark alone. A tag whose
bytes are not text has none. -/
def localName? (tag : List UInt8) : Option String :=
  if isLocalTag tag then
    let name := if tag.length = 1 then tag else tag.drop 1
    String.fromUTF8? (ByteArray.mk name.toArray)
  else none

def underTag (tag : Option (List UInt8)) (v : Yaml) : Yaml :=
  match tag.bind localName? with
  | some name => .tagged name v
  | none => v

def ofScalarNode? (tag : Option (List UInt8)) (isPlain : Bool) (text : String) : Option Yaml :=
  match tag.filter fun t => !isLocalTag t with
  | some t => ofTagged? t text
  | none => (ofScalar? isPlain text).map (underTag tag)

/-- The entries of a mapping in order, refused if two keys are the same. -/
def distinct? : List (Yaml × Yaml) → Option (List (Yaml × Yaml))
  | [] => some []
  | (k, v) :: rest =>
    if rest.any fun (l, _) => same k l then none else (distinct? rest).map ((k, v) :: ·)

def deepest : Nat := 128

/-- The value of a node in the tree `root`, with the number of aliases that may still be followed,
at most `levels` more levels deep. -/
def ofNode? (root : Node) : Nat → Node → Nat → Option (Yaml × Nat)
  | levels, n, aliases =>
    let target : Option (Node × Nat) := match n with
      | .alias anchor =>
        match aliases with
        | 0 => none
        | aliases + 1 => (root.anchored? anchor).map fun n => (n, aliases)
      | n => some (n, aliases)
    match target, levels with
    | some (.scalar p isPlain text, aliases), _ => (ofScalarNode? p.tag isPlain text).map fun v =>
      (v, aliases)
    | some (.sequence p items, aliases), levels + 1 =>
      let step (done : List Yaml × Nat) (n : Node) : Option (List Yaml × Nat) :=
        (ofNode? root levels n done.2).map fun (v, aliases) => (v :: done.1, aliases)
      (items.foldlM step ([], aliases)).map fun (values, aliases) =>
        (underTag p.tag (.sequence values.reverse), aliases)
    | some (.mapping p entries, aliases), levels + 1 =>
      let step (done : List (Yaml × Yaml) × Nat) (e : Node × Node) :
          Option (List (Yaml × Yaml) × Nat) :=
        (ofNode? root levels e.1 done.2).bind fun (k, aliases) =>
          (ofNode? root levels e.2 aliases).map fun (v, aliases) => ((k, v) :: done.1, aliases)
      (entries.foldlM step ([], aliases)).bind fun (values, aliases) =>
        (distinct? values.reverse).map fun values => (underTag p.tag (.mapping values), aliases)
    | _, _ => none

def aliasesPerMark : Nat := 100

/-- The value that a YAML text writes; none if the text is not one YAML document. Tokens that nest
too deep are not read at all, for their nodes nest at least as deep. -/
def read? (text : String) : Option Yaml := do
  let tokens ← Token.ofText? text.toList
  if deepest < Token.nesting tokens then none
  else
    let root ← Node.ofTokens? tokens
    (ofNode? root deepest root (aliasesPerMark * root.markCount)).map (·.1)

end AuditPanel.Yaml
