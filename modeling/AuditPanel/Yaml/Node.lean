import AuditPanel.Yaml.Token

/-!
Nodes of a YAML text: the tree that its tokens describe, with tags written out and anchors numbered.
-/

set_option autoImplicit false

namespace AuditPanel.Yaml

/-- What stands in front of a node: the number of its anchor and the bytes of its tag. -/
structure Properties where
  anchor : Option Nat
  tag : Option (List UInt8)
  deriving Repr, DecidableEq, Inhabited

/-- A node. An alias stands for the node with the numbered anchor. -/
inductive Node where
  | scalar (properties : Properties) (isPlain : Bool) (text : String)
  | sequence (properties : Properties) (items : List Node)
  | mapping (properties : Properties) (entries : List (Node × Node))
  | alias (anchor : Nat)
  deriving Inhabited

namespace Node

def empty : Node :=
  .scalar ⟨none, none⟩ true ""

mutual

/-- The number of marks that write a node: one for a scalar or an alias, two around the content of
another node. -/
def markCount : Node → Nat
  | .scalar _ _ _ => 1
  | .alias _ => 1
  | .sequence _ items => itemMarks items + 2
  | .mapping _ entries => entryMarks entries + 2

def itemMarks : List Node → Nat
  | [] => 0
  | n :: rest => markCount n + itemMarks rest

def entryMarks : List (Node × Node) → Nat
  | [] => 0
  | (k, v) :: rest => markCount k + markCount v + entryMarks rest

end

def ifAnchored (anchor : Nat) (p : Properties) (n : Node) : Option Node :=
  if p.anchor = some anchor then some n else none

mutual

def anchored? (anchor : Nat) : Node → Option Node
  | .scalar p isPlain text => ifAnchored anchor p (.scalar p isPlain text)
  | .sequence p items => (anchoredInItems? anchor items).orElse fun _ =>
    ifAnchored anchor p (.sequence p items)
  | .mapping p entries => (anchoredInEntries? anchor entries).orElse fun _ =>
    ifAnchored anchor p (.mapping p entries)
  | .alias _ => none

def anchoredInItems? (anchor : Nat) : List Node → Option Node
  | [] => none
  | n :: rest => (anchoredInItems? anchor rest).orElse fun _ => anchored? anchor n

/-- The last node in some entries that carries the numbered anchor. -/
def anchoredInEntries? (anchor : Nat) : List (Node × Node) → Option Node
  | [] => none
  | (k, v) :: rest =>
    (anchoredInEntries? anchor rest).orElse fun _ => (anchored? anchor v).orElse fun _ =>
      anchored? anchor k

end

end Node

/-- What a tree is read from: the tokens left, the numbers of the anchors so far and what the
handles of tags stand for. -/
structure NodeSource where
  tokens : List Token
  anchors : List (String × Nat)
  handles : List (String × List UInt8)
  deriving Inhabited

namespace NodeSource

def skip (r : NodeSource) : NodeSource :=
  { r with tokens := r.tokens.drop 1 }

def startsWith (r : NodeSource) (ts : List Token) : Bool :=
  match r.tokens with
  | [] => false
  | t :: _ => ts.contains t

def tag? (r : NodeSource) (handle : String) (suffix : List UInt8) : Option (List UInt8) :=
  if handle.isEmpty then some suffix else (r.handles.find? (·.1 = handle)).map fun h =>
    h.2 ++ suffix

/-- The number of an anchor that starts here, and the source behind its token. The number is that of
the other names so far. -/
def nameAnchor (r : NodeSource) (name : String) : Nat × NodeSource :=
  let number := r.anchors.length
  (number, { r.skip with anchors := (name, number) :: r.anchors.filter (·.1 ≠ name) })

/-- The properties at the front of a source, an anchor and a tag in either order. -/
def properties? (r : NodeSource) : Option (Properties × NodeSource) :=
  match r.tokens with
  | .anchor name :: .tag handle suffix :: _ =>
    let (number, r) := r.nameAnchor name
    (r.tag? handle suffix).map fun tag => (⟨some number, some tag⟩, r.skip)
  | .tag handle suffix :: .anchor name :: _ =>
    let (number, r) := r.skip.nameAnchor name
    (r.tag? handle suffix).map fun tag => (⟨some number, some tag⟩, r)
  | .anchor name :: _ =>
    let (number, r) := r.nameAnchor name
    some (⟨some number, none⟩, r)
  | .tag handle suffix :: _ => (r.tag? handle suffix).map fun tag => (⟨none, some tag⟩, r.skip)
  | _ => some (⟨none, none⟩, r)

end NodeSource

namespace Node

def ofProperties? (p : Properties) : Option Node :=
  if p.anchor.isSome || p.tag.isSome then some (.scalar p true "") else none

mutual

/-- The node at the front of a source. Blocks count only where `inBlock` holds, and items without
indentation only where `indentless` holds. -/
def read? : Nat → Bool → Bool → NodeSource → Option (Node × NodeSource)
  | 0, _, _, _ => none
  | fuel + 1, inBlock, indentless, r =>
    match r.tokens with
    | .alias name :: _ => (r.anchors.find? (·.1 = name)).map fun a => (.alias a.2, r.skip)
    | _ => (r.properties?).bind fun (p, r) => content? fuel inBlock indentless p r

def content? : Nat → Bool → Bool → Properties → NodeSource → Option (Node × NodeSource)
  | 0, _, _, _, _ => none
  | fuel + 1, inBlock, indentless, p, r =>
    match r.tokens with
    | .scalar text isPlain :: _ => some (.scalar p isPlain text, r.skip)
    | .flowSequenceStart :: _ => (flowItems? fuel true [] r.skip).map fun (items, r) =>
      (.sequence p items, r)
    | .flowMappingStart :: _ => (flowEntries? fuel true [] r.skip).map fun (entries, r) =>
      (.mapping p entries, r)
    | t :: _ =>
      if indentless && t == .blockEntry then
        (indentlessItems? fuel [] r).map fun (items, r) => (.sequence p items, r)
      else if inBlock && t == .blockSequenceStart then
        (blockItems? fuel [] r.skip).map fun (items, r) => (.sequence p items, r)
      else if inBlock && t == .blockMappingStart then
        (blockEntries? fuel [] r.skip).map fun (entries, r) => (.mapping p entries, r)
      else (ofProperties? p).map fun n => (n, r)
    | [] => (ofProperties? p).map fun n => (n, r)

/-- The node at the front of a source, or the empty one where one of the given tokens stands. -/
def readUnless? : Nat → List Token → Bool → Bool → NodeSource → Option (Node × NodeSource)
  | 0, _, _, _, _ => none
  | fuel + 1, ends, inBlock, indentless, r =>
    if r.startsWith ends then some (empty, r) else read? fuel inBlock indentless r

/-- The value behind its mark at the front of a source; the empty node where there is no mark or one
of the given tokens stands behind it. -/
def value? : Nat → List Token → Bool → Bool → NodeSource → Option (Node × NodeSource)
  | 0, _, _, _, _ => none
  | fuel + 1, ends, inBlock, indentless, r =>
    if r.startsWith [.value] then readUnless? fuel ends inBlock indentless r.skip
      else some (empty, r)

/-- The items of a block to its end, onto the reversed items so far. -/
def blockItems? : Nat → List Node → NodeSource → Option (List Node × NodeSource)
  | 0, _, _ => none
  | fuel + 1, items, r =>
    match r.tokens with
    | .blockEnd :: _ => some (items.reverse, r.skip)
    | .blockEntry :: _ =>
      (readUnless? fuel [.blockEntry, .blockEnd] true false r.skip).bind fun (n, r) =>
        blockItems? fuel (n :: items) r
    | _ => none

/-- The items that stand at the indentation of their key, onto the reversed items so far. -/
def indentlessItems? : Nat → List Node → NodeSource → Option (List Node × NodeSource)
  | 0, _, _ => none
  | fuel + 1, items, r =>
    match r.tokens with
    | .blockEntry :: _ =>
      (readUnless? fuel [.blockEntry, .key, .value, .blockEnd] true false r.skip).bind fun (n, r) =>
        indentlessItems? fuel (n :: items) r
    | _ => some (items.reverse, r)

/-- The entries of a block to its end, onto the reversed entries so far. -/
def blockEntries? : Nat → List (Node × Node) → NodeSource → Option (List (Node × Node) × NodeSource)
  | 0, _, _ => none
  | fuel + 1, entries, r =>
    match r.tokens with
    | .blockEnd :: _ => some (entries.reverse, r.skip)
    | .key :: _ =>
      (readUnless? fuel [.key, .value, .blockEnd] true true r.skip).bind fun (k, r) =>
        (value? fuel [.key, .value, .blockEnd] true true r).bind fun (v, r) =>
          blockEntries? fuel ((k, v) :: entries) r
    | _ => none

/-- The items inside brackets to the closing one, onto the reversed items so far. An item with the
mark of a key is a mapping of one entry. -/
def flowItems? : Nat → Bool → List Node → NodeSource → Option (List Node × NodeSource)
  | 0, _, _, _ => none
  | fuel + 1, isFirst, items, r =>
    if r.startsWith [.flowSequenceEnd] then some (items.reverse, r.skip)
    else if !isFirst && !r.startsWith [.flowEntry] then none
    else
      let r := if isFirst then r else r.skip
      match r.tokens with
      | .flowSequenceEnd :: _ => some (items.reverse, r.skip)
      | .key :: _ =>
        (pairKey? fuel r.skip).bind fun (k, r) =>
          (value? fuel [.flowEntry, .flowSequenceEnd] false false r).bind fun (v, r) =>
            flowItems? fuel false (.mapping ⟨none, none⟩ [(k, v)] :: items) r
      | _ => (read? fuel false false r).bind fun (n, r) => flowItems? fuel false (n :: items) r

/-- The key of an entry that is an item. An empty key takes the token behind it with it. -/
def pairKey? : Nat → NodeSource → Option (Node × NodeSource)
  | 0, _ => none
  | fuel + 1, r =>
    if r.startsWith [.value, .flowEntry, .flowSequenceEnd] then some (empty, r.skip)
      else read? fuel false false r

/-- The entries inside braces to the closing one, onto the reversed entries so far. -/
def flowEntries? :
    Nat → Bool → List (Node × Node) → NodeSource → Option (List (Node × Node) × NodeSource)
  | 0, _, _, _ => none
  | fuel + 1, isFirst, entries, r =>
    if r.startsWith [.flowMappingEnd] then some (entries.reverse, r.skip)
    else if !isFirst && !r.startsWith [.flowEntry] then none
    else
      let r := if isFirst then r else r.skip
      match r.tokens with
      | .flowMappingEnd :: _ => some (entries.reverse, r.skip)
      | .key :: _ =>
        (readUnless? fuel [.value, .flowEntry, .flowMappingEnd] false false r.skip).bind
          fun (k, r) =>
          (value? fuel [.flowEntry, .flowMappingEnd] false false r).bind fun (v, r) =>
            flowEntries? fuel false ((k, v) :: entries) r
      | _ => (read? fuel false false r).bind fun (k, r) =>
        flowEntries? fuel false ((k, empty) :: entries) r

end

def coreAddress : String :=
  "tag:yaml.org,2002:"

def usualHandles : List (String × List UInt8) :=
  [("!", "!".toUTF8.data.toList), ("!!", coreAddress.toUTF8.data.toList)]

/-- The handles that the directives at the front of the tokens set, and the tokens behind them. At
most one version, and each handle once. -/
def directives? :
    Bool → List (String × List UInt8) → List Token →
      Option (List (String × List UInt8) × List Token)
  | hasVersion, handles, .versionDirective major minor :: rest =>
    if hasVersion || major != 1 || !(minor == 1 || minor == 2) then none
      else directives? true handles rest
  | hasVersion, handles, .tagDirective handle expansion :: rest =>
    if (handles.find? (·.1 = handle)).isSome then none
    else directives? hasVersion (handles ++ [(handle, expansion)]) rest
  | _, handles, rest => some (handles, rest)

/-- The node of a document from its tokens: directives need the mark of a start behind them, and a
second document is refused. Without a document it is the empty node. -/
def ofTokens? (tokens : List Token) : Option Node := do
  let (handles, rest) ← directives? false [] tokens
  let isMarked := rest.head? == some .documentStart
  if !isMarked && rest.length < tokens.length then none
  else if rest.isEmpty then some empty
  else
    let r : NodeSource := ⟨if isMarked then rest.drop 1 else rest, [], handles ++ usualHandles⟩
    let isEmpty := isMarked && (r.tokens.isEmpty || r.startsWith [.documentStart, .documentEnd])
    let (n, r) ← if isEmpty then some (empty, r) else read? (4 * tokens.length + 4) true false r
    if r.tokens.all (· == .documentEnd) then some n else none

end Node

end AuditPanel.Yaml
