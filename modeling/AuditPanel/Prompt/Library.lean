import AuditPanel.Directory
import AuditPanel.Failure
import AuditPanel.Text.Search
import AuditPanel.Text.Segments

/-!
A directory of prompt templates that may include one another, up to five levels deep.
-/

set_option autoImplicit false

namespace AuditPanel.Prompt

open AuditPanel.Text

def includeLevels : Nat := 5

/-- A file name cut at its last dot, unless that is the first character: what stands before it, and
the extension behind it. -/
def splitExtension (name : List Char) : List Char × Option (List Char) :=
  let extension := (name.reverse.takeWhile (· != '.')).reverse
  match name.reverse.dropWhile (· != '.') with
  | [] => (name, none)
  | [_] => (name, none)
  | _ :: stem => (stem.reverse, some extension)

/-- A path without what follows its last component: separators and components that say "here". -/
def dropTrailing (path : List Char) : List Char :=
  let rec strip : List Char → List Char
    | '/' :: rest => strip rest
    | '.' :: '/' :: rest => strip rest
    | ['.'] => []
    | rest => rest
  (strip path.reverse).reverse

/-- The components that say "up" and have no extension. -/
def parent : List Char := ['.', '.']

/-- The path of the template with the given name: its last component gets the extension of templates
in place of its own. A component that says "up" gets none, and neither does one that is left so when
its extension goes. -/
def templatePath (name : List Char) : List Char :=
  let path := dropTrailing name
  let last := (path.reverse.takeWhile (· != '/')).reverse
  let folder := path.take (path.length - last.length)
  let (stem, extension) := splitExtension last
  if last.isEmpty || last = parent then name
  else if stem = ['.'] && extension.isSome && path.length = name.length then folder ++ parent
  else folder ++ stem ++ ".txt".toList

def missingTemplate (files : Directory) (path : List Char) : Failure :=
  ⟨.config, "Cannot read prompt template " ++ String.ofList (files.pathTo path)⟩

def tooDeep : Failure :=
  ⟨.config, s!"Prompt includes nested deeper than {includeLevels} levels (circular include?)"⟩

def readTemplate (files : Directory) (path : List Char) : Except Failure (List Char) :=
  match files.read? path with
  | some content => .ok content.toList
  | none => .error (missingTemplate files path)

/-- The target of an include directive at the front of a text, and the length of the directive. -/
def includeAt? (s : List Char) : Option (List Char × Nat) :=
  match after? "@include(" s with
  | none => none
  | some rest =>
    match splitAtChar? ')' rest with
    | none => none
    | some (target, _) =>
      if target.isEmpty then none else some (target, target.length + "@include()".length)

def includeParts (content : List Char) : List (Segment (List Char)) :=
  segments includeAt? content

def hasInclude (pieces : List (Segment (List Char))) : Bool :=
  pieces.any fun
    | .mark _ => true
    | .literal _ => false

/-- The pieces of a template with each target replaced by what `expand` makes of it. -/
def expandParts (expand : List Char → Except Failure (List Char)) :
    List (Segment (List Char)) → Except Failure (List Char)
  | [] => .ok []
  | .literal text :: rest => (expandParts expand rest).map (text ++ ·)
  | .mark target :: rest => do
    let included ← expand target
    let tail ← expandParts expand rest
    .ok (included ++ tail)

/-- A template with its includes expanded, while `levels` levels are left. -/
def expandIncludes (files : Directory) : Nat → List Char → Except Failure (List Char)
  | 0, content => if hasInclude (includeParts content) then .error tooDeep else .ok content
  | levels + 1, content =>
    expandParts (fun target => do expandIncludes files levels (← readTemplate files (trim target)))
      (includeParts content)

def hasPrompt (files : Directory) (name : List Char) : Bool :=
  (files.read? (templatePath name)).isSome

def load (files : Directory) (name : List Char) : Except Failure (List Char) := do
  expandIncludes files includeLevels (← readTemplate files (templatePath name))

end AuditPanel.Prompt
