import AuditPanel.Text.Search

/-!
A directory as a table of files, and what a path means in it.
-/

set_option autoImplicit false

namespace AuditPanel

open AuditPanel.Text

/-- A directory in a tree of files: the content of each file of the tree by its plain path, and the
path of the directory in the tree. -/
structure Directory where
  files : List (String × String)
  base : String
  deriving Repr, DecidableEq, Inhabited

namespace Directory

def root (files : List (String × String)) : Directory :=
  ⟨files, ""⟩

abbrev Components := List (List Char)

def plainPath (parts : Components) : List Char :=
  joinWith ['/'] parts

def leadsToDirectory (d : Directory) (parts : Components) : Bool :=
  parts.isEmpty || d.files.any fun f => (plainPath parts ++ ['/']).isPrefixOf f.1.toList

def leadsToFile (d : Directory) (parts : Components) : Bool :=
  d.files.any fun f => f.1.toList = plainPath parts

/-- The place behind one more component: those that say "here" and "up" are followed. None if that
leaves the tree. -/
def stepTo? (done : Components) (part : List Char) : Option Components :=
  if part = [] ∨ part = ['.'] then some done
  else if part = ['.', '.'] then if done.isEmpty then none else some done.dropLast
  else some (done ++ [part])

/-- Where further components lead from a place in the tree, each looked up in a directory that is
there. -/
def walk? (d : Directory) : Components → Components → Option Components
  | done, [] => some done
  | done, part :: rest =>
    if d.leadsToDirectory done then (stepTo? done part).bind fun done => walk? d done rest else none

/-- Where further components lead from a place in the tree if directories that are not there are
made; none if a file is in the way. -/
def clear? (d : Directory) : Components → Components → Option Components
  | done, [] => some done
  | done, part :: rest =>
    if d.leadsToFile done then none else (stepTo? done part).bind fun done => clear? d done rest

def pathTo (d : Directory) (path : List Char) : List Char :=
  let base := d.base.toList
  if path.head? = some '/' ∨ base.isEmpty then path
  else if base.getLast? = some '/' then base ++ path
  else base ++ '/' :: path

/-- The components of a path in the directory; none for one from outside. -/
def components? (d : Directory) (path : List Char) : Option Components :=
  let path := d.pathTo path
  if path.head? = some '/' then none else some (piecesBetween (· == '/') path)

def locate? (d : Directory) (path : List Char) : Option Components :=
  (d.components? path).bind (d.walk? [])

/-- The content of the file that has exactly this path in the tree, or else of the one to which the
path leads. -/
def read? (d : Directory) (path : List Char) : Option String :=
  let exact := d.files.find? (·.1.toList = d.pathTo path)
  let found := exact.orElse fun _ => (d.locate? path).bind fun parts =>
    d.files.find? (·.1.toList = plainPath parts)
  found.map (·.2)

def hasDirectory (d : Directory) (path : List Char) : Bool :=
  match d.locate? path with
  | some parts => d.leadsToDirectory parts
  | none => false

/-- The place of the file that a path in the directory names, whether it is there or can be made. -/
def place? (d : Directory) (path : List Char) : Option Components :=
  match d.components? path with
  | none => none
  | some parts =>
    if [[], ['.'], ['.', '.']].contains (parts.getLastD []) then none
    else (d.clear? [] parts).filter fun parts => !d.leadsToDirectory parts

/-- The directory after a text was put behind the end of the file at a path, which is made if it is
not there. -/
def append (d : Directory) (path : List Char) (text : String) : Directory :=
  match d.place? path with
  | none => d
  | some parts =>
    let plain := String.ofList (plainPath parts)
    let before := ((d.files.find? (·.1 = plain)).map (·.2)).getD ""
    { d with files := d.files.filter (·.1 ≠ plain) ++ [(plain, before ++ text)] }

def sub (d : Directory) (path : String) : Directory :=
  { d with base := String.ofList (d.pathTo path.toList) }

end Directory

end AuditPanel
