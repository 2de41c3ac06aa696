import AuditPanel.Config.Basic
import AuditPanel.Directory
import AuditPanel.Text.Lines
import AuditPanel.Yaml.Reader

/-!
Configurations read from text and from files.
-/

set_option autoImplicit false

namespace AuditPanel.Config

/-- The value that the text of a configuration writes. A text without anything but white space has
no entries. -/
def valueOfText (text : String) : Except Failure Yaml :=
  if Text.isAllBlank text.toList then .ok (.mapping [])
  else
    match Yaml.read? text with
    | some v => .ok v
    | none => .error ⟨.yaml, "the text is not one YAML document"⟩

/-- The configuration that a value describes: its keys have to be names, its entries have to fit,
and no checked limit may be violated. -/
def ofValue (v : Yaml) : Except Failure Config :=
  match v.keyFault?, ofYaml? v with
  | some fault, _ => .error (failure ("Config conversion error: " ++ fault))
  | none, none => .error (failure "Invalid config")
  | none, some c => c.check.map fun _ => c

def ofText (text : String) : Except Failure Config :=
  (valueOfText text).bind ofValue

def maxFileBytes : Nat := 1048576

def ofFile (files : Directory) (path : String) : Except Failure Config :=
  match files.read? path.toList with
  | some content =>
    if maxFileBytes < content.utf8ByteSize then .error (failure "Config file exceeds 1MB limit")
      else ofText content
  | none =>
    if files.hasDirectory path.toList then .error ⟨.io, path ++ " is a directory"⟩
    else .error (failure ("Config file not found: " ++ path))

end AuditPanel.Config
