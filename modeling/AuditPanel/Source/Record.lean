import AuditPanel.Json.Value
import AuditPanel.Source.Declaration

/-!
Records of the declarations of a source.
-/

set_option autoImplicit false

namespace AuditPanel.Source

def ContractKind.name : ContractKind → String
  | .contract => "contract"
  | .interface => "interface"
  | .library => "library"

def Visibility.name : Visibility → String
  | .publicly => "public"
  | .externally => "external"
  | .internally => "internal"
  | .privately => "private"

def Mutability.name : Mutability → String
  | .nonpayable => "nonpayable"
  | .payable => "payable"
  | .view => "view"
  | .pure => "pure"

def FunctionKind.name : FunctionKind → String
  | .function => "function"
  | .constructor => "constructor"
  | .fallback => "fallback"
  | .receive => "receive"

def ContractDecl.toJson (d : ContractDecl) : Json :=
  .ofMembers [("kind", .string d.kind.name), ("name", .string d.name),
    ("isAbstract", .bool d.isAbstract), ("inherits", .strings d.inherits), ("line", .nat d.line)]

def Parameter.toJson (p : Parameter) : Json :=
  .ofMembers [("typeName", .string p.typeName), ("name", .option .string p.name)]

def FunctionDecl.toJson (d : FunctionDecl) : Json :=
  .ofMembers [("name", .string d.name), ("kind", .string d.kind.name),
    ("contract", .option .string d.contract), ("visibility", .string d.visibility.name),
    ("mutability", .string d.mutability.name),
    ("parameters", .array (d.parameters.map Parameter.toJson)), ("modifiers", .strings d.modifiers),
    ("isPayable", .bool d.isPayable), ("isExternal", .bool d.isExternal), ("line", .nat d.line)]

def ModifierDecl.toJson (d : ModifierDecl) : Json :=
  .ofMembers [("name", .string d.name), ("contract", .option .string d.contract),
    ("parameters", .array (d.parameters.map Parameter.toJson)), ("line", .nat d.line)]

def EventDecl.toJson (d : EventDecl) : Json :=
  .ofMembers [("name", .string d.name), ("parameters", .array (d.parameters.map Parameter.toJson)),
    ("line", .nat d.line)]

def ImportDecl.toJson (d : ImportDecl) : Json :=
  .ofMembers [("path", .string d.path), ("line", .nat d.line)]

def StateVariable.toJson (d : StateVariable) : Json :=
  .ofMembers [("typeName", .string d.typeName), ("name", .string d.name),
    ("contract", .option .string d.contract), ("visibility", .string d.visibility.name),
    ("isConstant", .bool d.isConstant), ("isImmutable", .bool d.isImmutable), ("line", .nat d.line)]

def Declarations.toJson (d : Declarations) : Json :=
  .ofMembers
    [("pragma", .option .string d.pragma),
      ("contracts", .array (d.contracts.map ContractDecl.toJson)),
    ("functions", .array (d.functions.map FunctionDecl.toJson)),
    ("modifiers", .array (d.modifiers.map ModifierDecl.toJson)),
    ("events", .array (d.events.map EventDecl.toJson)),
    ("imports", .array (d.imports.map ImportDecl.toJson)),
    ("stateVariables", .array (d.stateVariables.map StateVariable.toJson))]

end AuditPanel.Source
