import AuditPanel.Config.Basic

/-!
Commands: what a command line asks for.
-/

set_option autoImplicit false

namespace AuditPanel

/-- The audit of a source file. -/
structure AuditCommand where
  file : String
  mode : String
  chain : Option String
  agents : Option (List String)
  isJson : Bool
  backend : BackendSection
  deriving Repr, DecidableEq, Inhabited

/-- The audit of a deployed contract. -/
structure AddressCommand where
  address : String
  chain : String
  mode : String
  isJson : Bool
  backend : BackendSection
  deriving Repr, DecidableEq, Inhabited

/-- The service over HTTP. -/
structure ServeCommand where
  port : Option Nat
  host : Option String
  database : Option String
  backend : BackendSection
  deriving Repr, DecidableEq, Inhabited

/-- A command. -/
inductive Command where
  | audit (c : AuditCommand)
  | address (c : AddressCommand)
  | serve (c : ServeCommand)
  | validate (file : String)
  deriving Repr, DecidableEq, Inhabited

/-- A command line: the command, the configuration file and how the log is kept. -/
structure CommandLine where
  verbosity : Nat
  hasJsonLog : Bool
  isColorless : Bool
  config : Option String
  command : Command
  deriving Repr, DecidableEq, Inhabited

end AuditPanel
