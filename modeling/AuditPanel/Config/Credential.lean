/-!
Credentials: literal texts, or names of environment variables after a dollar sign.
-/

set_option autoImplicit false

namespace AuditPanel.Config

/-- The environment of a run: the value of each variable that is set. -/
abbrev Environment := String → Option String

/-- What a credential stands for. A reference to a variable that is not set stands for itself. -/
def resolveCredential (env : Environment) (value : String) : String :=
  match value.toList with
  | '$' :: name => (env (String.ofList name)).getD value
  | _ => value

def reference? (value : String) : Option String :=
  match value.toList with
  | '$' :: name => some (String.ofList name)
  | _ => none

/-- Whether a key can be used: it is not empty and no dollar sign starts it. -/
def isUsableKey (key : String) : Bool :=
  !key.isEmpty && key.toList.head? != some '$'

/-- The key of a provider: the configured one if it resolves to a usable key, or else the value of
the provider's own variable unless that is empty. -/
def resolveKey (env : Environment) (configured ownVariable : Option String) : Option String :=
  let own := (configured.map (resolveCredential env)).filter isUsableKey
  (own.orElse fun _ => ownVariable.bind env).filter fun key => !key.isEmpty

end AuditPanel.Config
