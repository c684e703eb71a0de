import Oncall.Source.Objects

/-!
Where a secret lives in Vault and how to get at it, as a Secret states it. All of its keys are
required, and the first one that is missing or empty is reported.
-/

namespace Oncall.Vault

def urlKey : String := "VAULT_URL"

def tokenKey : String := "VAULT_TOKEN"

def mountKey : String := "VAULT_MOUNT"

def keyKey : String := "VAULT_KEY"

def propertyKey : String := "VAULT_PROPERTY"

def pathKey : String := "VAULT_PATH"

/-- `nspace` and `secretName` say where the rest was read. -/
structure Access where
  nspace : String
  secretName : String
  path : String
  property : String
  url : String
  token : String
  mount : String
  key : String
  deriving DecidableEq, Repr

namespace Access

/-- How diagnostics show an access, without its token. -/
def shown (a : Access) : String :=
  shownRecord "VaultAccess" [
    ("namespace", quoted a.nspace),
    ("secret_name", quoted a.secretName),
    ("path", quoted a.path),
    ("property", quoted a.property),
    ("url", quoted a.url),
    ("token", quoted "<redacted>"),
    ("mount", quoted a.mount),
    ("key", quoted a.key)]

def ofPayload (nspace secretName : String) (p : Payload) : Except ConfigError Access := do
  let object := objectRef nspace secretName
  let url ← p.required urlKey object
  let token ← p.required tokenKey object
  let mount ← p.required mountKey object
  let key ← p.required keyKey object
  let property ← p.required propertyKey object
  let path ← p.required pathKey object
  .ok ⟨nspace, secretName, path, property, url, token, mount, key⟩

/-- Reads the Secret that states an access. -/
def resolve (nspace secretName : String) : Reading (Except ConfigError Access) :=
  .call () (.secret nspace secretName) fun r => .done (r.bind (ofPayload nspace secretName))

/-- The path under which Vault serves the secret. -/
def fullPath (a : Access) : String := a.mount ++ "/data/" ++ a.path

end Access

end Oncall.Vault
