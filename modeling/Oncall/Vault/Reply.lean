import Oncall.Json.Record
import Oncall.Source.ConfigError

/-!
What Vault replies to a read, and what can be wrong with it.
-/

namespace Oncall.Vault

open Json

/-- The secret itself is a mapping inside `data`; warnings come oldest first. -/
structure SecretResponse where
  data : Dictionary Value
  warnings : List String

/-- A field whose `null` means the same as its absence. -/
def orNull {α : Type} (default : α) (read? : Node → Option α) : Option Node → Option α :=
  orElse default fun v => (Node.optional? read? v).map (·.getD default)

/-- How deep the values under `data` may nest, so that the whole text has at most 127 levels. -/
def valueLevels : Nat := 125

def SecretResponse.ofNode? (v : Node) : Option SecretResponse := do
  match ← v.fields? ["data", "warnings"] with
  | [data, warnings] =>
    some ⟨← orNull [] (Node.dictionaryOf? (Node.value? valueLevels)) data,
      ← orNull [] (Node.listOf? Node.string?) warnings⟩
  | _ => none

/-- The JSON text of the payload. -/
def SecretResponse.dataText (r : SecretResponse) : String := (Value.object r.data).toString

/-- The error strings of a refusal. -/
def errorsOf? (v : Node) : Option (List String) := do
  match ← v.fields? ["errors"] with
  | [errors] => orNull [] (Node.listOf? Node.string?) errors
  | _ => none

inductive ApiError where
  | notFound (path : String)
  | http (path : String) (status : Nat) (errors : List String)
  | transport
  | decode
  deriving DecidableEq, Repr

def ApiError.message : ApiError → String
  | .notFound path => "no secret found at " ++ path
  | .http path status errors =>
    "vault returned " ++ toString status ++ " for " ++ path ++ ": " ++ "; ".intercalate errors
  | .transport => "vault request failed"
  | .decode => "failed to decode vault response"

/-- Why a secret could not be had. -/
inductive Error where
  | config (e : ConfigError)
  | api (e : ApiError)
  | malformed (path reason : String)
  | propertyNotFound (property path : String)
  | emptyProperty (property path : String)
  deriving DecidableEq, Repr

def Error.message : Error → String
  | .config e => e.message
  | .api e => e.message
  | .malformed path reason => "malformed secret payload at " ++ path ++ ": " ++ reason
  | .propertyNotFound property path => property ++ " not set in vault at " ++ path
  | .emptyProperty property path => property ++ " is empty in vault at " ++ path

/-- The text of a property's value: strings as they are, `null` empty, and anything else as JSON. -/
def valueText : Value → String
  | .string s => s
  | .null => ""
  | v => v.toString

/-- The warnings to log, and the property of the secret in a reply. Warnings count only if there is
a secret. -/
def SecretResponse.extract (r : SecretResponse) (path property : String) :
    List String × Except Error String :=
  match r.data.lookup "data" with
  | some (.object secret) =>
    (r.warnings.reverse,
      if secret.isEmpty then .error (.malformed path "secret data is empty")
      else
        match secret.lookup property with
        | none => .error (.propertyNotFound property path)
        | some v =>
          if (valueText v).isEmpty then .error (.emptyProperty property path)
          else .ok (valueText v))
  | _ => ([], .error (.malformed path "data is not a mapping"))

end Oncall.Vault
