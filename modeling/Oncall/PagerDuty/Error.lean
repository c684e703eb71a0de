import Oncall.PagerDuty.Codec
import Oncall.Source.ConfigError

/-!
Failures of the PagerDuty API and of provisioning. `ApiError.classify` turns a refusal into its
cause; a name that is already in use is recognised by PagerDuty's wording, and nowhere else is that
wording looked at.
-/

namespace Oncall.PagerDuty

inductive ApiError where
  | notFound (resource id : String)
  | duplicateName (message : String)
  | http (status : Nat) (message : String) (errors : List String)
  | transport
  | decode
  deriving DecidableEq, Repr

namespace ApiError

def message : ApiError → String
  | .notFound resource id => resource ++ " " ++ id ++ " not found in PagerDuty"
  | .duplicateName message => "PagerDuty rejected the request: " ++ message
  | .http status message _ => "PagerDuty API error (" ++ toString status ++ "): " ++ message
  | .transport => "PagerDuty request failed"
  | .decode => "failed to decode PagerDuty response"

def isDuplicateName : ApiError → Bool
  | .duplicateName _ => true
  | _ => false

def isNotFound : ApiError → Bool
  | .notFound _ _ => true
  | _ => false

end ApiError

/-- PagerDuty's wording for a name in use. -/
def nameTaken : String := "Name has already been taken"

/-- Whether `part` stands somewhere in `whole`. -/
def occursIn (part : List Char) : List Char → Bool
  | [] => part.isEmpty
  | c :: cs => part.isPrefixOf (c :: cs) || occursIn part cs

def saysNameTaken (text : String) : Bool := occursIn nameTaken.toList text.toList

/-- The details in an error body; a body of another shape is itself the message. -/
def ErrorDetails.ofBody (body : Bytes) : ErrorDetails :=
  (readAs? (enveloped? "error" ErrorDetails.ofNode?) body).getD
    ⟨String.ofList (Utf8.decodeLossy body), []⟩

/-- The cause behind a response that is no success. -/
def ApiError.classify (status : Nat) (body : Bytes) (resource id : String) : ApiError :=
  if status = 404 then .notFound resource id
  else
    let details := ErrorDetails.ofBody body
    match details.errors.find? saysNameTaken with
    | some e => .duplicateName e
    | none =>
      if saysNameTaken details.message then .duplicateName details.message
      else .http status details.message details.errors

/-- Why a PagerDuty operation failed. -/
inductive Error where
  | config (e : ConfigError)
  | api (e : ApiError)
  | policyNotFound (policyId : String) (cause : ApiError)
  deriving DecidableEq, Repr

namespace Error

def message : Error → String
  | .config e => e.message
  | .api e => e.message
  | .policyNotFound policyId cause =>
    "escalation policy " ++ policyId ++ " not found in PagerDuty: " ++ cause.message

/-- The API failure behind an error, if PagerDuty is where it came from. -/
def apiError? : Error → Option ApiError
  | .config _ => none
  | .api e => some e
  | .policyNotFound _ cause => some cause

end Error

end Oncall.PagerDuty
