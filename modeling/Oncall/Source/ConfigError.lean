import Oncall.Text.Quoted
import Oncall.Text.Unsigned

/-!
Why configuration could not be resolved. A key error names the key and the object it was looked up
in, so that a broken Secret or ConfigMap is found without further logging.
-/

namespace Oncall

/-- What the Kubernetes API says about a refused request. -/
structure ApiStatus where
  status : String
  message : String
  reason : String
  code : Nat
  deriving DecidableEq, Repr

/-- Why an exchange with the Kubernetes API failed, or why none is possible: there are no
credentials to be had, certificates or keys cannot be used, a header cannot be sent, or a proxy is
asked for, of a kind that is known or not. -/
inductive KubeError where
  | api (s : ApiStatus)
  | decode
  | notText
  | service
  | buildRequest
  | credentials
  | security
  | header
  | knownProxy
  | unknownProxy
  deriving DecidableEq, Repr

inductive ConfigError where
  | kube (e : KubeError)
  | clientConfig (message : String)
  | missingKey (key object : String)
  | emptyValue (key object : String)
  | invalidNumber (key object value : String) (reason : Unsigned.ParseError)
  deriving DecidableEq, Repr

namespace ConfigError

def message : ConfigError → String
  | .kube (.api s) => "kubernetes error: " ++ s.message
  | .kube _ => "kubernetes error"
  | .clientConfig message => "failed to load kubernetes client config: " ++ message
  | .missingKey key object => key ++ " does not exist in " ++ object
  | .emptyValue key object => key ++ " is empty in " ++ object
  | .invalidNumber key object value _ =>
    key ++ " in " ++ object ++ " is not a valid unsigned integer: " ++ quoted value

/-- The key at fault. -/
def key? : ConfigError → Option String
  | .kube _ | .clientConfig _ => none
  | .missingKey key _ | .emptyValue key _ | .invalidNumber key _ _ _ => some key

/-- Whether the object itself does not exist. -/
def isNotFound : ConfigError → Bool
  | .kube (.api s) => s.code == 404
  | _ => false

end ConfigError

end Oncall
