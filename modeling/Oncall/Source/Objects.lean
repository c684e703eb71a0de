import Oncall.Source.Payload
import Oncall.Workflow

/-!
Where Secrets and ConfigMaps are read from. `ObjectStore` holds them in memory; an object that it
lacks is refused the way the Kubernetes API refuses it.
-/

namespace Oncall

/-- A read of one object. -/
inductive ObjectCall where
  | secret (nspace name : String)
  | configMap (nspace name : String)
  deriving DecidableEq, Repr

namespace ObjectCall

abbrev Result : ObjectCall → Type
  | .secret _ _ => Payload
  | .configMap _ _ => Dictionary String

abbrev Reply (c : ObjectCall) : Type := Except ConfigError c.Result

def kind : ObjectCall → String
  | .secret _ _ => "secrets"
  | .configMap _ _ => "configmaps"

def nspace : ObjectCall → String
  | .secret nspace _ | .configMap nspace _ => nspace

def name : ObjectCall → String
  | .secret _ name | .configMap _ name => name

end ObjectCall

/-- A workflow that reads objects. -/
abbrev Reading (α : Type) := Workflow ObjectCall ObjectCall.Reply Unit α

/-- Objects by namespace and name; the newest object of a name stands first. -/
structure ObjectStore where
  secrets : List ((String × String) × Payload)
  configMaps : List ((String × String) × Dictionary String)

namespace ObjectStore

def empty : ObjectStore := ⟨[], []⟩

def putSecret (s : ObjectStore) (nspace name : String) (p : Payload) : ObjectStore :=
  { s with secrets := ((nspace, name), p) :: s.secrets }

def putConfigMap (s : ObjectStore) (nspace name : String) (d : Dictionary String) : ObjectStore :=
  { s with configMaps := ((nspace, name), d) :: s.configMaps }

/-- The refusal for an object that does not exist. -/
def missing (c : ObjectCall) : ConfigError :=
  .kube (.api {
    status := "Failure"
    message := c.kind ++ " \"" ++ c.name ++ "\" not found in " ++ c.nspace
    reason := "NotFound"
    code := 404 })

def answer (s : ObjectStore) : (c : ObjectCall) → c.Reply
  | .secret nspace name =>
    match s.secrets.lookup (nspace, name) with
    | some p => .ok p
    | none => .error (missing (.secret nspace name))
  | .configMap nspace name =>
    match s.configMaps.lookup (nspace, name) with
    | some d => .ok d
    | none => .error (missing (.configMap nspace name))

end ObjectStore

end Oncall
