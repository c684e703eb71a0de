import Oncall.PagerDuty.Client
import Oncall.Telemetry

/-!
The commands of the command line and the flags that each takes. Commands stand on levels: the
program itself, a group of commands, and a command that can be run.
-/

namespace Oncall.Cli

/-- A flag that takes a value. -/
inductive Flag where
  | kubeconfig
  | logFormat
  | clusterId
  | baseDomain
  | pagerDutyUrl
  | nspace
  | clusterName
  | secretName
  | cacheDir
  deriving DecidableEq, Repr

namespace Flag

def long : Flag → String
  | .kubeconfig => "kubeconfig"
  | .logFormat => "log-format"
  | .clusterId => "cluster-id"
  | .baseDomain => "base-domain"
  | .pagerDutyUrl => "pagerduty-url"
  | .nspace => "namespace"
  | .clusterName => "cluster-name"
  | .secretName => "secret-name"
  | .cacheDir => "cache-dir"

def short? : Flag → Option Char
  | .nspace => some 'n'
  | _ => none

/-- The environment variable that stands in for the flag. -/
def envName? : Flag → Option String
  | .kubeconfig => some "KUBECONFIG"
  | .logFormat => some "PDO_LOG_FORMAT"
  | .pagerDutyUrl => some "PAGERDUTY_API_URL"
  | _ => none

def default? : Flag → Option String
  | .logFormat => some LogFormat.plain.name
  | .pagerDutyUrl => some PagerDuty.defaultUrl
  | _ => none

/-- Paths may not be empty, and a log format has to be one. -/
def accepts (f : Flag) (value : String) : Bool :=
  match f with
  | .kubeconfig | .cacheDir => !value.isEmpty
  | .logFormat => (LogFormat.ofName? value).isSome
  | _ => true

end Flag

inductive Level where
  | program
  | pagerDuty
  | provision
  | service
  | integrationKey
  | deprovision
  | vault
  | get
  deriving DecidableEq, Repr

namespace Level

/-- The commands below a level, by name. -/
def children : Level → List (String × Level)
  | .program => [("pagerduty", .pagerDuty), ("vault", .vault)]
  | .pagerDuty =>
    [("provision", .provision), ("service", .service), ("integration-key", .integrationKey),
      ("deprovision", .deprovision)]
  | .vault => [("get", .get)]
  | _ => []

/-- A group cannot be run itself. -/
def isGroup (l : Level) : Bool := !l.children.isEmpty

def child? (l : Level) (name : String) : Option Level := l.children.lookup name

/-- Groups know one more command, which explains the others. -/
def helpName : String := "help"

def knows (l : Level) (name : String) : Bool :=
  (l.child? name).isSome || (l.isGroup && name == helpName)

/-- Flags that may stand on every level. -/
def globalFlags : List Flag := [.kubeconfig, .logFormat]

def ownFlags : Level → List Flag
  | .program | .pagerDuty | .vault => []
  | .provision => [.clusterId, .baseDomain, .pagerDutyUrl]
  | .service | .integrationKey | .deprovision => [.nspace, .clusterName, .pagerDutyUrl]
  | .get => [.nspace, .secretName, .cacheDir]

def flags (l : Level) : List Flag := l.ownFlags ++ globalFlags

def long? (l : Level) (name : String) : Option Flag := l.flags.find? fun f => f.long == name

def short? (l : Level) (c : Char) : Option Flag := l.flags.find? fun f => f.short? == some c

/-- Only the program itself tells its version. -/
def tellsVersion (l : Level) : Bool := l = .program

end Level

end Oncall.Cli
