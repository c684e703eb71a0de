import Oncall.PagerDuty.Error
import Oncall.Source.Payload

/-!
What provisioning needs to know about a cluster: credentials and defaults from the operator's
Secret, the cluster itself, and the IDs stored for it. Reading a payload assigns field after field
and stops at the first bad key.
-/

namespace Oncall.PagerDuty

/-- Namespace of the operator's Secret. -/
def operatorNamespace : String := "pagerduty-operator"

/-- Name of the Secret with the credentials. -/
def apiKeySecret : String := "pagerduty-api-key"

def apiKeyKey : String := "PAGERDUTY_API_KEY"

def escalationPolicyKey : String := "ESCALATION_POLICY"

def resolveTimeoutKey : String := "RESOLVE_TIMEOUT"

def acknowledgeTimeoutKey : String := "ACKNOWLEDGE_TIMEOUT"

def serviceLabelKey : String := "SERVICE_PREFIX"

def serviceIdKey : String := "SERVICE_ID"

def integrationIdKey : String := "INTEGRATION_ID"

/-- Starts the service names if the Secret says nothing else. -/
def defaultServiceLabel : String := "osd"

/-- Name of the ConfigMap that stores a cluster's IDs. -/
def clusterConfigMapName (cluster : String) : String := cluster ++ "-pd-config"

/-- Service names start with `serviceLabel`; the last two IDs are known after provisioning. -/
structure TicketingConfig where
  escalationPolicyId : String
  autoResolveTimeout : UInt32
  acknowledgeTimeout : UInt32
  serviceLabel : String
  apiKey : String
  clusterId : String
  baseDomain : String
  serviceId : String
  integrationId : String
  deriving DecidableEq, Repr

namespace TicketingConfig

def empty : TicketingConfig := ⟨"", 0, 0, "", "", "", "", "", ""⟩

def forCluster (clusterId baseDomain : String) : TicketingConfig :=
  { empty with
    clusterId := clusterId, baseDomain := baseDomain, serviceLabel := defaultServiceLabel }

/-- How diagnostics show a config, without its token. -/
def shown (c : TicketingConfig) : String :=
  shownRecord "TicketingConfig" [
    ("escalation_policy_id", quoted c.escalationPolicyId),
    ("auto_resolve_timeout", toString c.autoResolveTimeout.toNat),
    ("acknowledge_timeout", toString c.acknowledgeTimeout.toNat),
    ("service_prefix", quoted c.serviceLabel),
    ("api_key", quoted "<redacted>"),
    ("cluster_id", quoted c.clusterId),
    ("base_domain", quoted c.baseDomain),
    ("service_id", quoted c.serviceId),
    ("integration_id", quoted c.integrationId)]

/-- Takes credentials and defaults from the operator's Secret. -/
def readSecret (c : TicketingConfig) (p : Payload) : TicketingConfig × Except ConfigError Unit :=
  let object := objectRef operatorNamespace apiKeySecret
  match p.required apiKeyKey object with
  | .error e => (c, .error e)
  | .ok apiKey =>
    let c := { c with apiKey := apiKey }
    match p.required escalationPolicyKey object with
    | .error e => (c, .error e)
    | .ok policy =>
      let c := { c with escalationPolicyId := policy }
      match p.requiredWord resolveTimeoutKey object with
      | .error e => (c, .error e)
      | .ok resolve =>
        let c := { c with autoResolveTimeout := resolve }
        match p.requiredWord acknowledgeTimeoutKey object with
        | .error e => (c, .error e)
        | .ok acknowledge =>
          ({ c with
              acknowledgeTimeout := acknowledge
              serviceLabel := p.optionalOr serviceLabelKey object defaultServiceLabel }, .ok ())

/-- Takes the stored IDs from a cluster's ConfigMap, which errors name as `object`. -/
def readIds (c : TicketingConfig) (object : String) (p : Payload) :
    TicketingConfig × Except ConfigError Unit :=
  match p.required serviceIdKey object with
  | .error e => (c, .error e)
  | .ok serviceId =>
    let c := { c with serviceId := serviceId }
    match p.required integrationIdKey object with
    | .error e => (c, .error e)
    | .ok integrationId => ({ c with integrationId := integrationId }, .ok ())

/-- What has to be set before provisioning, in the order it is checked. -/
def needed (c : TicketingConfig) : List (String × String) :=
  [("cluster_id", c.clusterId), ("base_domain", c.baseDomain), (apiKeyKey, c.apiKey),
    (escalationPolicyKey, c.escalationPolicyId)]

def validate (c : TicketingConfig) : Except ConfigError Unit :=
  match c.needed.find? fun f => f.2.isEmpty with
  | some f => .error (.emptyValue f.1 "ticketing config")
  | none => .ok ()

/-- The name of the cluster's service. -/
def serviceName (c : TicketingConfig) : String :=
  c.serviceLabel ++ "-" ++ c.clusterId ++ "." ++ c.baseDomain ++ "-hive-cluster"

def serviceDescription (c : TicketingConfig) : String :=
  c.clusterId ++ " - A managed hive created cluster"

end TicketingConfig

end Oncall.PagerDuty
