import Oncall.PagerDuty.Call
import Oncall.PagerDuty.Ticketing
import Oncall.Workflow

/-!
Provisioning a cluster: its service is created, or the one that has its name is adopted, and gets
one integration for events. Jobs for one cluster run one at a time. The config is what is seen of a
job, so it shows what was already written when a job fails or is dropped.
-/

namespace Oncall.PagerDuty

/-- Name of the integration that alerts are sent to. -/
def integrationName : String := "V4 Alertmanager"

def integrationKind : String := "events_api_v2_inbound_integration"

def alertCreation : String := "create_alerts_and_incidents"

/-- What a PagerDuty workflow returns, with the config as it leaves it. -/
abbrev Outcome := TicketingConfig × Except Error String

abbrev Calls := Workflow Call Call.Reply TicketingConfig Outcome

def integrationToCreate : Integration := ⟨"", integrationName, integrationKind, none⟩

/-- The service that a config asks for. -/
def serviceToCreate (c : TicketingConfig) (policy : EscalationPolicy) : Service :=
  { id := ""
    name := c.serviceName
    description := c.serviceDescription
    escalationPolicy := policy.reference
    autoResolveTimeout := some c.autoResolveTimeout
    acknowledgementTimeout := some c.acknowledgeTimeout
    alertCreation := some alertCreation
    integrations := [] }

def Integration.isReusable (i : Integration) : Bool :=
  !i.id.isEmpty && i.name == integrationName && i.kind == integrationKind

/-- An integration that need not be created again. -/
def Service.reusable? (s : Service) : Option Integration :=
  s.integrations.find? Integration.isReusable

namespace TicketingConfig

def fail (c : TicketingConfig) (e : Error) : Calls := .done (c, .error e)

/-- The last step: the integration is known. -/
def finish (c : TicketingConfig) (i : Integration) : Calls :=
  .done ({ c with integrationId := i.id }, .ok i.id)

/-- The service is known; its integration is reused or created. -/
def withService (c : TicketingConfig) (s : Service) : Calls :=
  let c := { c with serviceId := s.id }
  match s.reusable? with
  | some i => c.finish i
  | none =>
    .call c (.createIntegration s.id integrationToCreate) fun
      | .ok i => c.finish i
      | .error e => c.fail (.api e)

/-- The name is taken: goes on with the service that has exactly this name, or returns the
rejection. -/
def adopt (c : TicketingConfig) (name : String) (rejection : ApiError) : Calls :=
  .call c (.listServices name) fun
    | .error _ => c.fail (.api rejection)
    | .ok services =>
      match services.find? fun s => s.name == name with
      | some s => c.withService s
      | none => c.fail (.api rejection)

/-- The policy is known: creates the service or adopts the one with its name. -/
def withPolicy (c : TicketingConfig) (policy : EscalationPolicy) : Calls :=
  let service := serviceToCreate c policy
  .call c (.createService service) fun
    | .ok s => c.withService s
    | .error e => if e.isDuplicateName then c.adopt service.name e else c.fail (.api e)

/-- Everything that is done under the cluster's lock. -/
def provisionCalls (c : TicketingConfig) : Calls :=
  .call c (.getEscalationPolicy c.escalationPolicyId) fun
    | .ok policy => c.withPolicy policy
    | .error e => c.fail (.policyNotFound c.escalationPolicyId e)

/-- A config that lacks something fails before any call and without the lock. -/
def provision (c : TicketingConfig) : Job Call Call.Reply TicketingConfig Outcome :=
  match c.validate with
  | .error e => .settled (c, .error (.config e))
  | .ok () => .locked c.clusterId c c.provisionCalls

end TicketingConfig

/-- A workflow of one call. -/
abbrev OneCall (α : Type) := Workflow Call Call.Reply Unit (Except Error α)

def getService (id : String) : OneCall Service :=
  .call () (.getService id) fun r => .done (r.mapError .api)

/-- The routing key of an integration; one without a key has the empty key. -/
def getIntegrationKey (serviceId integrationId : String) : OneCall String :=
  .call () (.getIntegration serviceId integrationId) fun r =>
    .done ((r.mapError .api).map fun i => i.integrationKey.getD "")

def deprovision (serviceId : String) : OneCall Unit :=
  .call () (.deleteService serviceId) fun r => .done (r.mapError .api)

end Oncall.PagerDuty
