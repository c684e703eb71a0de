import Oncall.PagerDuty.Provision
import Oncall.PagerDuty.Resolve
import Oncall.Telemetry

/-!
What PagerDuty workflows log. Every event follows a reply, and says what came of it before anything
else is asked.
-/

namespace Oncall.PagerDuty

def clientTarget : String := "pdo_pagerduty::client"

def provisionerTarget : String := "pdo_pagerduty::provisioner"

def configTarget : String := "pdo_pagerduty::config"

def lookupTarget : String := "pdo_common::resolve"

/-- An integration that need not be created. -/
def Service.reuseEvents (s : Service) : List LogEvent :=
  s.reusable?.toList.map fun i => ⟨.info, provisionerTarget, "Reusing existing integration",
    [("service_id", s.id), ("integration_id", i.id)]⟩

def Service.createdEvents (s : Service) : List LogEvent :=
  [⟨.debug, clientTarget, "Created service", [("service_id", s.id), ("name", s.name)]⟩,
    ⟨.info, provisionerTarget, "Created PagerDuty service", [("service_id", s.id)]⟩]

/-- The service that is found by its name is adopted. -/
def adoptionEvents (name : String) (services : List Service) : List LogEvent :=
  match services.find? fun s => s.name == name with
  | none => []
  | some s => ⟨.info, provisionerTarget, "Adopted existing PagerDuty service",
      [("name", name), ("service_id", s.id)]⟩ :: s.reuseEvents

/-- What is logged about the reply to a call. -/
def Call.events : (c : Call) → c.Reply → List LogEvent
  | .getService _, .ok s => [⟨.debug, provisionerTarget, "Fetched service", [("name", s.name)]⟩]
  | .createService _, .ok s => s.createdEvents ++ s.reuseEvents
  | .listServices name, .ok services => adoptionEvents name services
  | .listServices name, .error e =>
    [⟨.warn, provisionerTarget, "Failed to list services after duplicate name",
      [("name", name), ("error", e.message)]⟩]
  | .createIntegration serviceId _, .ok i =>
    [⟨.debug, clientTarget, "Created integration",
      [("service_id", serviceId), ("integration_id", i.id)]⟩]
  | .deleteService _, .ok () => [⟨.info, provisionerTarget, "Deleted PagerDuty service", []⟩]
  | _, _ => []

namespace TicketingConfig

/-- An optional key that is missing or empty, for which the default is taken. -/
def defaultEvents (p : Payload) : List LogEvent :=
  match p.required serviceLabelKey (objectRef operatorNamespace apiKeySecret) with
  | .ok _ => []
  | .error e => [⟨.debug, lookupTarget, "Using default for optional key",
      [("key", serviceLabelKey), ("error", e.message), ("default", defaultServiceLabel)]⟩]

/-- What is logged about an object that a config is filled from. -/
def events : (c : ObjectCall) → c.Reply → List LogEvent
  | .secret _ _, .ok p =>
    match empty.readSecret p with
    | (_, .error _) => []
    | (c, .ok ()) => defaultEvents p ++ [⟨.debug, configTarget, "Parsed PagerDuty config",
        [("escalation_policy", c.escalationPolicyId), ("service_prefix", c.serviceLabel)]⟩]
  | _, _ => []

end TicketingConfig

end Oncall.PagerDuty
