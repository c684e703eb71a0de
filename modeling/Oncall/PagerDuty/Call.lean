import Oncall.PagerDuty.Error

/-!
The operations of the PagerDuty API as data, with the type of what each returns.
-/

namespace Oncall.PagerDuty

inductive Call where
  | getService (id : String)
  | getIntegration (serviceId integrationId : String)
  | getEscalationPolicy (id : String)
  | createService (service : Service)
  | listServices (query : String)
  | createIntegration (serviceId : String) (integration : Integration)
  | deleteService (id : String)
  deriving DecidableEq, Repr

namespace Call

abbrev Result : Call → Type
  | .getService _ => Service
  | .getIntegration _ _ => Integration
  | .getEscalationPolicy _ => EscalationPolicy
  | .createService _ => Service
  | .listServices _ => List Service
  | .createIntegration _ _ => Integration
  | .deleteService _ => Unit

abbrev Reply (c : Call) : Type := Except ApiError c.Result

def name : Call → String
  | .getService _ => "get_service"
  | .getIntegration _ _ => "get_integration"
  | .getEscalationPolicy _ => "get_escalation_policy"
  | .createService _ => "create_service"
  | .listServices _ => "list_services"
  | .createIntegration _ _ => "create_integration"
  | .deleteService _ => "delete_service"

/-- The object or text a call is about. -/
def subject : Call → String
  | .getService id | .getEscalationPolicy id | .deleteService id => id
  | .getIntegration _ id => id
  | .createService s => s.name
  | .listServices query => query
  | .createIntegration serviceId _ => serviceId

end Call

end Oncall.PagerDuty
