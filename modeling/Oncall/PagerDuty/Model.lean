/-!
The PagerDuty objects that provisioning handles.
-/

namespace Oncall.PagerDuty

/-- A typed reference to another object. -/
structure Reference where
  id : String
  kind : String
  deriving DecidableEq, Repr, Inhabited

structure EscalationPolicy where
  id : String
  name : String
  deriving DecidableEq, Repr, Inhabited

/-- An inbound integration of a service; its ID is empty until it is created. -/
structure Integration where
  id : String
  name : String
  kind : String
  integrationKey : Option String
  deriving DecidableEq, Repr, Inhabited

/-- A service; its ID is empty until it is created. -/
structure Service where
  id : String
  name : String
  description : String
  escalationPolicy : Reference
  autoResolveTimeout : Option UInt32
  acknowledgementTimeout : Option UInt32
  alertCreation : Option String
  integrations : List Integration
  deriving DecidableEq, Repr, Inhabited

/-- The reference that embeds a policy in a service. -/
def EscalationPolicy.reference (p : EscalationPolicy) : Reference :=
  ⟨p.id, "escalation_policy_reference"⟩

end Oncall.PagerDuty
