import Oncall.PagerDuty.Provision
import Oncall.Rounds

/-!
PagerDuty in memory, for provisioning many clusters at once. Names are unique, IDs are counted,
policies may be missing, and the first listings or integrations may fail.
-/

namespace Oncall.PagerDuty

structure Memory where
  services : List Service
  createdServices : Nat
  createdIntegrations : Nat
  missingPolicies : List String
  failIntegrations : Nat
  failLists : Nat

namespace Memory

def boom : ApiError := .http 500 "boom" []

def findService (m : Memory) (id : String) : Except ApiError Service :=
  match m.services.find? fun s => s.id == id with
  | some s => .ok s
  | none => .error (.notFound "service" id)

def findIntegration (m : Memory) (serviceId id : String) : Except ApiError Integration :=
  let service? := (m.findService serviceId).toOption
  match service?.bind fun s => s.integrations.find? fun i => i.id == id with
  | some i => .ok i
  | none => .error (.notFound "integration" id)

def findPolicy (m : Memory) (id : String) : Except ApiError EscalationPolicy :=
  if m.missingPolicies.contains id then .error (.notFound "escalation policy" id) else .ok ⟨id, ""⟩

/-- Adds an integration to every service with the ID. -/
def attach (i : Integration) (id : String) (services : List Service) : List Service :=
  services.map fun s => if s.id = id then { s with integrations := s.integrations ++ [i] } else s

def createService (m : Memory) (s : Service) : Except ApiError Service × Memory :=
  if m.services.any fun t => t.name == s.name then (.error (.duplicateName "taken"), m)
  else
    let s := { s with id := "S" ++ toString (m.createdServices + 1) }
    (.ok s, { m with services := m.services ++ [s], createdServices := m.createdServices + 1 })

def listServices (m : Memory) (query : String) : Except ApiError (List Service) × Memory :=
  if m.failLists = 0 then (.ok (m.services.filter fun s => occursIn query.toList s.name.toList), m)
  else (.error boom, { m with failLists := m.failLists - 1 })

def createIntegration (m : Memory) (serviceId : String) (i : Integration) :
    Except ApiError Integration × Memory :=
  if m.failIntegrations = 0 then
    let i := { i with id := "I" ++ toString (m.createdIntegrations + 1) }
    (.ok i, { m with
      services := attach i serviceId m.services, createdIntegrations := m.createdIntegrations + 1 })
  else (.error boom, { m with failIntegrations := m.failIntegrations - 1 })

def answer : (call : Call) → Memory → call.Reply × Memory
  | .getService id, m => (m.findService id, m)
  | .getIntegration serviceId id, m =>
    (m.findIntegration serviceId id, m)
  | .getEscalationPolicy id, m =>
    (m.findPolicy id, m)
  | .createService s, m => m.createService s
  | .listServices query, m => m.listServices query
  | .createIntegration serviceId i, m => m.createIntegration serviceId i
  | .deleteService id, m =>
    match m.findService id with
    | .ok _ => (.ok (), { m with services := m.services.filter fun s => s.id != id })
    | .error e => (.error e, m)

end Memory

/-- A config to provision, and the round after whose poll the job is dropped, if any. -/
structure ProvisionRequest where
  config : TicketingConfig
  dropAfter : Option Nat

/-- A provisioning makes at most four calls, and every round brings the one at the head of its queue
forward. -/
def roundsNeeded (jobs delay : Nat) : Nat := jobs * (4 * (delay + 1) + 2) + 1

/-- Provisions all configs at once, each call taking `delay` further polls. -/
def provisionAll (requests : List ProvisionRequest) (delay : Nat) (m : Memory) :
    List (Member Call Call.Reply TicketingConfig Outcome) × Shared Call Memory :=
  rounds ⟨Memory.answer, fun _ => delay⟩ (roundsNeeded requests.length delay) 1
    (requests.map fun r => ⟨.fresh r.config.provision, r.dropAfter⟩) ⟨[], m, []⟩

end Oncall.PagerDuty
