import Oncall.Json.Record
import Oncall.PagerDuty.Model

/-!
PagerDuty objects as JSON. Empty IDs and descriptions and absent options are left out, and a service
is written without its integrations.
-/

namespace Oncall.PagerDuty

open Json

/-- The members of an object, those that are absent left out. -/
def membersOf (fields : List (String × Option Value)) : Value :=
  .object (fields.filterMap fun f => f.2.map (f.1, ·))

def unlessEmpty (s : String) : Option Value := if s.isEmpty then none else some (.string s)

def Reference.value (r : Reference) : Value :=
  membersOf [("id", some (.string r.id)), ("type", some (.string r.kind))]

def EscalationPolicy.value (p : EscalationPolicy) : Value :=
  membersOf [("id", some (.string p.id)), ("name", some (.string p.name))]

def Integration.value (i : Integration) : Value :=
  membersOf [
    ("id", unlessEmpty i.id),
    ("name", some (.string i.name)),
    ("type", some (.string i.kind)),
    ("integration_key", i.integrationKey.map .string)]

def seconds (n : UInt32) : Value := .number (.integer n.toNat)

def Service.value (s : Service) : Value :=
  membersOf [
    ("id", unlessEmpty s.id),
    ("name", some (.string s.name)),
    ("description", unlessEmpty s.description),
    ("escalation_policy", some s.escalationPolicy.value),
    ("auto_resolve_timeout", s.autoResolveTimeout.map seconds),
    ("acknowledgement_timeout", s.acknowledgementTimeout.map seconds),
    ("alert_creation", s.alertCreation.map .string)]

/-- An object inside an object with one member. -/
def envelope (name : String) (v : Value) : Value := .object [(name, v)]

def Reference.ofNode? (v : Node) : Option Reference := do
  match ← v.fields? ["id", "type"] with
  | [id, kind] => some ⟨← required Node.string? id, ← orElse "" Node.string? kind⟩
  | _ => none

def EscalationPolicy.ofNode? (v : Node) : Option EscalationPolicy := do
  match ← v.fields? ["id", "name"] with
  | [id, name] => some ⟨← required Node.string? id, ← orElse "" Node.string? name⟩
  | _ => none

def Integration.ofNode? (v : Node) : Option Integration := do
  match ← v.fields? ["id", "name", "type", "integration_key"] with
  | [id, name, kind, key] =>
    some ⟨← orElse "" Node.string? id, ← orElse "" Node.string? name, ← orElse "" Node.string? kind,
      ← optional Node.string? key⟩
  | _ => none

def Service.ofNode? (v : Node) : Option Service := do
  match ← v.fields? ["id", "name", "description", "escalation_policy", "auto_resolve_timeout",
    "acknowledgement_timeout", "alert_creation", "integrations"] with
  | [id, name, description, policy, resolve, acknowledge, alerts, integrations] =>
    some {
      id := ← orElse "" Node.string? id
      name := ← required Node.string? name
      description := ← orElse "" Node.string? description
      escalationPolicy := ← required Reference.ofNode? policy
      autoResolveTimeout := ← optional Node.word32? resolve
      acknowledgementTimeout := ← optional Node.word32? acknowledge
      alertCreation := ← optional Node.string? alerts
      integrations := ← orElse [] (Node.listOf? Integration.ofNode?) integrations }
  | _ => none

/-- The object inside an object with one member. -/
def enveloped? {α : Type} (name : String) (read? : Node → Option α) (v : Node) : Option α := do
  match ← v.fields? [name] with
  | [inner] => required read? inner
  | _ => none

/-- One page of a listing. -/
structure ServiceList where
  services : List Service
  more : Bool
  deriving DecidableEq

def ServiceList.ofNode? (v : Node) : Option ServiceList := do
  match ← v.fields? ["services", "more"] with
  | [services, more] =>
    some ⟨← orElse [] (Node.listOf? Service.ofNode?) services, ← orElse false Node.bool? more⟩
  | _ => none

/-- What an error response says: a message and its details. -/
structure ErrorDetails where
  message : String
  errors : List String

def ErrorDetails.ofNode? (v : Node) : Option ErrorDetails := do
  match ← v.fields? ["message", "errors"] with
  | [message, errors] =>
    some ⟨← orElse "" Node.string? message, ← orElse [] (Node.listOf? Node.string?) errors⟩
  | _ => none

/-- Reads a complete JSON text. -/
def readAs? {α : Type} (read? : Node → Option α) (body : Bytes) : Option α :=
  (Node.read? body).bind read?

end Oncall.PagerDuty
