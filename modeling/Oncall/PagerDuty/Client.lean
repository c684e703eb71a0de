import Oncall.Http
import Oncall.PagerDuty.Call

/-!
The PagerDuty API over HTTP. Every call is one exchange, except that a listing asks for page after
page, each from the offset already reached, until a page is empty or says that no more follow.
-/

namespace Oncall.PagerDuty

open Http Json

/-- The public endpoint. -/
def defaultUrl : String := "https://api.pagerduty.com"

/-- How many services a page may hold. -/
def pageLimit : Nat := 100

/-- The API at a base address, with a token. -/
structure Client where
  baseUrl : String
  apiKey : String
  deriving DecidableEq

namespace Client

/-- Slashes at the end of the address are dropped. -/
def connect (baseUrl apiKey : String) : Client := ⟨trimEndSlashes baseUrl, apiKey⟩

/-- How diagnostics show a client, without its token. -/
def shown (c : Client) : String :=
  "PagerDutyClient \x7b base_url: " ++ quoted c.baseUrl ++ ", .. \x7d"

def headers (c : Client) : List (String × String) :=
  [("accept", "application/vnd.pagerduty+json;version=2"),
    ("authorization", "Token token=" ++ c.apiKey)]

def draft (c : Client) (method : Method) (path : String) : Draft :=
  ⟨method, c.baseUrl ++ path, [], c.headers, ""⟩

/-- A request with a JSON body. -/
def draftWith (c : Client) (path : String) (body : Value) : Draft :=
  { c.draft .post path with
    headers := c.headers ++ [("content-type", "application/json")], body := body.toString }

def servicePath (id : String) : String := "/services/" ++ id

/-- The body of a successful response; a refusal is reported for the named resource. -/
def body (d : Draft) (resource id : String) (p : Peer) : Except ApiError Bytes × Peer :=
  match p.exchange d with
  | (none, p) => (.error .transport, p)
  | (some r, p) =>
    (if r.isSuccess then .ok r.body else .error (.classify r.status r.body resource id), p)

def decoded {α : Type} (read? : Node → Option α) : Except ApiError Bytes → Except ApiError α
  | .error e => .error e
  | .ok body =>
    match readAs? read? body with
    | some a => .ok a
    | none => .error .decode

/-- The JSON object in a successful response. -/
def send {α : Type} (d : Draft) (resource id : String) (read? : Node → Option α) (p : Peer) :
    Except ApiError α × Peer :=
  ((decoded read? (body d resource id p).1), (body d resource id p).2)

/-- The request for the page that starts at an offset. -/
def pageDraft (c : Client) (query : String) (offset : Nat) : Draft :=
  { c.draft .get "/services" with
    pairs := [("query", query), ("include[]", "integrations"), ("limit", toString pageLimit),
      ("offset", toString offset)] }

def page (c : Client) (query : String) (offset : Nat) (p : Peer) :
    Except ApiError ServiceList × Peer :=
  send (c.pageDraft query offset) "services" query ServiceList.ofNode? p

theorem script_page_lt {c : Client} {query : String} {offset : Nat} {p q : Peer} {l : ServiceList}
    (h : c.page query offset p = (.ok l, q)) : q.script.length < p.script.length := by
  unfold page send body at h
  split at h
  · simp [decoded] at h
  · rename_i r p' hx
    simp only [Prod.mk.injEq] at h
    obtain ⟨-, rfl⟩ := h
    exact Peer.script_exchange_lt hx

/-- The services from an offset on, after those found before it. Each page uses up the script. -/
def listFrom (c : Client) (query : String) (found : List Service) (p : Peer) :
    Except ApiError (List Service) × Peer :=
  match _h : c.page query found.length p with
  | (.error e, q) => (.error e, q)
  | (.ok l, q) =>
    if !l.more || l.services.isEmpty then (.ok (found ++ l.services), q)
    else listFrom c query (found ++ l.services) q
  termination_by p.script.length
  decreasing_by exact script_page_lt _h

/-- Makes a call. -/
def answer (c : Client) : (call : Call) → Peer → call.Reply × Peer
  | .getService id, p =>
    send (c.draft .get (servicePath id)) "service" id (enveloped? "service" Service.ofNode?) p
  | .getIntegration serviceId id, p =>
    send (c.draft .get (servicePath serviceId ++ "/integrations/" ++ id)) "integration" id
      (enveloped? "integration" Integration.ofNode?) p
  | .getEscalationPolicy id, p =>
    send (c.draft .get ("/escalation_policies/" ++ id)) "escalation policy" id
      (enveloped? "escalation_policy" EscalationPolicy.ofNode?) p
  | .createService s, p =>
    send (c.draftWith "/services" (envelope "service" s.value)) "service" s.name
      (enveloped? "service" Service.ofNode?) p
  | .listServices query, p => c.listFrom query [] p
  | .createIntegration serviceId i, p =>
    send (c.draftWith (servicePath serviceId ++ "/integrations") (envelope "integration" i.value))
      "service" serviceId (enveloped? "integration" Integration.ofNode?) p
  | .deleteService id, p =>
    let (r, p) := body (c.draft .delete (servicePath id)) "service" id p
    (r.map fun _ => (), p)

end Client

end Oncall.PagerDuty
