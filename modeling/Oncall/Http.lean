import Oncall.Text.Base64
import Oncall.Url.Form

/-!
HTTP exchanges with a scripted peer. A peer stands for all the servers there are: it answers
requests to any of their origins, one after the other, from its script. A request reaches it only if
its address leads to one of the origins, its headers may be sent, and the peer is reachable. A
request that gets no complete response fails, and nothing is sent twice. A response is a status and
a body: none names another address to go on to.
-/

namespace Oncall.Http

inductive Method where
  | get
  | post
  | delete
  deriving DecidableEq, Repr

def Method.text : Method → String
  | .get => "GET"
  | .post => "POST"
  | .delete => "DELETE"

/-- Where a server is connected to. -/
structure Origin where
  secure : Bool
  authority : List Char
  deriving DecidableEq, Repr

/-- The origin of a server without encryption. -/
def Origin.plain (authority : String) : Origin := ⟨false, authority.toList⟩

/-- The server that an address leads to. -/
def origin (u : Url) : Origin := ⟨u.secure, u.authority⟩

/-- A request as the peer receives it at one of its origins. -/
structure Request where
  origin : Origin
  method : Method
  target : String
  headers : List (String × String)
  body : String
  deriving DecidableEq, Repr

structure Response where
  status : Nat
  body : Bytes
  deriving DecidableEq, Repr

def Response.isSuccess (r : Response) : Bool := 200 ≤ r.status && r.status < 300

/-- What a peer does with a request: it answers, breaks off within the body, or closes the
connection. -/
inductive Delivery where
  | response (status : Nat) (body : Bytes)
  | truncated
  | dropped
  deriving DecidableEq, Repr

structure Peer where
  origins : List Origin
  reachable : Bool
  script : List Delivery
  received : List Request
  deriving DecidableEq, Repr

/-- A request as its sender states it; pairs are added to the query of the address. -/
structure Draft where
  method : Method
  url : String
  pairs : List (String × String)
  headers : List (String × String)
  body : String
  deriving DecidableEq, Repr

/-- A header value has no control characters other than the tab. -/
def isLegalValue (value : String) : Bool :=
  value.toList.all fun c => (0x20 ≤ c.toNat || c = '\t') && c.toNat ≠ 0x7F

/-- Blanks around a header value are not part of it. -/
def receivedValue (value : String) : String :=
  String.ofList (Parts.trim (fun c => c = ' ' || c = '\t') value.toList)

/-- How the login of an address is sent. -/
def loginHeader (l : Login) : String × String :=
  ("authorization",
    "Basic " ++ String.ofList (Base64.encode (Utf8.encode (l.user ++ ":" ++ l.password).toList)))

/-- The headers that an address makes of its login. -/
def loginHeaders (u : Url) : List (String × String) := u.login.toList.map loginHeader

/-- The request of a draft for an address; the login of the address goes before other headers. -/
def Draft.request (d : Draft) (u : Url) : Request :=
  ⟨origin u, d.method, (u.addPairs d.pairs).target,
    loginHeaders u ++ d.headers.map fun h => (h.1, receivedValue h.2), d.body⟩

/-- Some statuses never carry a body. -/
def hasBody (status : Nat) : Bool := status ≠ 204 && status ≠ 304

namespace Delivery

def response? : Delivery → Option Response
  | .response status body => some ⟨status, if hasBody status then body else []⟩
  | .truncated | .dropped => none

end Delivery

namespace Peer

/-- A peer whose script is used up closes every connection. -/
def next (p : Peer) : Delivery := p.script.head?.getD .dropped

/-- The peer takes a request and answers it. -/
def accept (p : Peer) (r : Request) : Option Response × Peer :=
  (p.next.response?, { p with script := p.script.tail, received := p.received ++ [r] })

/-- Whether the request gets as far as the peer. -/
def admits (p : Peer) (d : Draft) (u : Url) : Bool :=
  p.reachable && p.origins.contains (origin u) && d.headers.all fun h => isLegalValue h.2

/-- Sends a request to an address; none if no complete response came back. -/
def send (p : Peer) (d : Draft) (u : Url) : Option Response × Peer :=
  if p.admits d u then p.accept (d.request u) else (none, p)

/-- Sends a request to the address that it states. -/
def exchange (p : Peer) (d : Draft) : Option Response × Peer :=
  match Url.parse? d.url with
  | none => (none, p)
  | some u => p.send d u

theorem script_send_lt {p q : Peer} {d : Draft} {u : Url} {r : Response}
    (h : p.send d u = (some r, q)) :
    q.script.length < p.script.length := by
  unfold send at h
  split at h
  · simp only [accept, next, Prod.mk.injEq] at h
    obtain ⟨hr, rfl⟩ := h
    cases hs : p.script with
    | nil => simp [hs, Delivery.response?] at hr
    | cons x xs => simp
  · cases h

/-- A response uses up the script. -/
theorem script_exchange_lt {p q : Peer} {d : Draft} {r : Response}
    (h : p.exchange d = (some r, q)) :
    q.script.length < p.script.length := by
  unfold exchange at h
  split at h
  · cases h
  · exact script_send_lt h

end Peer

end Oncall.Http
