import Oncall.PagerDuty.Client
import Oncall.Proofs.Http.Exchange

/-! What a call sends. Every call but a listing is made of one draft, and leads to one request: the
draft's, if it gets as far as the peer, whatever the peer makes of it. All requests of a call have
the method of the call. -/

namespace Oncall.PagerDuty

open Http Json

/-- The method of a call's requests. -/
def Call.method : Call → Method
  | .getService _ | .getIntegration _ _ | .getEscalationPolicy _ | .listServices _ => .get
  | .createService _ | .createIntegration _ _ => .post
  | .deleteService _ => .delete

namespace Client

/-- The requests that a call sends. -/
def sent (c : Client) (call : Call) (p : Peer) : List Request :=
  (c.answer call p).2.received.drop p.received.length

/-- The one draft of a call that is no listing. -/
def draft? (c : Client) : Call → Option Draft
  | .getService id => some (c.draft .get (servicePath id))
  | .getIntegration serviceId id =>
    some (c.draft .get (servicePath serviceId ++ "/integrations/" ++ id))
  | .getEscalationPolicy id => some (c.draft .get ("/escalation_policies/" ++ id))
  | .createService s => some (c.draftWith "/services" (envelope "service" s.value))
  | .listServices _ => none
  | .createIntegration serviceId i => some
      (c.draftWith (servicePath serviceId ++ "/integrations") (envelope "integration" i.value))
  | .deleteService id => some (c.draft .delete (servicePath id))

theorem snd_body (d : Draft) (resource id : String) (p : Peer) :
    (body d resource id p).2 = (p.exchange d).2 := by
  unfold body
  split
  next h => rw [h]
  next h => rw [h]

theorem snd_send {α : Type} (d : Draft) (resource id : String) (read? : Node → Option α)
    (p : Peer) : (send d resource id read? p).2 = (p.exchange d).2 := by
  rw [send, snd_body]

/-- A call that is no listing leaves the peer as the exchange of its draft does. -/
theorem snd_answer {c : Client} {call : Call} {d : Draft} (h : c.draft? call = some d) (p : Peer) :
    (c.answer call p).2 = (p.exchange d).2 := by
  cases call with
  | listServices query => cases h
  | deleteService id =>
    cases h
    rw [answer, snd_body]
  | _ =>
    cases h
    rw [answer, snd_send]

/-- So it sends one request, or none if it does not get there. -/
theorem received_answer {c : Client} {call : Call} {d : Draft} (h : c.draft? call = some d)
    (p : Peer) :
    (c.answer call p).2.received = p.received ++ (p.carries d).toList := by
  rw [snd_answer h, Peer.received_exchange]

theorem sent_eq {c : Client} {call : Call} {d : Draft} (h : c.draft? call = some d) (p : Peer) :
    c.sent call p = (p.carries d).toList := by
  rw [sent, received_answer h, List.drop_left]

/-! ### Methods -/

theorem method_of_draft? {c : Client} {call : Call} {d : Draft} (h : c.draft? call = some d) :
    d.method = call.method := by
  cases call <;> cases h <;> rfl

theorem grows_listFrom (c : Client) (query : String) (found : List Service) (p : Peer) :
    p.Grows .get (c.listFrom query found p).2 := by
  have hpage : ∀ {r q} {found : List Service} {p : Peer},
      c.page query found.length p = (r, q) → p.Grows .get q := fun {r q found p} hq => by
    have hexchange := p.grows_exchange (c.pageDraft query found.length)
    rw [page] at hq
    rwa [← snd_send _ "services" query ServiceList.ofNode?, hq] at hexchange
  fun_induction listFrom c query found p with
  | case1 found p e q hq => exact hpage hq
  | case2 found p l q hq hlast => exact hpage hq
  | case3 found p l q hq hmore ih => exact (hpage hq).trans ih

theorem grows_answer (client : Client) (c : Call) (p : Peer) :
    p.Grows c.method (client.answer c p).2 := by
  cases hd : client.draft? c with
  | some d =>
    rw [snd_answer hd, ← method_of_draft? hd]
    exact p.grows_exchange d
  | none =>
    -- A listing has a draft for each page.
    cases c with
    | listServices query => exact grows_listFrom client query [] p
    | _ => cases hd

end Client

end Oncall.PagerDuty
