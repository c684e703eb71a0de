import Oncall.Proofs.PagerDuty.Listing
import Oncall.Proofs.PagerDuty.Transcript

/-! Adopting a service over HTTP. When PagerDuty rejects a name as taken, the services under that name
are listed page after page. The deliveries that are still to come decide what is listed: all services
of the pages, or nothing as soon as one delivery is no page. A provisioning goes on with the first
service listed that has exactly its name, and returns the rejection if there is none. -/

namespace Oncall

namespace PagerDuty

open Http Json

/-! ### Listing -/

/-- The services that a script of deliveries lists: those of its pages, up to one that is empty or
says that no more follow. A script with something else before that, or without such a page, lists
nothing. -/
def listed? : List Delivery → Option (List Service)
  | [] => none
  | d :: ds => (pageIn d).bind fun l =>
    if !l.more || l.services.isEmpty then some l.services
    else (listed? ds).map (l.services ++ ·)

theorem listed?_script (p : Peer) : listed? p.script = (pageIn p.next).bind fun l =>
    if !l.more || l.services.isEmpty then some l.services
    else (listed? p.script.tail).map (l.services ++ ·) := by
  unfold Peer.next
  cases p.script <;> rfl

namespace Client

variable {c : Client} {u : Url} {p : Peer}

/-- A page is the one that the next delivery brings. -/
theorem toOption_page (h : c.Reaches u p) (query : String) (offset : Nat) :
    (c.page query offset p).1.toOption = pageIn p.next := by
  rw [page, send, body, exchange_pageDraft h, pageIn]
  cases p.next.response? with
  | none => rfl
  | some r =>
    dsimp only [Option.bind_some]
    split
    · rw [decoded]
      cases readAs? ServiceList.ofNode? r.body <;> rfl
    · rfl

/-- A listing returns what was found before and what the script lists, or it fails. -/
theorem toOption_listFrom (h : c.Reaches u p) (query : String) (found : List Service) :
    (c.listFrom query found p).1.toOption = (listed? p.script).map (found ++ ·) := by
  fun_induction listFrom c query found p with
  | case1 found p e q hq =>
    have hpage := toOption_page h query found.length
    rw [hq] at hpage
    rw [listed?_script, ← hpage]
    rfl
  | case2 found p l q hq hlast =>
    have hpage := toOption_page h query found.length
    rw [hq] at hpage
    rw [listed?_script, ← hpage]
    dsimp only [Except.toOption, Option.bind_some]
    rw [if_pos hlast]
    rfl
  | case3 found p l q hq hmore ih =>
    have hpage := toOption_page h query found.length
    have htaken := page_snd h query found.length
    rw [hq] at hpage htaken
    subst htaken
    rw [ih (h.taken _), listed?_script p, ← hpage]
    dsimp only [Except.toOption, Option.bind_some]
    rw [if_neg hmore, Option.map_map]
    congr 1
    funext services
    exact List.append_assoc ..

theorem ok_listServices_iff (h : c.Reaches u p) (query : String) (services : List Service) :
    (c.answer (.listServices query) p).1 = .ok services ↔ listed? p.script = some services := by
  have hlist := toOption_listFrom h query []
  simp only [List.nil_append, Option.map_id'] at hlist
  rw [← hlist, answer]
  cases (c.listFrom query [] p).1 <;> simp [Except.toOption]

end Client

/-! ### Rejection -/

/-- The name in use is a text of the response. -/
theorem ApiError.mem_of_duplicateName {status : Nat} {body : Bytes} {resource id message : String}
    (h : classify status body resource id = .duplicateName message) :
    message ∈ (ErrorDetails.ofBody body).message :: (ErrorDetails.ofBody body).errors := by
  unfold classify at h
  split at h
  · cases h
  · dsimp only at h
    split at h
    next e he =>
      cases h
      exact List.mem_cons_of_mem _ (List.mem_of_find?_eq_some he)
    next =>
      split at h
      · cases h
        exact List.mem_cons_self
      · cases h

/-- A call that is refused got a response that says why. -/
theorem Client.refused_send {α : Type} {d : Draft} {resource id : String} {read? : Node → Option α}
    {e : ApiError} {p q : Peer} (h : send d resource id read? p = (.error e, q))
    (hsent : e ≠ .transport) (hread : e ≠ .decode) :
    ∃ r, p.exchange d = (some r, q) ∧ ApiError.classify r.status r.body resource id = e := by
  unfold send body at h
  rcases hx : p.exchange d with ⟨_ | r, p'⟩
  · rw [hx] at h
    cases h
    exact absurd rfl hsent
  · rw [hx] at h
    obtain ⟨hreply, rfl⟩ := Prod.mk.inj h
    refine ⟨r, rfl, ?_⟩
    dsimp only at hreply
    split at hreply
    · rw [decoded] at hreply
      split at hreply
      · cases hreply
      · cases hreply
        exact absurd rfl hread
    · exact Except.error.inj hreply

/-- The response to a rejected creation says why, and the client reaches the peer for pages too. -/
theorem Client.rejected {client : Client} {s : Service} {message : String} {p q : Peer}
    (h : client.answer (.createService s) p = (.error (.duplicateName message), q)) :
    (∃ u, client.Reaches u q) ∧ ∃ r, p.next.response? = some r ∧
      message ∈ (ErrorDetails.ofBody r.body).message :: (ErrorDetails.ofBody r.body).errors := by
  obtain ⟨r, hx, hclassify⟩ := refused_send h nofun nofun
  obtain ⟨u, hu, hadmits, hr, rfl⟩ := Peer.exchange_of_some hx
  refine ⟨⟨u, hu, ?_⟩, r, hr, ApiError.mem_of_duplicateName hclassify⟩
  simp only [Peer.admits, draftWith, List.all_append, Bool.and_eq_true] at hadmits
  simp only [Peer.admits, Peer.taken, Bool.and_eq_true]
  exact ⟨hadmits.1, hadmits.2.1⟩

/-! ### Provisioning -/

section Run

variable {W : Type} {answer : (c : Call) → W → c.Reply × W} {c : TicketingConfig} {w w' : W}

theorem adopt_of_listed {services : List Service} {s : Service} (rejection : ApiError)
    (hlist : answer (.listServices c.serviceName) w = (.ok services, w'))
    (hs : named c.serviceName services = some s) :
    (c.adopt c.serviceName rejection).run answer w = (c.withService s).run answer w' ∧
    (c.adopt c.serviceName rejection).transcript answer w =
      ⟨.listServices c.serviceName, .ok services⟩ :: (c.withService s).transcript answer w' := by
  rw [named] at hs
  rw [TicketingConfig.adopt, Workflow.run_call, Workflow.transcript, hlist]
  dsimp only
  rw [hs]
  exact ⟨rfl, rfl⟩

theorem adopt_of_unlisted (rejection : ApiError)
    (hnone : ∀ services, (answer (.listServices c.serviceName) w).1 = .ok services →
      named c.serviceName services = none) :
    (c.adopt c.serviceName rejection).run answer w =
      ((c, .error (.api rejection)), (answer (.listServices c.serviceName) w).2) ∧
    (c.adopt c.serviceName rejection).transcript answer w =
      [⟨.listServices c.serviceName, (answer (.listServices c.serviceName) w).1⟩] := by
  rw [TicketingConfig.adopt, Workflow.run_call, Workflow.transcript]
  generalize answer (.listServices c.serviceName) w = r at hnone
  obtain ⟨_ | services, w'⟩ := r
  · exact ⟨rfl, rfl⟩
  · have hnone := hnone services rfl
    rw [named] at hnone
    dsimp only
    rw [hnone]
    exact ⟨rfl, rfl⟩

/-- After a rejection, what remains of a provisioning is to adopt a service. -/
theorem provision_of_rejected {policy : EscalationPolicy} {message : String} {w₁ w₂ : W}
    (hvalid : c.validate = .ok ())
    (hpolicy : answer (.getEscalationPolicy c.escalationPolicyId) w = (.ok policy, w₁))
    (hrejected : answer (.createService (serviceToCreate c policy)) w₁ =
      (.error (.duplicateName message), w₂)) :
    c.provision.body.run answer w =
      (c.adopt c.serviceName (.duplicateName message)).run answer w₂ ∧
    c.provision.body.transcript answer w =
      ⟨.getEscalationPolicy c.escalationPolicyId, .ok policy⟩ ::
        ⟨.createService (serviceToCreate c policy), .error (.duplicateName message)⟩ ::
        (c.adopt c.serviceName (.duplicateName message)).transcript answer w₂ := by
  rw [TicketingConfig.provision_of_valid hvalid]
  simp only [Job.body, TicketingConfig.provisionCalls, TicketingConfig.withPolicy,
    Workflow.run_call, Workflow.transcript, hpolicy, hrejected]
  exact ⟨rfl, rfl⟩

end Run

/-- Whatever PagerDuty sends once it rejected the name of a provisioning: the first of all services
listed that has this name is gone on with. If there is none, be it that they could not all be listed,
the rejection is returned with its own message, and nothing is sent any more but requests for
pages. -/
theorem provision_adopts_listed (client : Client) (c : TicketingConfig) {policy : EscalationPolicy}
    {message : String} {p p₁ p₂ : Peer} (hvalid : c.validate = .ok ())
    (hpolicy : client.answer (.getEscalationPolicy c.escalationPolicyId) p = (.ok policy, p₁))
    (hrejected : client.answer (.createService (serviceToCreate c policy)) p₁ =
      (.error (.duplicateName message), p₂)) :
    let xs := c.provision.body.transcript client.answer p
    let o := (c.provision.body.run client.answer p).1
    let q := (c.provision.body.run client.answer p).2
    (∀ before s after, listed? p₂.script = some (before ++ s :: after) →
      (∀ t ∈ before, t.name ≠ c.serviceName) → s.name = c.serviceName →
      ∃ ys, Finishes c s ys o ∧ xs =
        ⟨.getEscalationPolicy c.escalationPolicyId, .ok policy⟩ ::
        ⟨.createService (serviceToCreate c policy), .error (.duplicateName message)⟩ ::
        ⟨.listServices c.serviceName, .ok (before ++ s :: after)⟩ :: ys) ∧
    ((∀ services, listed? p₂.script = some services → ∀ t ∈ services, t.name ≠ c.serviceName) →
      o = (c, .error (.api (.duplicateName message))) ∧
      xs.map Answered.call = [.getEscalationPolicy c.escalationPolicyId,
        .createService (serviceToCreate c policy), .listServices c.serviceName] ∧
      p₂.Grows .get q) ∧
    ∃ r, p₁.next.response? = some r ∧
      message ∈ (ErrorDetails.ofBody r.body).message :: (ErrorDetails.ofBody r.body).errors := by
  obtain ⟨⟨u, hreaches⟩, hmessage⟩ := Client.rejected hrejected
  obtain ⟨hrun, htranscript⟩ := provision_of_rejected hvalid hpolicy hrejected
  intro xs o q
  simp only [xs, o, q, hrun, htranscript]
  refine ⟨fun before s after hlisted hbefore hs => ?_, fun hnone => ?_, hmessage⟩
  · have hlist := (Client.ok_listServices_iff hreaches c.serviceName _).2 hlisted
    obtain ⟨hadopts, hcalls⟩ := adopt_of_listed (.duplicateName message)
      (Prod.ext hlist rfl) (named_middle hbefore hs)
    rw [hadopts, hcalls]
    exact ⟨_, finishes_run client.answer c s _, rfl⟩
  · have hunlisted : ∀ services, (client.answer (.listServices c.serviceName) p₂).1 = .ok services →
        named c.serviceName services = none := fun services hok =>
      named_eq_none_iff.2 (hnone services ((Client.ok_listServices_iff hreaches _ _).1 hok))
    obtain ⟨hreturns, hcalls⟩ := adopt_of_unlisted (.duplicateName message) hunlisted
    rw [hreturns, hcalls]
    exact ⟨rfl, rfl, client.grows_answer (.listServices c.serviceName) p₂⟩

/-- A call that gets as far as the peer uses up one delivery. -/
theorem Client.script_answer (client : Client) (call : Call) {d : Draft} {p : Peer}
    (hd : client.draft? call = some d) (hsent : (p.carries d).isSome) :
    (client.answer call p).2.script = p.script.tail := by
  obtain ⟨r, hr⟩ := Option.isSome_iff_exists.1 hsent
  rw [snd_answer hd, Peer.exchange_eq, hr]
  rfl

/-- A match behind a near match, with one page still to come: the match is adopted if that page comes,
and the rejection returned if it does not. -/
theorem provision_adopts_listed_two_pages :
    let c := { TicketingConfig.forCluster "c" "d" with apiKey := "k", escalationPolicyId := "e" }
    let longer : Service := ⟨"P1", c.serviceName ++ "-2", "", ⟨"e", ""⟩, none, none, none, []⟩
    let exact : Service := { longer with id := "P2", name := c.serviceName }
    let peer (last : Delivery) : Peer := ⟨[.plain "pd"], true,
      [.response 200 (Utf8.encode
          (envelope "escalation_policy" (membersOf [("id", some (.string "e"))])).toString.toList),
        .response 400 (Utf8.encode nameTaken.toList),
        .response 200 (pageBody [longer, exact] true), last], []⟩
    let ends (last : Delivery) := (c.provision.body.run lister.answer (peer last)).1
    (∃ ys, Finishes c exact ys (ends (.response 200 (pageBody [] false)))) ∧
      ends .truncated = (c, .error (.api (.duplicateName nameTaken))) := by
  intro c longer exact peer ends
  let getPolicy : Call := .getEscalationPolicy c.escalationPolicyId
  let create : Call := .createService (serviceToCreate c ⟨"e", ""⟩)
  let empty : Delivery := .response 200 (pageBody [] false)
  have hvalid : c.validate = .ok () := by decide
  have hcalls : ∀ last ∈ [empty, .truncated], ∃ p₁ p₂,
      lister.answer getPolicy (peer last) = (.ok ⟨"e", ""⟩, p₁) ∧
      lister.answer create p₁ = (.error (.duplicateName nameTaken), p₂) ∧
      p₂.script = [.response 200 (pageBody [longer, exact] true), last] := by
    have hpolicy : ∀ last ∈ [empty, .truncated],
        (lister.answer getPolicy (peer last)).1 = .ok ⟨"e", ""⟩ ∧
        ((peer last).carries (lister.draft .get ("/escalation_policies/" ++ "e"))).isSome := by
      decide +kernel
    have hrejected : ∀ last ∈ [empty, .truncated],
        (lister.answer create (lister.answer getPolicy (peer last)).2).1 =
          .error (.duplicateName nameTaken) ∧
        ((lister.answer getPolicy (peer last)).2.carries (lister.draftWith "/services"
          (envelope "service" (serviceToCreate c ⟨"e", ""⟩).value))).isSome := by
      decide +kernel
    intro last hlast
    obtain ⟨hpolicy, hgot⟩ := hpolicy last hlast
    obtain ⟨hrejected, hcreated⟩ := hrejected last hlast
    have hscript := lister.script_answer getPolicy rfl hgot
    have hscript' := lister.script_answer create rfl hcreated
    rcases hx : lister.answer getPolicy (peer last) with ⟨r, p₁⟩
    rw [hx] at hpolicy hrejected hscript hscript'
    rcases hy : lister.answer create p₁ with ⟨r', p₂⟩
    rw [hy] at hrejected hscript'
    dsimp only at hpolicy hrejected hscript hscript'
    subst hpolicy hrejected
    exact ⟨p₁, p₂, rfl, hy, by rw [hscript', hscript]; rfl⟩
  constructor
  · obtain ⟨p₁, p₂, hpolicy, hrejected, hscript⟩ := hcalls empty (by simp)
    have hlisted : listed? p₂.script = some ([longer] ++ exact :: []) := by
      rw [hscript]
      simp only [listed?, pageIn_pageBody, empty, Option.bind_some]
      rfl
    obtain ⟨ys, hys, -⟩ := (provision_adopts_listed lister c hvalid hpolicy hrejected).1
      [longer] exact [] hlisted (by decide) rfl
    exact ⟨ys, hys⟩
  · obtain ⟨p₁, p₂, hpolicy, hrejected, hscript⟩ := hcalls .truncated (by simp)
    have hcut : listed? p₂.script = none := by
      rw [hscript]
      simp only [listed?, pageIn_pageBody, Option.bind_some]
      rfl
    exact ((provision_adopts_listed lister c hvalid hpolicy hrejected).2.1
      fun services h => by cases hcut.symm.trans h).1

end PagerDuty
end Oncall
