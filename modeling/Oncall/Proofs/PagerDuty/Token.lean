import Oncall.Proofs.PagerDuty.Listing
import Oncall.Proofs.Pool.Guarantee
import Oncall.Proofs.Url.Login
import Oncall.PagerDuty.Provision
import Mathlib.Data.List.Forall2

/-! Where the token goes. Two peers that have had the same requests, but for the tokens in them,
answer the next request alike; so a client with one token and a client with another stay in step
through every call and every workflow. A base address may hold a login of its own, which is sent in
front of the token, and does not depend on it. The token in a config is not looked at either, once
there is one. -/

namespace Oncall

namespace Http

/-- A token that a header carries as it is. -/
structure IsToken (key : String) : Prop where
  nonempty : key ≠ ""
  legal : isLegalValue key = true
  ending : ∀ c ∈ key.toList.getLast?, c ≠ ' ' ∧ c ≠ '\t'

/-- How a request states its token. -/
def tokenHeader (key : String) : String × String := ("authorization", "Token token=" ++ key)

theorem IsToken.legal_header {key : String} (h : IsToken key) :
    isLegalValue (tokenHeader key).2 = true := by
  have hlabel : isLegalValue "Token token=" = true := by decide +kernel
  have hkey := h.legal
  unfold isLegalValue at hlabel hkey ⊢
  rw [tokenHeader, String.toList_append, List.all_append, hlabel, hkey]
  rfl

theorem IsToken.received_header {key : String} (h : IsToken key) :
    receivedValue (tokenHeader key).2 = (tokenHeader key).2 := by
  have hne : key.toList ≠ [] := by simpa using h.nonempty
  have hcs : (tokenHeader key).2.toList = "Token token=".toList ++ key.toList := by
    rw [tokenHeader, String.toList_append]
  rw [receivedValue, Parts.trim_eq_self, String.ofList_toList]
  · intro c hc
    have hlabel : "Token token=".toList = 'T' :: "oken token=".toList := by simp
    rw [hcs, hlabel] at hc
    cases hc
    rfl
  · intro c hc
    have hlast : (tokenHeader key).2.toList.getLast? = key.toList.getLast? := by
      rw [hcs, List.getLast?_append, List.getLast?_eq_some_getLast hne, Option.some_or]
    obtain ⟨hspace, htab⟩ := h.ending c (hlast ▸ hc)
    simp [hspace, htab]

/-- The same request, but for the token, which comes after the same logins. -/
structure SameButToken (k k' : String) (logins : List (String × String)) (r r' : Request) :
    Prop where
  origin : r.origin = r'.origin
  method : r.method = r'.method
  target : r.target = r'.target
  body : r.body = r'.body
  others : r.headers.filter (·.1 ≠ "authorization") = r'.headers.filter (·.1 ≠ "authorization")
  token : r.headers.filter (·.1 = "authorization") = logins ++ [tokenHeader k]
  token' : r'.headers.filter (·.1 = "authorization") = logins ++ [tokenHeader k']

/-- Two peers that have had the same requests, but for the tokens, since they were the same. -/
structure Twins (k k' : String) (logins : List (String × String)) (before : List Request)
    (p p' : Peer) : Prop where
  origins : p.origins = p'.origins
  reachable : p.reachable = p'.reachable
  script : p.script = p'.script
  received : ∃ rs rs', p.received = before ++ rs ∧ p'.received = before ++ rs' ∧
    List.Forall₂ (SameButToken k k' logins) rs rs'

section

variable {k k' : String} {logins : List (String × String)} {before : List Request} {p p' : Peer}

theorem Twins.refl (k k' : String) (logins : List (String × String)) (p : Peer) :
    Twins k k' logins p.received p p :=
  ⟨rfl, rfl, rfl, [], [], by simp, by simp, .nil⟩

theorem Twins.accept (h : Twins k k' logins before p p') {r r' : Request}
    (hr : SameButToken k k' logins r r') :
    (p.accept r).1 = (p'.accept r').1 ∧
      Twins k k' logins before (p.accept r).2 (p'.accept r').2 := by
  obtain ⟨rs, rs', hrs, hrs', hrel⟩ := h.received
  refine ⟨by simp [Peer.accept, Peer.next, h.script], h.origins, h.reachable, ?_, ?_⟩
  · simp [Peer.accept, h.script]
  · exact ⟨rs ++ [r], rs' ++ [r'], by simp [Peer.accept, hrs], by simp [Peer.accept, hrs'],
      List.rel_append hrel (.cons hr .nil)⟩

end

/-- A draft with a token before its other headers. -/
def Draft.signed (d : Draft) (key : String) : Draft :=
  { d with
    headers :=
      ("accept", "application/vnd.pagerduty+json;version=2") :: tokenHeader key :: d.headers }

/-- No header of its own states a token, all may be sent, and its address has these logins. -/
structure Draft.Unsigned (d : Draft) (logins : List (String × String)) : Prop where
  headers : ∀ h ∈ d.headers, h.1 ≠ "authorization" ∧ isLegalValue h.2 = true
  address : ∀ u, Url.parse? d.url = some u → loginHeaders u = logins

section

variable {k k' : String} (hk : IsToken k) (hk' : IsToken k') {d : Draft}
  {logins : List (String × String)} (hd : d.Unsigned logins) {before : List Request} {p p' : Peer}
  (h : Twins k k' logins before p p')

include hk hd in
theorem admits_signed (p : Peer) (u : Url) :
    p.admits (d.signed k) u = (p.reachable && p.origins.contains (origin u)) := by
  have haccept : isLegalValue "application/vnd.pagerduty+json;version=2" = true := by decide +kernel
  have hall : ((d.signed k).headers.all fun h => isLegalValue h.2) = true := by
    simp only [Draft.signed, List.all_cons, haccept, hk.legal_header, Bool.true_and,
      List.all_eq_true]
    exact fun h hh => (hd.headers h hh).2
  rw [Peer.admits, hall, Bool.and_true]

include hk in
/-- The headers of a signed draft as they are received. -/
theorem headers_signed (u : Url) : ((d.signed k).request u).headers = loginHeaders u ++
    ("accept", receivedValue "application/vnd.pagerduty+json;version=2") :: tokenHeader k ::
      d.headers.map fun h => (h.1, receivedValue h.2) := by
  have htoken : ((tokenHeader k).1, receivedValue (tokenHeader k).2) = tokenHeader k := by
    rw [hk.received_header]
  simp only [Draft.request, Draft.signed, List.map_cons, htoken]

theorem filter_loginHeaders (u : Url) :
    (loginHeaders u).filter (·.1 = "authorization") = loginHeaders u ∧
      (loginHeaders u).filter (·.1 ≠ "authorization") = [] := by
  unfold loginHeaders
  cases u.login with
  | none => exact ⟨rfl, rfl⟩
  | some l => simp [loginHeader]

include hk hk' hd in
theorem request_signed {u : Url} (hu : loginHeaders u = logins) :
    SameButToken k k' logins ((d.signed k).request u) ((d.signed k').request u) := by
  obtain ⟨hlogins, hnologins⟩ := filter_loginHeaders u
  have hrest : ∀ h ∈ d.headers.map fun h => (h.1, receivedValue h.2), h.1 ≠ "authorization" := by
    intro h hh
    obtain ⟨x, hx, rfl⟩ := List.mem_map.1 hh
    exact (hd.headers x hx).1
  have htoken : ∀ {k}, IsToken k →
      ((d.signed k).request u).headers.filter (·.1 = "authorization") =
        logins ++ [tokenHeader k] := by
    intro k hk
    have hnone : (d.headers.map fun h => (h.1, receivedValue h.2)).filter
        (·.1 = "authorization") = [] :=
      List.filter_eq_nil_iff.2 fun h hh => by simpa using hrest h hh
    rw [headers_signed hk, List.filter_append, hlogins, hu, List.filter_cons_of_neg (by simp),
      List.filter_cons_of_pos (by simp [tokenHeader]), hnone]
  have hothers : ∀ {k}, IsToken k →
      ((d.signed k).request u).headers.filter (·.1 ≠ "authorization") =
        ("accept", receivedValue "application/vnd.pagerduty+json;version=2") ::
          d.headers.map fun h => (h.1, receivedValue h.2) := by
    intro k hk
    have hall : (d.headers.map fun h => (h.1, receivedValue h.2)).filter
        (·.1 ≠ "authorization") = d.headers.map fun h => (h.1, receivedValue h.2) :=
      List.filter_eq_self.2 fun h hh => by simpa using hrest h hh
    rw [headers_signed hk, List.filter_append, hnologins, List.nil_append,
      List.filter_cons_of_pos (by simp), List.filter_cons_of_neg (by simp [tokenHeader]), hall]
  exact ⟨rfl, rfl, rfl, rfl, (hothers hk).trans (hothers hk').symm, htoken hk, htoken hk'⟩

include hk hk' hd h in
/-- An exchange does not depend on the token. -/
theorem exchange_signed : (p.exchange (d.signed k)).1 = (p'.exchange (d.signed k')).1 ∧
    Twins k k' logins before (p.exchange (d.signed k)).2 (p'.exchange (d.signed k')).2 := by
  have hurl : ∀ k, (d.signed k).url = d.url := fun _ => rfl
  unfold Peer.exchange
  rw [hurl, hurl]
  cases hu : Url.parse? d.url with
  | none => exact ⟨rfl, h⟩
  | some u =>
    simp only [Peer.send, admits_signed hk hd, admits_signed hk' hd, h.reachable, h.origins]
    split
    · exact h.accept (request_signed hk hk' hd (hd.address u hu))
    · exact ⟨rfl, h⟩

end

end Http

namespace PagerDuty

open Http

namespace Client

theorem listFrom_of_error {c : Client} {query : String} {found : List Service} {p q : Peer}
    {e : ApiError} (h : c.page query found.length p = (.error e, q)) :
    c.listFrom query found p = (.error e, q) := by
  rw [listFrom]
  split
  · next h' =>
    cases h.symm.trans h'
    rfl
  · next h' => cases h.symm.trans h'

/-- What the login of a base address is sent as. -/
def baseLogins (base : String) : List (String × String) :=
  ((Url.parse? (base ++ "/")).bind Url.login).toList.map loginHeader

theorem baseLogins_of_not_mem {base : String} (h : '@' ∉ base.toList) : baseLogins base = [] := by
  have hbase : '@' ∉ (base ++ "/").toList := by
    rw [String.toList_append, List.mem_append, not_or]
    exact ⟨h, by decide⟩
  unfold baseLogins
  cases hu : Url.parse? (base ++ "/") with
  | none => rfl
  | some u => rw [Option.bind_some, Url.login_of_not_mem hu hbase, Option.toList_none, List.map_nil]

/-- Paths of the API start with a word. -/
def IsApiPath (path : String) : Prop := ∃ word tail, Url.StartsWithWord path.toList word tail

theorem loginHeaders_of_isApiPath {base path : String} (hpath : IsApiPath path) {u : Url}
    (hu : Url.parse? (base ++ path) = some u) : loginHeaders u = baseLogins base := by
  obtain ⟨word, tail, hword⟩ := hpath
  rw [loginHeaders, baseLogins, Url.login_append hword hu]

theorem isApiPath_services : IsApiPath "/services" := by
  have hinert : "services".toList.all Url.isInert = true := by decide +kernel
  exact ⟨"services".toList, [], rfl, by decide, List.all_eq_true.1 hinert, .inl rfl⟩

theorem isApiPath_servicePath (rest : String) : IsApiPath (servicePath rest) := by
  have hinert : "services".toList.all Url.isInert = true := by decide +kernel
  refine ⟨"services".toList, '/' :: rest.toList, ?_, by decide, List.all_eq_true.1 hinert,
    .inr ⟨_, rfl⟩⟩
  rw [servicePath, String.toList_append]
  rfl

theorem isApiPath_escalationPolicy (id : String) : IsApiPath ("/escalation_policies/" ++ id) := by
  have hinert : "escalation_policies".toList.all Url.isInert = true := by decide +kernel
  refine ⟨"escalation_policies".toList, '/' :: id.toList, ?_, by decide,
    List.all_eq_true.1 hinert, .inr ⟨_, rfl⟩⟩
  rw [String.toList_append]
  rfl

theorem isApiPath_integrations (serviceId rest : String) :
    IsApiPath (servicePath serviceId ++ rest) := by
  rw [servicePath, String.append_assoc]
  exact isApiPath_servicePath _

section

variable {k k' : String} (hk : IsToken k) (hk' : IsToken k') {logins : List (String × String)}
  {before : List Request} {p p' : Peer} (h : Twins k k' logins before p p')
include hk hk' h

theorem body_signed {d : Draft} (hd : d.Unsigned logins) (resource id : String) :
    (body (d.signed k) resource id p).1 = (body (d.signed k') resource id p').1 ∧
      Twins k k' logins before (body (d.signed k) resource id p).2
        (body (d.signed k') resource id p').2 := by
  obtain ⟨hresponse, htwins⟩ := exchange_signed hk hk' hd h
  unfold body
  rcases hx : p.exchange (d.signed k) with ⟨r, q⟩
  rcases hx' : p'.exchange (d.signed k') with ⟨r', q'⟩
  simp only [hx, hx'] at hresponse htwins
  subst hresponse
  cases r <;> exact ⟨rfl, htwins⟩

theorem send_signed {α : Type} {d : Draft} (hd : d.Unsigned logins) (resource id : String)
    (read? : Json.Node → Option α) :
    (send (d.signed k) resource id read? p).1 = (send (d.signed k') resource id read? p').1 ∧
      Twins k k' logins before (send (d.signed k) resource id read? p).2
        (send (d.signed k') resource id read? p').2 := by
  obtain ⟨hbody, htwins⟩ := body_signed hk hk' h hd resource id
  simp only [send]
  exact ⟨congrArg (decoded read?) hbody, htwins⟩

end

section

variable {k k' : String} (hk : IsToken k) (hk' : IsToken k') {url : String} {before : List Request}
  {p p' : Peer} (h : Twins k k' (baseLogins url) before p p')
include hk hk' h

theorem page_signed {query : String} {offset : Nat} {r : Except ApiError ServiceList} {q : Peer}
    (hpage : (Client.mk url k).page query offset p = (r, q)) :
    ∃ q', (Client.mk url k').page query offset p' = (r, q') ∧
      Twins k k' (baseLogins url) before q q' := by
  have hd : Draft.Unsigned ⟨.get, url ++ "/services", [("query", query),
    ("include[]", "integrations"), ("limit", toString pageLimit), ("offset", toString offset)], [],
    ""⟩ (baseLogins url) := ⟨nofun, fun _ => loginHeaders_of_isApiPath isApiPath_services⟩
  obtain ⟨hreply, htwins⟩ := send_signed hk hk' h hd "services" query ServiceList.ofNode?
  change ((Client.mk url k).page query offset p).1 = ((Client.mk url k').page query offset p').1
    at hreply
  change Twins k k' (baseLogins url) before ((Client.mk url k).page query offset p).2
    ((Client.mk url k').page query offset p').2 at htwins
  rw [hpage] at hreply htwins
  generalize (Client.mk url k').page query offset p' = out at hreply htwins ⊢
  obtain ⟨r', q'⟩ := out
  obtain rfl : r = r' := hreply
  exact ⟨q', rfl, htwins⟩

theorem listFrom_signed (query : String) (found : List Service) :
    ((Client.mk url k).listFrom query found p).1 = ((Client.mk url k').listFrom query found p').1 ∧
      Twins k k' (baseLogins url) before ((Client.mk url k).listFrom query found p).2
        ((Client.mk url k').listFrom query found p').2 := by
  fun_induction listFrom (Client.mk url k) query found p generalizing p' with
  | case1 found p e q hpage =>
    obtain ⟨q', hpage', htwins⟩ := page_signed hk hk' h hpage
    rw [listFrom_of_error hpage']
    exact ⟨rfl, htwins⟩
  | case2 found p l q hpage hlast =>
    obtain ⟨q', hpage', htwins⟩ := page_signed hk hk' h hpage
    rw [listFrom_of_page hpage', if_pos hlast]
    exact ⟨rfl, htwins⟩
  | case3 found p l q hpage hmore ih =>
    obtain ⟨q', hpage', htwins⟩ := page_signed hk hk' h hpage
    rw [listFrom_of_page hpage', if_neg hmore]
    exact ih htwins

theorem answer_signed (c : Call) :
    ((Client.mk url k).answer c p).1 = ((Client.mk url k').answer c p').1 ∧
      Twins k k' (baseLogins url) before ((Client.mk url k).answer c p).2
        ((Client.mk url k').answer c p').2 := by
  have hget : ∀ {path}, IsApiPath path → ∀ method,
      Draft.Unsigned ⟨method, url ++ path, [], [], ""⟩ (baseLogins url) := fun hpath _ =>
    ⟨nofun, fun _ => loginHeaders_of_isApiPath hpath⟩
  have hpost : ∀ {path}, IsApiPath path → ∀ v, Draft.Unsigned
      ⟨.post, url ++ path, [], [("content-type", "application/json")], v⟩ (baseLogins url) :=
    fun hpath _ => by
      have hjson : isLegalValue "application/json" = true := by decide +kernel
      exact ⟨by simpa using hjson, fun _ => loginHeaders_of_isApiPath hpath⟩
  cases c with
  | getService id => exact send_signed hk hk' h (hget (isApiPath_servicePath id) _) _ _ _
  | getIntegration serviceId id =>
    have hpath : IsApiPath (servicePath serviceId ++ "/integrations/" ++ id) := by
      rw [String.append_assoc]
      exact isApiPath_integrations serviceId _
    exact send_signed hk hk' h (hget hpath _) _ _ _
  | getEscalationPolicy id =>
    exact send_signed hk hk' h (hget (isApiPath_escalationPolicy id) _) _ _ _
  | createService s => exact send_signed hk hk' h (hpost isApiPath_services _) _ _ _
  | listServices query => exact listFrom_signed hk hk' h query []
  | createIntegration serviceId i =>
    exact send_signed hk hk' h (hpost (isApiPath_integrations serviceId _) _) _ _ _
  | deleteService id =>
    obtain ⟨hbody, htwins⟩ :=
      body_signed hk hk' h (hget (isApiPath_servicePath id) .delete) "service" id
    simp only [answer]
    exact ⟨congrArg (·.map fun _ => ()) hbody, htwins⟩

end

end Client

/-! ### Provisioning -/

namespace TicketingConfig

/-- The config with another token. -/
def rekey (c : TicketingConfig) (key : String) : TicketingConfig := { c with apiKey := key }

end TicketingConfig

/-- The outcome with another token in the config. -/
def Outcome.rekey (key : String) (o : Outcome) : Outcome := (o.1.rekey key, o.2)

/-- One workflow does what the other does, and its outcome has another token. -/
structure Rekeyed (key : String) (body body' : Calls) : Prop where
  run {W : Type} (answer : (c : Call) → W → c.Reply × W) (w : W) :
    body'.run answer w = (Outcome.rekey key (body.run answer w).1, (body.run answer w).2)

theorem Rekeyed.done (key : String) (o : Outcome) :
    Rekeyed key (.done o) (.done (o.rekey key)) := ⟨fun _ _ => rfl⟩

theorem Rekeyed.call {key : String} {seen seen' : TicketingConfig} {c : Call}
    {next next' : c.Reply → Calls} (h : ∀ r, Rekeyed key (next r) (next' r)) :
    Rekeyed key (.call seen c next) (.call seen' c next') :=
  ⟨fun answer w => (h (answer c w).1).run answer (answer c w).2⟩

section

variable (c : TicketingConfig) (key : String)

theorem withService_rekeyed (s : Service) :
    Rekeyed key (c.withService s) ((c.rekey key).withService s) := by
  unfold TicketingConfig.withService
  cases s.reusable? with
  | some i => exact .done key _
  | none =>
    refine .call fun r => ?_
    cases r with
    | ok i => exact .done key _
    | error e => exact .done key _

theorem adopt_rekeyed (name : String) (rejection : ApiError) :
    Rekeyed key (c.adopt name rejection) ((c.rekey key).adopt name rejection) := by
  refine .call fun r => ?_
  cases r with
  | error e => exact .done key _
  | ok services =>
    dsimp only
    cases services.find? fun s => s.name == name with
    | some s => exact withService_rekeyed c key s
    | none => exact .done key _

theorem withPolicy_rekeyed (policy : EscalationPolicy) :
    Rekeyed key (c.withPolicy policy) ((c.rekey key).withPolicy policy) := by
  refine .call fun r => ?_
  cases r with
  | ok s => exact withService_rekeyed c key s
  | error e =>
    dsimp only
    split
    · exact adopt_rekeyed c key _ e
    · exact .done key _

theorem provisionCalls_rekeyed : Rekeyed key c.provisionCalls (c.rekey key).provisionCalls := by
  refine .call fun r => ?_
  cases r with
  | ok policy => exact withPolicy_rekeyed c key policy
  | error e => exact .done key _

/-- A token matters to provisioning only if there is none. -/
theorem provision_rekeyed (hc : c.apiKey ≠ "") (hkey : key ≠ "") :
    Rekeyed key c.provision.body (c.rekey key).provision.body := by
  have hvalidate : (c.rekey key).validate = c.validate := by
    simp [TicketingConfig.validate, TicketingConfig.needed, TicketingConfig.rekey, hc, hkey,
      List.find?_cons]
  unfold TicketingConfig.provision
  rw [hvalidate]
  cases c.validate with
  | error e => exact .done key _
  | ok u => exact provisionCalls_rekeyed c key

end

/-- The token is in one header of each request and nowhere else. With one token and with another,
whatever is done with a client sends the same requests, but for that header, and gets the same
replies; and a provisioning also leaves the same config, but for the token in it. In front of the
token stands only what the login of the base is sent as, which is nothing for a base without the
sign `@`. -/
theorem token_only_in_header {k k' : String} (hk : IsToken k) (hk' : IsToken k') (url : String)
    (p : Peer) :
    let logins := Client.baseLogins (trimEndSlashes url)
    ('@' ∉ url.toList → logins = []) ∧
    (∀ {σ α : Type} (body : Workflow Call Call.Reply σ α),
      let run := body.run (Client.connect url k).answer p
      let run' := body.run (Client.connect url k').answer p
      run'.1 = run.1 ∧ Twins k k' logins p.received run.2 run'.2) ∧
    ∀ c : TicketingConfig, c.apiKey = k →
      let run := c.provision.body.run (Client.connect url c.apiKey).answer p
      let run' := (c.rekey k').provision.body.run (Client.connect url (c.rekey k').apiKey).answer p
      run'.1.2 = run.1.2 ∧ run'.1.1 = run.1.1.rekey k' ∧
        Twins k k' logins p.received run.2 run'.2 := by
  intro logins
  have hany : ∀ {σ α : Type} (body : Workflow Call Call.Reply σ α),
      (body.run (Client.connect url k).answer p).1 = (body.run (Client.connect url k').answer p).1 ∧
        Twins k k' logins p.received (body.run (Client.connect url k).answer p).2
          (body.run (Client.connect url k').answer p).2 := fun body =>
    (Workflow.only_of_forall (fun _ => trivial) body).run_related (P := fun _ => True)
      (S := Twins k k' logins p.received)
      (fun c _ _ _ h => Client.answer_signed hk hk' h c) (.refl k k' logins p)
  refine ⟨fun hat => ?_, fun body => ⟨(hany body).1.symm, (hany body).2⟩, ?_⟩
  · refine Client.baseLogins_of_not_mem fun hmem => hat ?_
    rw [trimEndSlashes, String.toList_ofList] at hmem
    exact (Parts.trimEnd_sublist _ _).subset hmem
  · rintro c rfl
    obtain ⟨hout, htwins⟩ := hany c.provision.body
    have hrekeyed := (provision_rekeyed c k' hk.nonempty hk'.nonempty).run
      (Client.connect url k').answer p
    have hkey : (c.rekey k').apiKey = k' := rfl
    simp only [hkey, hrekeyed, Outcome.rekey, hout, true_and]
    exact htwins

/-- A provisioning that does not find its policy behind a base with a login, with either of two
tokens. -/
theorem token_only_in_header_two :
    let c : TicketingConfig :=
      { TicketingConfig.forCluster "c" "d" with apiKey := "a", escalationPolicyId := "e" }
    let p : Peer := ⟨[.plain "h"], true, [.response 404 []], []⟩
    let run := c.provision.body.run (Client.connect "http://u:p@h" c.apiKey).answer p
    let run' := (c.rekey "b").provision.body.run
      (Client.connect "http://u:p@h" (c.rekey "b").apiKey).answer p
    IsToken "a" ∧ IsToken "b" ∧ run'.1.2 = run.1.2 ∧ run'.1.1 = run.1.1.rekey "b" ∧
      Twins "a" "b" [("authorization", "Basic dTpw")] p.received run.2 run'.2 := by
  have ha : IsToken "a" := ⟨by decide +kernel, by decide +kernel, by simp⟩
  have hb : IsToken "b" := ⟨by decide +kernel, by decide +kernel, by simp⟩
  have hlogins : Client.baseLogins (trimEndSlashes "http://u:p@h") =
      [("authorization", "Basic dTpw")] := by decide +kernel
  have hlaw := (token_only_in_header ha hb "http://u:p@h" ⟨[.plain "h"], true, [.response 404 []], []⟩)
  rw [hlogins] at hlaw
  exact ⟨ha, hb, hlaw.2.2 _ rfl⟩

/-- Behind a base with a login, the token is not the only thing that a request is authorized by. -/
theorem login_before_token :
    let p : Peer := ⟨[.plain "h"], true, [.response 404 []], []⟩
    ∃ r, (Client.connect "http://u:p@h" "a").sent (.getService "s") p = [r] ∧
      r.headers.filter (·.1 = "authorization") =
        [("authorization", "Basic dTpw"), ("authorization", "Token token=a")] :=
  ⟨⟨.plain "h", .get, "/services/s", [("authorization", "Basic dTpw"),
    ("accept", "application/vnd.pagerduty+json;version=2"), ("authorization", "Token token=a")], ""⟩,
    by decide +kernel, by decide +kernel⟩

end PagerDuty
end Oncall
