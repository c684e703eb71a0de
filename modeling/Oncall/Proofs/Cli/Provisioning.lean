import Oncall.Proofs.Cli.Configured
import Oncall.Proofs.PagerDuty.Duplicates

/-! What provisioning does with a config that was filled. It makes calls that delete nothing, and
after a success logs it and prints two IDs. They are those that PagerDuty returned in the run: the
service was created or found by its name, and the integration is one of the service's or was created
for it. -/

namespace Oncall.Cli

open PagerDuty
open Errand (steps)

/-- From some world, a workflow of calls takes these steps and ends so. -/
def Ends {σ α : Type} (client : Client) (body : Workflow Call Call.Reply σ α) (ss : List Step)
    (a : α) : Prop :=
  ∃ w, steps (Errand.ofCalls client body) w = ss ∧
    ((Errand.ofCalls client body).run World.answer w).1 = a

/-- Asking PagerDuty. -/
def calling (client : Client) (c : Call) (w : World) : Step := ⟨w, .pagerDuty client c⟩

/-- A reply among the steps. -/
def Replied (client : Client) (c : Call) (x : c.Result) (ss : List Step) : Prop :=
  ∃ w, calling client c w ∈ ss ∧ (calling client c w).reply = .ok x

/-- The integration is one of the service's, or was created for it. -/
def ReturnsIntegration (client : Client) (s : PagerDuty.Service) (id : String) (ss : List Step) :
    Prop :=
  (∃ i ∈ s.integrations, i.id = id) ∨
    ∃ i t, Replied client (.createIntegration s.id t) i ss ∧ i.id = id

/-- The service was created, or found by its name, and the integration is its. -/
def ReturnsIds (client : Client) (name serviceId integrationId : String) (ss : List Step) : Prop :=
  ∃ s : PagerDuty.Service, s.id = serviceId ∧ ReturnsIntegration client s integrationId ss ∧
    ((∃ t, Replied client (.createService t) s ss) ∨
      ∃ services query, Replied client (.listServices query) services ss ∧ s ∈ services ∧
        s.name = name)

/-- Steps that ask PagerDuty only, and for no deletion. -/
def Keeps (client : Client) (ss : List Step) : Prop :=
  ∀ s ∈ ss, ∃ c, s.ask = .pagerDuty client c ∧ Keeping c

/-- What a success ends with. -/
def announcement (c : TicketingConfig) (integrationId : String) : List Ask :=
  [.log (provisionedEvent c), .print ("SERVICE_ID=" ++ c.serviceId),
    .print ("INTEGRATION_ID=" ++ integrationId)]

/-- A run of provisioning with a config that was filled from the Secret. Without a cluster or a domain
it ends at once. -/
inductive Provisions (clusterId baseDomain url : String) (c : TicketingConfig) :
    List Step → Except Error Unit → Prop
  | noCluster (hcluster : clusterId = "") : Provisions clusterId baseDomain url c []
      (.error (.pagerDuty (.config (.emptyValue "cluster_id" "ticketing config"))))
  | noDomain (hcluster : clusterId ≠ "") (hdomain : baseDomain = "") :
      Provisions clusterId baseDomain url c []
        (.error (.pagerDuty (.config (.emptyValue "base_domain" "ticketing config"))))
  | fails {calls : List Step} {e : PagerDuty.Error} (hcluster : clusterId ≠ "")
      (hdomain : baseDomain ≠ "") (hcalls : Keeps (clientOf c url) calls) :
      Provisions clusterId baseDomain url c calls (.error (.pagerDuty e))
  | succeeds {calls ending : List Step} {c' : TicketingConfig} {id : String}
      (hcluster : clusterId ≠ "") (hdomain : baseDomain ≠ "")
      (hcalls : Keeps (clientOf c url) calls)
      (hids : ReturnsIds (clientOf c url) c.serviceName c'.serviceId id calls)
      (hending : ending.map Step.ask = announcement c' id) :
      Provisions clusterId baseDomain url c (calls ++ ending) (.ok ())

section

variable {σ α : Type} {client : Client} {ss : List Step}

theorem Ends.done {a b : α} (h : Ends client (.done a : Workflow Call Call.Reply σ α) ss b) :
    ss = [] ∧ b = a := by
  obtain ⟨w, rfl, rfl⟩ := h
  exact ⟨rfl, rfl⟩

theorem Ends.call {seen : σ} {c : Call} {next : c.Reply → Workflow Call Call.Reply σ α} {a : α}
    (h : Ends client (.call seen c next) ss a) :
    ∃ w r rest, (calling client c w).reply = r ∧ ss = calling client c w :: rest ∧
      Ends client (next r) rest a := by
  obtain ⟨w, rfl, rfl⟩ := h
  exact ⟨w, _, _, rfl, rfl, (calling client c w).after, rfl, rfl⟩

theorem Replied.head {c : Call} {x : c.Result} {w : World} (h : (calling client c w).reply = .ok x) :
    Replied client c x (calling client c w :: ss) :=
  ⟨w, List.mem_cons_self, h⟩

theorem Replied.cons {c : Call} {x : c.Result} (h : Replied client c x ss) (s : Step) :
    Replied client c x (s :: ss) := by
  obtain ⟨w, hmem, hx⟩ := h
  exact ⟨w, List.mem_cons_of_mem s hmem, hx⟩

theorem ReturnsIntegration.cons {service : PagerDuty.Service} {id : String}
    (h : ReturnsIntegration client service id ss) (s : Step) :
    ReturnsIntegration client service id (s :: ss) :=
  h.imp_right fun ⟨i, t, hi, hid⟩ => ⟨i, t, hi.cons s, hid⟩

theorem ReturnsIds.cons {name serviceId integrationId : String} (s : Step)
    (h : ReturnsIds client name serviceId integrationId ss) :
    ReturnsIds client name serviceId integrationId (s :: ss) := by
  obtain ⟨service, hid, hintegration, hservice⟩ := h
  refine ⟨service, hid, hintegration.cons s, hservice.imp ?_ ?_⟩
  · exact fun ⟨t, ht⟩ => ⟨t, ht.cons s⟩
  · exact fun ⟨services, query, hs, hmem⟩ => ⟨services, query, hs.cons s, hmem⟩

theorem withService_returns {c c' : TicketingConfig} {s : PagerDuty.Service} {id : String}
    (h : Ends client (c.withService s) ss (c', .ok id)) :
    c'.serviceId = s.id ∧ ReturnsIntegration client s id ss := by
  unfold TicketingConfig.withService at h
  dsimp only at h
  split at h
  next i hi =>
    obtain ⟨-, heq⟩ := h.done
    cases heq
    exact ⟨rfl, .inl ⟨i, List.mem_of_find?_eq_some hi, rfl⟩⟩
  next =>
    obtain ⟨w, r, rest, hr, rfl, hrest⟩ := h.call
    cases r with
    | error e =>
      obtain ⟨-, heq⟩ := hrest.done
      cases heq
    | ok i =>
      obtain ⟨-, heq⟩ := hrest.done
      cases heq
      exact ⟨rfl, .inr ⟨i, _, .head hr, rfl⟩⟩

theorem adopt_returns {c c' : TicketingConfig} {name id : String} {rejection : ApiError}
    (h : Ends client (c.adopt name rejection) ss (c', .ok id)) :
    ReturnsIds client name c'.serviceId id ss := by
  obtain ⟨w, r, rest, hr, rfl, hrest⟩ := Ends.call h
  cases r with
  | error e =>
    obtain ⟨-, heq⟩ := hrest.done
    cases heq
  | ok services =>
    dsimp only at hrest
    split at hrest
    next s hs =>
      obtain ⟨hid, hintegration⟩ := withService_returns hrest
      have hname : s.name = name := by simpa using List.find?_some hs
      exact ⟨s, hid.symm, hintegration.cons _,
        .inr ⟨services, name, .head hr, List.mem_of_find?_eq_some hs, hname⟩⟩
    next =>
      obtain ⟨-, heq⟩ := hrest.done
      cases heq

theorem provisionCalls_returns {c c' : TicketingConfig} {id : String}
    (h : Ends client c.provisionCalls ss (c', .ok id)) :
    ReturnsIds client c.serviceName c'.serviceId id ss := by
  obtain ⟨w, r, rest, hr, rfl, hrest⟩ := Ends.call h
  cases r with
  | error e =>
    obtain ⟨-, heq⟩ := hrest.done
    cases heq
  | ok policy =>
    refine ReturnsIds.cons _ ?_
    obtain ⟨w', r, rest', hr', rfl, hrest'⟩ := Ends.call hrest
    cases r with
    | ok s =>
      obtain ⟨hid, hintegration⟩ := withService_returns hrest'
      exact ⟨s, hid.symm, hintegration.cons _, .inl ⟨_, .head hr'⟩⟩
    | error e =>
      dsimp only at hrest'
      split at hrest'
      · exact (adopt_returns hrest').cons _
      · obtain ⟨-, heq⟩ := hrest'.done
        cases heq

end

/-- What provisioning does with the config that was read. -/
def provisionWith (url : String) (c : TicketingConfig) : Printing :=
  (Errand.ofCalls (clientOf c url) c.provision.body).bind fun (c, r) =>
    onSuccess (fun id => .call () (.log (provisionedEvent c)) fun () =>
      printing ["SERVICE_ID=" ++ c.serviceId, "INTEGRATION_ID=" ++ id]) r

theorem provision_eq (clusterId baseDomain url : String) :
    Cli.provision clusterId baseDomain url =
      afterReading (secretHolder.load (.forCluster clusterId baseDomain)) (provisionWith url) := by
  rw [← loadSecret_eq]
  exact congrArg (Workflow.bind _) (funext fun x => by rcases x with ⟨c, e | _⟩ <;> rfl)

/-- A config that lacks something makes no calls. -/
theorem provisionWith_of_invalid {c : TicketingConfig} {e : ConfigError}
    (h : c.validate = .error e) (url : String) :
    provisionWith url c = failing (.pagerDuty (.config e)) := by
  have hbody : c.provision.body = .done (c, .error (.config e)) := by
    simp [TicketingConfig.provision, h, Job.body]
  rw [provisionWith, hbody]
  rfl

/-- A valid config makes only calls that delete nothing, and announces the IDs that were returned. -/
theorem provisionWith_of_valid {c : TicketingConfig} {clusterId baseDomain : String}
    (h : c.validate = .ok ()) (hcluster : clusterId ≠ "") (hdomain : baseDomain ≠ "")
    (url : String) (w : World) :
    Provisions clusterId baseDomain url c (steps (provisionWith url c) w)
      ((provisionWith url c).run World.answer w).1 := by
  have hbody : c.provision.body = c.provisionCalls := by
    rw [TicketingConfig.provision_of_valid h]
    rfl
  have hcalls : Keeps (clientOf c url)
      (steps (Errand.ofCalls (clientOf c url) c.provisionCalls) w) :=
    fun s hs => Errand.call_of_mem_steps (TicketingConfig.provisionCalls_keeping c) hs
  have hends : Ends (clientOf c url) c.provisionCalls
    (steps (Errand.ofCalls (clientOf c url) c.provisionCalls) w)
    ((Errand.ofCalls (clientOf c url) c.provisionCalls).run World.answer w).1 := ⟨w, rfl, rfl⟩
  rw [provisionWith, hbody, Errand.steps_bind, Workflow.run_bind]
  generalize (Errand.ofCalls (clientOf c url) c.provisionCalls).run World.answer w = out
    at hends ⊢
  obtain ⟨⟨c', r⟩, w'⟩ := out
  cases r with
  | error e =>
    have hfails := Provisions.fails (e := e) hcluster hdomain hcalls
    rwa [← List.append_nil (steps _ _)] at hfails
  | ok id => exact .succeeds hcluster hdomain hcalls (provisionCalls_returns hends) rfl

theorem provision_effects (clusterId baseDomain url : String) (w : World) :
    Fills secretHolder (.forCluster clusterId baseDomain)
      (fun c _ => Provisions clusterId baseDomain url c) w
      (steps (Cli.provision clusterId baseDomain url) w)
      ((Cli.provision clusterId baseDomain url).run World.answer w).1 := by
  rw [provision_eq]
  refine secretHolder.fills _ w fun p c w' hall => ?_
  obtain ⟨hkey, hpolicy, hclusterId, hbaseDomain⟩ := credentials_of_fillsAll hall
  have hvalid := validate_of_credentials hkey hpolicy
  rw [hclusterId, hbaseDomain] at hvalid
  by_cases hcluster : clusterId = ""
  · rw [provisionWith_of_invalid (hvalid.trans (if_pos hcluster))]
    exact .noCluster hcluster
  by_cases hdomain : baseDomain = ""
  · rw [provisionWith_of_invalid (hvalid.trans ((if_neg hcluster).trans (if_pos hdomain)))]
    exact .noDomain hcluster hdomain
  · exact provisionWith_of_valid (hvalid.trans ((if_neg hcluster).trans (if_neg hdomain))) hcluster
      hdomain url w'

end Oncall.Cli
