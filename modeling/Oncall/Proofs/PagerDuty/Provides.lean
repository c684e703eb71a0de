import Oncall.Proofs.PagerDuty.Growth

/-! What provisioning relies on in a PagerDuty, whatever else it is: how creating and listing services
and creating integrations change the services and what they reply. A call may fail before or after
it took effect. Under these laws the calls of a provisioning only grow the services for their own
name, and a provisioning that succeeds leaves its name settled with the IDs it returned. -/

namespace Oncall.PagerDuty

open Relation (ReflTransGen)

/-- Creating a service: nothing happens, or the name was free and a new empty service with an ID of
its own is there; the reply may be lost. -/
def Creates (name : String) (l : List Service) (r : Except ApiError Service) (l' : List Service) :
    Prop :=
  (l' = l ∧ ∃ e, r = .error e) ∨
  ∃ before after s, l = before ++ after ∧ l' = before ++ s :: after ∧ named name l = none ∧
    s.name = name ∧ s.integrations = [] ∧ (∀ t ∈ l, t.id ≠ s.id) ∧ (r = .ok s ∨ ∃ e, r = .error e)

/-- Listing services: a name leads to the same service in the list as in the store. -/
def Lists (name : String) (l : List Service) (r : Except ApiError (List Service)) : Prop :=
  (∃ e, r = .error e) ∨ ∃ listed, r = .ok listed ∧ named name listed = named name l

/-- Creating an integration: nothing happens, or the service has one more with an ID; the reply may
be lost. -/
def Integrates (id : String) (i : Integration) (l : List Service) (r : Except ApiError Integration)
    (l' : List Service) : Prop :=
  (l' = l ∧ ∃ e, r = .error e) ∨
  ∃ before after s j is, l = before ++ s :: after ∧ s.id = id ∧
    j.id ≠ "" ∧ j.name = i.name ∧ j.kind = i.kind ∧ is.Perm (j :: s.integrations) ∧
    l' = before ++ { s with integrations := is } :: after ∧ (r = .ok j ∨ ∃ e, r = .error e)

variable {W : Type}

/-- A world of services that obeys the laws as long as `I` holds, which every call of a provisioning
keeps. -/
structure Provides (services : W → List Service) (I : W → Prop)
    (answer : (c : Call) → W → c.Reply × W) : Prop where
  nodup : ∀ {w}, I w → ((services w).map Service.id).Nodup
  policy : ∀ id {w}, I w → I (answer (.getEscalationPolicy id) w).2 ∧
    services (answer (.getEscalationPolicy id) w).2 = services w
  create : ∀ s {w}, I w → s.integrations = [] → I (answer (.createService s) w).2 ∧
    Creates s.name (services w) (answer (.createService s) w).1
      (services (answer (.createService s) w).2)
  list : ∀ query {w}, I w → I (answer (.listServices query) w).2 ∧
    services (answer (.listServices query) w).2 = services w ∧
    Lists query (services w) (answer (.listServices query) w).1
  integrate : ∀ id i {w}, I w → (∃ s ∈ services w, s.id = id) →
    I (answer (.createIntegration id i) w).2 ∧
    Integrates id i (services w) (answer (.createIntegration id i) w).1
      (services (answer (.createIntegration id i) w).2)

/-- The laws hold as well under a stronger condition that all calls keep. -/
theorem Provides.restrict {services : W → List Service} {I J : W → Prop}
    {answer : (c : Call) → W → c.Reply × W} (h : Provides services I answer)
    (hJ : ∀ w, J w → I w) (hkeep : ∀ c w, J w → J (answer c w).2) : Provides services J answer where
  nodup hw := h.nodup (hJ _ hw)
  policy id w hw := ⟨hkeep _ w hw, (h.policy id (hJ w hw)).2⟩
  create s w hw hempty := ⟨hkeep _ w hw, (h.create s (hJ w hw) hempty).2⟩
  list query w hw := ⟨hkeep _ w hw, (h.list query (hJ w hw)).2⟩
  integrate id i w hw hid := ⟨hkeep _ w hw, (h.integrate id i (hJ w hw) hid).2⟩

theorem isReusable_of_toCreate {j : Integration} (hid : j.id ≠ "")
    (hname : j.name = integrationToCreate.name) (hkind : j.kind = integrationToCreate.kind) :
    j.isReusable = true := by
  simp [Integration.isReusable, hid, hname, hkind, integrationToCreate]

theorem Creates.grows {name : String} {l l' : List Service} {r : Except ApiError Service}
    (h : Creates name l r l') : Grows name l l' := by
  rcases h with ⟨rfl, -⟩ | ⟨before, after, s, rfl, rfl, hfree, hname, hempty, hid, -⟩
  · exact .same _
  · exact .create hname hfree hempty hid

theorem Creates.named_of_ok {name : String} {l l' : List Service} {s : Service}
    (h : Creates name l (.ok s) l') : named name l' = some s := by
  rcases h with ⟨-, e, he⟩ | ⟨before, after, t, rfl, rfl, hfree, hname, -, -, hr⟩
  · cases he
  · rcases hr with hr | ⟨e, he⟩
    · cases hr
      refine named_middle (fun u hu => ?_) hname
      exact named_eq_none_iff.1 hfree u (List.mem_append_left after hu)
    · cases he

theorem Lists.named_of_ok {name : String} {l listed : List Service}
    (h : Lists name l (.ok listed)) : named name listed = named name l := by
  rcases h with ⟨e, he⟩ | ⟨l', hl', hnamed⟩
  · cases he
  · cases hl'
    exact hnamed

section Integrates

variable {id name : String} {l l' : List Service} {r : Except ApiError Integration} {s : Service}

/-- The integration of a provisioning grows the services for the name that its service has. -/
theorem Integrates.grows (h : Integrates id integrationToCreate l r l')
    (hl : (l.map Service.id).Nodup) (hs : named name l = some s) (hid : s.id = id)
    (hnone : s.reusable? = none) : Grows name l l' := by
  rcases h with ⟨rfl, -⟩ | ⟨before, after, t, j, is, rfl, htid, hj, hn, hk, his, rfl, -⟩
  · exact .same _
  · obtain ⟨rfl, hname, hbefore⟩ := named_split_unique hl hs (hid.trans htid.symm)
    exact .integrate hname hbefore hnone (isReusable_of_toCreate hj hn hk) his

theorem Integrates.named_of_ok {j : Integration}
    (h : Integrates id integrationToCreate l (.ok j) l')
    (hl : (l.map Service.id).Nodup) (hs : named name l = some s) (hid : s.id = id)
    (hnone : s.reusable? = none) :
    ∃ s', named name l' = some s' ∧ s'.id = id ∧ s'.reusable? = some j := by
  rcases h with ⟨-, e, he⟩ | ⟨before, after, t, i, is, rfl, htid, hi, hn, hk, his, rfl, hr⟩
  · cases he
  · rcases hr with hr | ⟨e, he⟩
    · cases hr
      obtain ⟨rfl, hname, hbefore⟩ := named_split_unique hl hs (hid.trans htid.symm)
      refine ⟨_, named_middle hbefore hname, htid, ?_⟩
      exact Service.reusable?_add hnone (isReusable_of_toCreate hi hn hk) his
    · cases he

end Integrates

/-- Something that provisioning cannot do without is empty. -/
def TicketingConfig.Incomplete (c : TicketingConfig) : Prop :=
  c.clusterId = "" ∨ c.baseDomain = "" ∨ c.apiKey = "" ∨ c.escalationPolicyId = ""

theorem TicketingConfig.validate_eq_ok_iff (c : TicketingConfig) :
    c.validate = .ok () ↔ ¬ c.Incomplete := by
  have hneeded : (∀ f ∈ c.needed, f.2 ≠ "") ↔ ¬ c.Incomplete := by simp [needed, Incomplete]
  unfold validate
  rw [← hneeded]
  split
  next f hf =>
    have hempty : f.2 = "" := by simpa using List.find?_some hf
    exact ⟨nofun, fun h => absurd hempty (h f (List.mem_of_find?_eq_some hf))⟩
  next hnone =>
    refine ⟨fun _ f hf => ?_, fun _ => rfl⟩
    simpa using List.find?_eq_none.1 hnone f hf

/-- A provisioning that needs a lock is that of a valid config, and takes the lock of its cluster. -/
theorem TicketingConfig.provision_eq_locked {c : TicketingConfig} {key : String}
    {seen : TicketingConfig} {body : Calls} (h : c.provision = .locked key seen body) :
    key = c.clusterId ∧ seen = c ∧ body = c.provisionCalls := by
  unfold provision at h
  split at h
  · cases h
  · cases h
    exact ⟨rfl, rfl, rfl⟩

theorem TicketingConfig.provision_of_valid {c : TicketingConfig} (h : c.validate = .ok ()) :
    c.provision = .locked c.clusterId c c.provisionCalls := by
  rw [provision, h]

/-- A provisioning that succeeded returned the IDs with which its name is settled. -/
def Returned (services : W → List Service) (name : String) (o : Outcome) (w : W) : Prop :=
  ∀ id, o.2 = .ok id → ∃ s i, Settled name s i (services w) ∧
    o.1.serviceId = s.id ∧ o.1.integrationId = i.id ∧ id = i.id

section Safe

variable {services : W → List Service} {I : W → Prop} {answer : (c : Call) → W → c.Reply × W}
  {J : List Service → Prop} {others own : W → W → Prop}

/-- What is left of a provisioning grows the services for one name, against others that leave the
service of this name alone. -/
def Calls.Grow (services : W → List Service) (I : W → Prop) (J : List Service → Prop)
    (answer : (c : Call) → W → c.Reply × W) (others own : W → W → Prop) (name : String)
    (body : Calls) (w : W) : Prop :=
  body.Safe answer (fun w => I w ∧ J (services w)) others own (Returned services name) w

namespace TicketingConfig

variable {name : String}

theorem fail_grows (c : TicketingConfig) (e : Error) (w : W) :
    Calls.Grow services I J answer others own name (c.fail e) w := by
  intro id hid
  cases hid

theorem finish_grows {c : TicketingConfig} {i : Integration} {s : Service} {w : W}
    (hs : named name (services w) = some s) (hi : s.reusable? = some i) (hc : c.serviceId = s.id) :
    Calls.Grow services I J answer others own name (c.finish i) w := by
  intro id hid
  cases hid
  exact ⟨s, i, ⟨hs, hi⟩, hc, rfl, rfl⟩

variable (P : Provides services I answer)
  (hothers : ∀ w w', others w w' → named name (services w') = named name (services w))
  (hown : ∀ w w', I w → I w' → Grows name (services w) (services w') → own w w')
  (hJ : ∀ l l', (l.map Service.id).Nodup → Grows name l l' → J l → J l')

include hothers in
omit P hown hJ in
theorem named_of_others {w w' : W} (h : ReflTransGen others w w') :
    named name (services w') = named name (services w) := by
  induction h with
  | refl => rfl
  | tail _ hstep ih => exact (hothers _ _ hstep).trans ih

include P hothers hown hJ

theorem withService_grows {c : TicketingConfig} {s : Service} {w : W}
    (hs : named name (services w) = some s) :
    Calls.Grow services I J answer others own name (c.withService s) w := by
  unfold withService
  split
  next i hi => exact finish_grows hs hi rfl
  next hnone =>
    rintro w' hw' ⟨hI, hj⟩
    have hs' : named name (services w') = some s := (named_of_others hothers hw').trans hs
    obtain ⟨hI', heff⟩ := P.integrate s.id integrationToCreate hI ⟨s, mem_of_named hs', rfl⟩
    have hgrows := heff.grows (P.nodup hI) hs' rfl hnone
    refine ⟨⟨hI', hJ _ _ (P.nodup hI) hgrows hj⟩, hown _ _ hI hI' hgrows, ?_⟩
    generalize answer (.createIntegration s.id integrationToCreate) w' = r at *
    obtain ⟨_ | i, w''⟩ := r
    · exact fail_grows _ _ _
    · obtain ⟨t, ht, htid, hti⟩ := heff.named_of_ok (P.nodup hI) hs' rfl hnone
      exact finish_grows ht hti htid.symm

theorem adopt_grows (c : TicketingConfig) (rejection : ApiError) (w : W) :
    Calls.Grow services I J answer others own name (c.adopt name rejection) w := by
  rintro w' - ⟨hI, hj⟩
  obtain ⟨hI', hsame, hlist⟩ := P.list name hI
  have hgrows : Grows name (services w') (services (answer (.listServices name) w').2) := by
    rw [hsame]
    exact .same _
  refine ⟨⟨hI', hJ _ _ (P.nodup hI) hgrows hj⟩, hown _ _ hI hI' hgrows, ?_⟩
  generalize answer (.listServices name) w' = r at *
  obtain ⟨_ | listed, w''⟩ := r
  · exact fail_grows _ _ _
  · dsimp only
    split
    next s hs =>
      refine withService_grows P hothers hown hJ ?_
      rw [hsame, ← hlist.named_of_ok]
      exact hs
    next => exact fail_grows _ _ _

theorem withPolicy_grows {c : TicketingConfig} (hc : c.serviceName = name)
    (policy : EscalationPolicy) (w : W) :
    Calls.Grow services I J answer others own name (c.withPolicy policy) w := by
  rintro w' - ⟨hI, hj⟩
  obtain ⟨hI', heff⟩ := P.create (serviceToCreate c policy) hI rfl
  have hname : (serviceToCreate c policy).name = name := hc
  rw [hname] at heff
  refine ⟨⟨hI', hJ _ _ (P.nodup hI) heff.grows hj⟩, hown _ _ hI hI' heff.grows, ?_⟩
  generalize answer (.createService (serviceToCreate c policy)) w' = r at *
  obtain ⟨e | s, w''⟩ := r
  · dsimp only
    split
    · rw [hname]
      exact adopt_grows P hothers hown hJ c e _
    · exact fail_grows _ _ _
  · exact withService_grows P hothers hown hJ heff.named_of_ok

/-- The calls of a provisioning grow the services for its name only, and if it succeeds it returns
the IDs that its name is settled with. -/
theorem provisionCalls_grows {c : TicketingConfig} (hc : c.serviceName = name) (w : W) :
    Calls.Grow services I J answer others own name c.provisionCalls w := by
  rintro w' - ⟨hI, hj⟩
  obtain ⟨hI', hsame⟩ := P.policy c.escalationPolicyId hI
  have hgrows : Grows name (services w')
      (services (answer (.getEscalationPolicy c.escalationPolicyId) w').2) := by
    rw [hsame]
    exact .same _
  refine ⟨⟨hI', hJ _ _ (P.nodup hI) hgrows hj⟩, hown _ _ hI hI' hgrows, ?_⟩
  generalize answer (.getEscalationPolicy c.escalationPolicyId) w' = r at *
  obtain ⟨e | policy, w''⟩ := r
  · exact fail_grows _ _ _
  · exact withPolicy_grows P hothers hown hJ hc policy _

end TicketingConfig

end Safe

/-! ### Clusters and names -/

/-- Configs with one service name have one cluster. -/
def MeetOnLocks (configs : List TicketingConfig) : Prop :=
  ∀ c ∈ configs, ∀ d ∈ configs, c.serviceName = d.serviceName → c.clusterId = d.clusterId

/-- What the provisionings for one cluster do. -/
def clusterMoves (services : W → List Service) (configs : List TicketingConfig) (cluster : String)
    (w w' : W) : Prop :=
  ∃ c ∈ configs, c.clusterId = cluster ∧ Grows c.serviceName (services w) (services w')

/-- The moves for other clusters leave the service of a name alone. -/
theorem named_of_clusterMoves {services : W → List Service} {configs : List TicketingConfig}
    (hmeet : MeetOnLocks configs) {c : TicketingConfig} (hc : c ∈ configs) {w w' : W}
    (h : Others (clusterMoves services configs) c.clusterId w w') :
    named c.serviceName (services w') = named c.serviceName (services w) := by
  obtain ⟨cluster, hne, d, hd, hcluster, hgrows⟩ := h
  refine hgrows.named_of_ne fun hname => hne ?_
  rw [← hcluster]
  exact (hmeet c hc d hd hname).symm

/-- If the locks cover the services, concurrent provisionings only grow the services, and so keep
what this keeps. -/
theorem Provides.guarded {services : W → List Service} {I : W → Prop}
    {answer : (c : Call) → W → c.Reply × W} (P : Provides services I answer)
    {J : List Service → Prop}
    (hJ : ∀ name l l', (l.map Service.id).Nodup → Grows name l l' → J l → J l')
    {configs : List TicketingConfig} (hmeet : MeetOnLocks configs) (delay : Call → Nat) {w : W}
    (hI : I w) (hj : J (services w)) :
    (Pool.start (configs.map TicketingConfig.provision) w).Guarded ⟨answer, delay⟩
      (fun w => I w ∧ J (services w)) (clusterMoves services configs) (fun _ _ => True) := by
  refine Pool.guarded_start ⟨hI, hj⟩ fun key seen body hjob w hw => ?_
  obtain ⟨c, hc, hprovision⟩ := List.mem_map.1 hjob
  obtain ⟨rfl, rfl, rfl⟩ := TicketingConfig.provision_eq_locked hprovision
  refine Workflow.Safe.weaken (fun _ _ _ => trivial)
    (TicketingConfig.provisionCalls_grows P ?_ ?_ (hJ seen.serviceName) rfl w)
  · exact fun w w' hmoves => named_of_clusterMoves hmeet hc hmoves
  · exact fun w w' _ _ hgrows => ⟨seen, hc, rfl, hgrows⟩

end Oncall.PagerDuty
