import Oncall.Proofs.PagerDuty.Rounds
import Oncall.Proofs.PagerDuty.UpToIds
import Oncall.Proofs.Pool.Apart

/-! Provisionings of different clusters do not delay each other. Among others whose clusters and names
are all different, a provisioning makes its calls in the rounds in which it makes them alone, and
ends with the same result and the same config, but for the numbers in generated IDs. -/

namespace Oncall.PagerDuty

open Relation (ReflTransGen)

/-- How a provisioning among others is compared with one alone. -/
def comparison (base : Memory) (name : String) : Comparison Call Outcome Memory :=
  ⟨base.Since, SameNamed base name, SameCall base, SameOutcome base⟩

/-- Calls that take equally long, and fail as told. -/
def Faults.service (f : Faults) (delay : Nat) : Oncall.Service Call Call.Reply Memory :=
  ⟨f.answer, fun _ => delay⟩

/-- What is left of two provisionings for a name is alike. -/
def Calls.Alike (base : Memory) (name : String) (f : Faults) (delay : Nat)
    (others : Memory → Memory → Prop) (body body' : Calls) (m m' : Memory) : Prop :=
  Workflow.Alike (f.service delay) others (comparison base name) body body' m m'

section Alike

variable {base : Memory} {name : String} {f : Faults} {delay : Nat}
  {others : Memory → Memory → Prop} {m m' : Memory}

/-- Workflows that begin with the same call are alike if the replies are and what follows is. -/
theorem Calls.Alike.call {c d : Call} {seen seen' : TicketingConfig} {next : c.Reply → Calls}
    {next' : d.Reply → Calls} (hcall : SameCall base c d)
    (h : ∀ m₂, ReflTransGen others m m₂ → base.Since m₂ → base.Since m' →
      SameNamed base name m₂ m' →
      SameNamed base name (f.answer c m₂).2 (f.answer d m').2 ∧
        Calls.Alike base name f delay others (next (f.answer c m₂).1) (next' (f.answer d m').1)
          (f.answer c m₂).2 (f.answer d m').2) :
    Calls.Alike base name f delay others (.call seen c next) (.call seen' d next') m m' := by
  refine ⟨hcall, fun m₂ hmoves hm₂ hm' hsame => ?_⟩
  obtain ⟨hworld, hnext⟩ := h m₂ hmoves hm₂ hm' hsame
  exact ⟨f.since_answer hm₂ c, f.since_answer hm' d, hworld, hnext⟩

namespace TicketingConfig

variable {c d : TicketingConfig}

theorem fail_alike (hc : SameConfig base c d) (e : Error) :
    Calls.Alike base name f delay others (c.fail e) (d.fail e) m m' :=
  ⟨hc, .error e⟩

theorem finish_alike (hc : SameConfig base c d) {i j : Integration}
    (hij : SameIntegration base i.id j.id) :
    Calls.Alike base name f delay others (c.finish i) (d.finish j) m m' := by
  refine ⟨⟨?_, hc.service, hij⟩, .ok hij⟩
  have hrest := hc.rest
  rw [hrest]

variable (hothers : ∀ m m₂, others m m₂ → named name m₂.services = named name m.services)

include hothers

/-- From the same service both go on alike: they reuse its integration or create one. -/
theorem withService_alike (c : TicketingConfig) {s t : Service}
    (hs : named name m.services = some s) (ht : named name m'.services = some t)
    (hst : SameService base s t) :
    Calls.Alike base name f delay others (c.withService s) (c.withService t) m m' := by
  have hc : SameConfig base { c with serviceId := s.id } { c with serviceId := t.id } :=
    ⟨rfl, hst.id, .refl c.integrationId⟩
  unfold withService
  rcases rel_cases hst.reusable with ⟨hi, hj⟩ | ⟨i, j, hi, hj, hij⟩
  · simp only [hi, hj]
    refine .call ⟨hst.id, rfl⟩ fun m₂ hmoves hm₂ hm' hsame => ?_
    have hs₂ : named name m₂.services = some s := (named_of_others hothers hmoves).trans hs
    obtain ⟨hreply, hworld⟩ := f.integrate_agrees hm₂ hm' hsame hs₂ ht hst hi hj
    refine ⟨hworld, ?_⟩
    generalize f.answer (.createIntegration s.id integrationToCreate) m₂ = r at hreply ⊢
    generalize f.answer (.createIntegration t.id integrationToCreate) m' = r' at hreply ⊢
    obtain ⟨reply, m₃⟩ := r
    obtain ⟨reply', m₃'⟩ := r'
    cases hreply with
    | ok hij => exact finish_alike hc hij
    | error e => exact fail_alike hc (.api e)
  · simp only [hi, hj]
    exact finish_alike hc hij

theorem adopt_alike (c : TicketingConfig) (rejection : ApiError) :
    Calls.Alike base name f delay others (c.adopt name rejection) (c.adopt name rejection) m m' := by
  refine .call rfl fun m₂ hmoves hm₂ hm' hsame => ?_
  have hagrees : Agrees base name
      (fun l l' => Option.Rel (SameService base) (named name l) (named name l'))
      (f.answer (.listServices name) m₂) (f.answer (.listServices name) m') :=
    (Memory.list_agrees hm₂ hm' hsame).fault (f.list name) hsame
  obtain ⟨hreply, hworld⟩ := hagrees
  obtain ⟨-, hstore, hlisted⟩ := (f.provides base).list name hm₂
  obtain ⟨-, hstore', hlisted'⟩ := (f.provides base).list name hm'
  refine ⟨hworld, ?_⟩
  generalize f.answer (.listServices name) m₂ = r at *
  generalize f.answer (.listServices name) m' = r' at *
  obtain ⟨reply, m₃⟩ := r
  obtain ⟨reply', m₃'⟩ := r'
  cases hreply with
  | error e => exact fail_alike (.refl c) (.api rejection)
  | @ok l l' hrel =>
    have hl : named name l = named name m₃.services :=
      hlisted.named_of_ok.trans (congrArg (named name) hstore).symm
    have hl' : named name l' = named name m₃'.services :=
      hlisted'.named_of_ok.trans (congrArg (named name) hstore').symm
    rcases rel_cases hrel with ⟨hs, ht⟩ | ⟨s, t, hs, ht, hst⟩
    · unfold named at hs ht
      simp only [hs, ht]
      exact fail_alike (.refl c) (.api rejection)
    · have hs₃ : named name m₃.services = some s := hl.symm.trans hs
      have ht₃ : named name m₃'.services = some t := hl'.symm.trans ht
      unfold named at hs ht
      simp only [hs, ht]
      exact withService_alike hothers c hs₃ ht₃ hst

theorem withPolicy_alike (c : TicketingConfig) (hc : c.serviceName = name)
    (policy : EscalationPolicy) :
    Calls.Alike base name f delay others (c.withPolicy policy) (c.withPolicy policy) m m' := by
  refine .call rfl fun m₂ hmoves hm₂ hm' hsame => ?_
  have hname : (serviceToCreate c policy).name = name := hc
  have hagrees : Agrees base name (SameService base)
      (f.answer (.createService (serviceToCreate c policy)) m₂)
      (f.answer (.createService (serviceToCreate c policy)) m') :=
    (Memory.create_agrees hm₂ hm' hsame hname rfl).fault _ hsame
  obtain ⟨hreply, hworld⟩ := hagrees
  obtain ⟨-, hcreates⟩ := (f.provides base).create (serviceToCreate c policy) hm₂ rfl
  obtain ⟨-, hcreates'⟩ := (f.provides base).create (serviceToCreate c policy) hm' rfl
  refine ⟨hworld, ?_⟩
  rw [hname] at hcreates hcreates' ⊢
  generalize f.answer (.createService (serviceToCreate c policy)) m₂ = r at *
  generalize f.answer (.createService (serviceToCreate c policy)) m' = r' at *
  obtain ⟨reply, m₃⟩ := r
  obtain ⟨reply', m₃'⟩ := r'
  cases hreply with
  | ok hst => exact withService_alike hothers c hcreates.named_of_ok hcreates'.named_of_ok hst
  | error e =>
    dsimp only
    split
    · exact adopt_alike hothers c e
    · exact fail_alike (.refl c) (.api e)

/-- The calls of a provisioning among others are those of the provisioning alone. -/
theorem provisionCalls_alike (c : TicketingConfig) (hc : c.serviceName = name) :
    Calls.Alike base name f delay others c.provisionCalls c.provisionCalls m m' := by
  refine .call rfl fun m₂ hmoves hm₂ hm' hsame => ?_
  have hagrees : Agrees base name Eq (f.answer (.getEscalationPolicy c.escalationPolicyId) m₂)
      (f.answer (.getEscalationPolicy c.escalationPolicyId) m') :=
    (Memory.policy_agrees hm₂ hm' hsame c.escalationPolicyId).fault _ hsame
  obtain ⟨hreply, hworld⟩ := hagrees
  refine ⟨hworld, ?_⟩
  generalize f.answer (.getEscalationPolicy c.escalationPolicyId) m₂ = r at *
  generalize f.answer (.getEscalationPolicy c.escalationPolicyId) m' = r' at *
  obtain ⟨reply, m₃⟩ := r
  obtain ⟨reply', m₃'⟩ := r'
  cases hreply with
  | @ok policy policy' heq =>
    subst heq
    exact withPolicy_alike hothers c hc policy
  | error e => exact fail_alike (.refl c) (.policyNotFound c.escalationPolicyId e)

theorem provision_alike (c : TicketingConfig) (hc : c.serviceName = name) :
    Stage.Alike (f.service delay) others (comparison base name) (.fresh c.provision)
      (.fresh c.provision) m m' := by
  cases hprovision : c.provision with
  | settled o =>
    unfold provision at hprovision
    split at hprovision
    next e _ =>
      cases hprovision
      exact ⟨.refl c, .error (Error.config e)⟩
    next => cases hprovision
  | locked key seen body =>
    obtain ⟨rfl, rfl, rfl⟩ := provision_eq_locked hprovision
    exact fun m m' _ _ _ => provisionCalls_alike hothers seen hc

end TicketingConfig

end Alike

/-! ### Many clusters -/

/-- Where the polling loop over provisionings ends if calls fail as told and nobody is dropped. -/
def Faults.provisionAll (f : Faults) (configs : List TicketingConfig) (delay : Nat) (m : Memory) :
    Pool Call Call.Reply TicketingConfig Outcome Memory :=
  endPool (f.service delay) (configs.map fun c => ⟨c, none⟩) delay m

/-- Without failures this is the polling loop itself. -/
theorem Faults.provisionAll_never (configs : List TicketingConfig) (delay : Nat) (m : Memory) :
    never.provisionAll configs delay m =
      ⟨(PagerDuty.provisionAll (configs.map fun c => ⟨c, none⟩) delay m).1.map Member.stage,
        (PagerDuty.provisionAll (configs.map fun c => ⟨c, none⟩) delay m).2⟩ := by
  unfold provisionAll service
  rw [never_answer]
  rfl

/-- With nobody dropped, the polling loop is a run of rounds after which all provisionings are over. -/
theorem Faults.run_eq_provisionAll (f : Faults) (configs : List TicketingConfig) (delay : Nat)
    (m : Memory) : ∃ k,
    Pool.run (f.service delay)
        (Pool.roundsActions (List.replicate configs.length none) 1 k)
        (Pool.start (configs.map TicketingConfig.provision) m) = f.provisionAll configs delay m ∧
      (f.provisionAll configs delay m).IsOver := by
  have hdelay : ∀ c, (f.service delay).delay c = delay := fun _ => rfl
  obtain ⟨k, hrun, hover⟩ := run_eq_endPool hdelay (configs.map fun c => ⟨c, none⟩) m
  refine ⟨k, ?_, hover⟩
  rw [List.map_map, List.map_map] at hrun
  rw [provisionAll, ← hrun, ← List.map_const']
  rfl

section Apart

variable {configs : List TicketingConfig} {i : Nat} {c : TicketingConfig}

theorem TicketingConfig.cluster_of_needs (c : TicketingConfig) {key : String}
    (h : (Stage.fresh c.provision).needs = some key) : key = c.clusterId := by
  cases hprovision : c.provision with
  | settled o =>
    rw [hprovision] at h
    cases h
  | locked k seen body =>
    obtain ⟨rfl, -, -⟩ := provision_eq_locked hprovision
    rw [hprovision] at h
    exact (Option.some.inj h).symm

/-- With pairwise different clusters, one provisioning alone needs the lock of its cluster. -/
theorem needs_eq_iff (hclusters : (configs.map TicketingConfig.clusterId).Nodup)
    (hc : configs[i]? = some c) {j : Nat} {key : String}
    (hj : ((configs.map TicketingConfig.provision)[j]?.bind fun job => (Stage.fresh job).needs) =
      some key) : key = c.clusterId ↔ j = i := by
  rw [List.getElem?_map] at hj
  cases hd : configs[j]? with
  | none =>
    rw [hd] at hj
    cases hj
  | some d =>
    rw [hd] at hj
    have hlt : j < (configs.map TicketingConfig.clusterId).length := by
      rw [List.length_map]
      exact (List.getElem?_eq_some_iff.1 hd).1
    rw [d.cluster_of_needs hj, ← List.getElem?_inj hlt hclusters, List.getElem?_map,
      List.getElem?_map, hd, hc]
    exact Option.some_inj.symm

/-- With pairwise different names, what is done for other clusters leaves the service of a name
alone. -/
theorem meetOnLocks_of_nodup (hnames : (configs.map TicketingConfig.serviceName).Nodup) :
    MeetOnLocks configs := by
  intro c hc d hd hname
  rw [List.inj_on_of_nodup_map hnames hc hd hname]

/-- The start of a provisioning among others and of the provisioning alone. -/
theorem apart_start (hnames : (configs.map TicketingConfig.serviceName).Nodup)
    (hc : configs[i]? = some c) (f : Faults) (delay : Nat) {m : Memory} (hm : m.Since m) :
    Pool.Apart (f.service delay) (clusterMoves Memory.services configs)
      (comparison m c.serviceName)
      (fun j => (configs.map TicketingConfig.provision)[j]?.bind fun job => (Stage.fresh job).needs)
      c.clusterId i (Pool.start (configs.map TicketingConfig.provision) m)
      (Pool.start [c.provision] m) := by
  have hmeet := meetOnLocks_of_nodup hnames
  have hguarded := (f.provides m).guarded (J := fun _ => True) (fun _ _ _ _ _ _ => trivial) hmeet
    (fun _ => delay) hm trivial
  have hinv : (fun w => m.Since w ∧ True) = m.Since := by
    funext w
    exact and_true _
  rw [hinv] at hguarded
  have hfresh : (Pool.start (configs.map TicketingConfig.provision) m).stages[i]? =
      some (.fresh c.provision) := by
    simp [Pool.start, hc]
  refine ⟨hguarded, Pool.keyed_start _ m, Pool.fits_start _ m, _, _, hfresh, rfl, ?_⟩
  refine ⟨hm, hm, .refl _ m, ?_, rfl, .nil⟩
  exact TicketingConfig.provision_alike
    (fun _ _ hmoves => named_of_clusterMoves hmeet (List.mem_of_getElem? hc) hmoves) c rfl

/-- Among others whose clusters and service names are all different, a provisioning begins and ends
its calls in the rounds in which it does so alone, and ends alike up to the numbers in generated
IDs. -/
theorem provisionAll_apart (hclusters : (configs.map TicketingConfig.clusterId).Nodup)
    (hnames : (configs.map TicketingConfig.serviceName).Nodup) (f : Faults) (delay : Nat)
    {m : Memory} (hm : m.Sound) (hlists : m.failLists = 0) (hattaches : m.failIntegrations = 0)
    (hc : configs[i]? = some c) :
    ∃ o o', (f.provisionAll configs delay m).stages[i]? = some (.finished o) ∧
      (f.provisionAll [c] delay m).stages = [.finished o'] ∧ SameOutcome m o o' ∧
      List.Forall₂ (comparison m c.serviceName).Event
        (timeline i (f.provisionAll configs delay m).shared.log).2
        (timeline 0 (f.provisionAll [c] delay m).shared.log).2 := by
  have hsince : m.Since m := ⟨hm, Nat.le_refl _, Nat.le_refl _, rfl, hlists, hattaches⟩
  have hi : i < configs.length := (List.getElem?_eq_some_iff.1 hc).1
  obtain ⟨k, hall, hover⟩ := f.run_eq_provisionAll configs delay m
  obtain ⟨l, halone, hover'⟩ := f.run_eq_provisionAll [c] delay m
  have hmoves : ∀ w w₂ w', Others (clusterMoves Memory.services configs) c.clusterId w w₂ →
      (comparison m c.serviceName).world w w' → (comparison m c.serviceName).world w₂ w' := by
    intro w w₂ w' hothers hsame
    have hnamed := named_of_clusterMoves (meetOnLocks_of_nodup hnames) (List.mem_of_getElem? hc)
      hothers
    simp only [comparison, SameNamed] at hsame ⊢
    rwa [hnamed]
  exact (apart_start hnames hc f delay hsince).finished
    (fun j hj hkey => hj ((needs_eq_iff hclusters hc hkey).1 rfl)) hmoves (fun _ _ _ => rfl)
    (fun _ hkey => (needs_eq_iff hclusters hc hkey).2 rfl) hi hall hover halone hover'

end Apart

/-- Two clusters: the reply of the first integration is lost, and the second gets the IDs with number
two where it would get those with number one. -/
theorem provisionAll_apart_second :
    let c := { TicketingConfig.forCluster "c1" "x.example.com" with
      apiKey := "k", escalationPolicyId := "e" }
    let d := { c with clusterId := "c2" }
    let f : Faults := { Faults.never with
      integrate := fun name => if name = c.serviceName then .after Memory.boom else .none }
    let m : Memory := ⟨[], 0, 0, [], 0, 0⟩
    ((f.provisionAll [c, d] 1 m).stages.map fun st => st.result?.map Prod.snd) =
      [some (.error (.api Memory.boom)), some (.ok "I2")] ∧
    ((f.provisionAll [d] 1 m).stages.map fun st => st.result?.map Prod.snd) = [some (.ok "I1")] ∧
    ∃ o o', (f.provisionAll [c, d] 1 m).stages[1]? = some (.finished o) ∧
      (f.provisionAll [d] 1 m).stages = [.finished o'] ∧ SameOutcome m o o' ∧
      List.Forall₂ (comparison m d.serviceName).Event
        (timeline 1 (f.provisionAll [c, d] 1 m).shared.log).2
        (timeline 0 (f.provisionAll [d] 1 m).shared.log).2 := by
  intro c d f m
  have hsound : m.Sound := ⟨List.nodup_nil, nofun⟩
  have hclusters : ([c, d].map TicketingConfig.clusterId).Nodup := by decide
  have hnames : ([c, d].map TicketingConfig.serviceName).Nodup := by decide
  refine ⟨by decide, by decide, ?_⟩
  exact provisionAll_apart hclusters hnames f 1 hsound rfl rfl rfl

end Oncall.PagerDuty
