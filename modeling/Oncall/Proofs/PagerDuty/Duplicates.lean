import Oncall.Proofs.PagerDuty.Memory
import Oncall.Proofs.PagerDuty.Rounds

/-! When concurrent provisionings never give a service a second integration. The lock of a provisioning
is that of its cluster, the service it comes to is that of its service name, and finding no integration
and creating one are two calls. If configs with one service name have one cluster, no order of polls
gives a service two integrations that can be reused. If two configs have one service name and
different clusters, some order does: both find no integration, then both create one. -/

namespace Oncall.PagerDuty

open Relation (ReflTransGen)

/-- No service has more than one integration that can be reused. -/
def OneEach (services : List Service) : Prop :=
  ∀ s ∈ services, s.integrations.countP Integration.isReusable ≤ 1

theorem Grows.oneEach {name : String} {l l' : List Service} (h : Grows name l l')
    (hl : OneEach l) : OneEach l' := by
  intro t ht
  cases h with
  | same => exact hl t ht
  | @create before after s _ _ hempty _ =>
    rcases List.mem_append.1 ht with ht | ht
    · exact hl t (List.mem_append_left _ ht)
    · rcases List.mem_cons.1 ht with rfl | ht
      · simp [hempty]
      · exact hl t (List.mem_append_right _ ht)
  | @integrate before after s i is _ _ hnone _ his =>
    rcases List.mem_append.1 ht with ht | ht
    · exact hl t (List.mem_append_left _ ht)
    · rcases List.mem_cons.1 ht with rfl | ht
      · have hzero : s.integrations.countP Integration.isReusable = 0 :=
          List.countP_eq_zero.2 (Service.reusable?_eq_none_iff.1 hnone)
        have hcount : is.countP Integration.isReusable ≤ 1 := by
          rw [his.countP_eq, List.countP_cons, hzero]
          split <;> omega
        exact hcount
      · exact hl t (List.mem_append_right _ (List.mem_cons_of_mem s ht))

/-! ### Configs that meet on a service meet on a lock -/

/-- With locks that cover the services, no run gives a service a second integration, however long
calls take and whoever is dropped. -/
theorem oneEach_of_meet {configs : List TicketingConfig} (hmeet : MeetOnLocks configs)
    (delay : Call → Nat) {m : Memory} (hm : m.Sound) (hone : OneEach m.services)
    (as : List Action) :
    OneEach (Pool.run ⟨Memory.answer, delay⟩ as
      (Pool.start (configs.map TicketingConfig.provision) m)).shared.world.services := by
  have hstart := Memory.provides.guarded (J := OneEach) (fun _ _ _ _ hgrows => hgrows.oneEach) hmeet
    delay hm hone
  exact (hstart.run as).inv.2

/-! ### Two jobs that race -/

section Race

variable {m : Memory} {v : Oncall.Service Call Call.Reply Memory}
  {p : Pool Call Call.Reply TicketingConfig Outcome Memory}
  {stages : List (Stage Call Call.Reply TicketingConfig Outcome)} {i : Nat}

/-- A job whose key is free begins its first call. -/
theorem poll_to_first (hdelay : ∀ c, v.delay c = 1) (hf : p.Fits) {key : String}
    (hfree : ∀ j, (p.use j).key? ≠ some key) {seen seen' : TicketingConfig} {c : Call}
    {next : c.Reply → Calls}
    (hi : p.stages[i]? = some (.fresh (.locked key seen (.call seen' c next)))) :
    (p.act v (.poll i)).stages = p.stages.set i (.calling key seen' 1 c next) ∧
      (p.act v (.poll i)).shared.world = p.shared.world := by
  have hholds := KeyedLocks.Fits.holds_lock_of_free hf hfree i
  have hpoll : Pool.act v p (.poll i) = p.onJob i (Stage.poll v i) := rfl
  rw [hpoll, Pool.onJob_of_get hi]
  simp only [Stage.poll, hholds, if_true, Workflow.goOn, hdelay]
  exact ⟨trivial, rfl⟩

/-- A job at the last poll of a call goes on to its next call. -/
theorem poll_to_call (hdelay : ∀ c, v.delay c = 1) (hlt : i < stages.length) {key : String}
    {seen seen' : TicketingConfig} {c c' : Call} {next : c.Reply → Calls}
    {next' : c'.Reply → Calls} {r : c.Reply} {m' : Memory}
    (hi : p.stages = stages.set i (.calling key seen 1 c next)) (hw : p.shared.world = m)
    (hanswer : v.answer c m = (r, m')) (hnext : next r = .call seen' c' next') :
    (p.act v (.poll i)).stages = stages.set i (.calling key seen' 1 c' next') ∧
      (p.act v (.poll i)).shared.world = m' := by
  have hget : p.stages[i]? = some (.calling key seen 1 c next) := by simp [hi, hlt]
  have hpoll : Pool.act v p (.poll i) = p.onJob i (Stage.poll v i) := rfl
  rw [hpoll, Pool.onJob_of_get hget, hi, List.set_set]
  simp only [Stage.poll, Nat.le_refl, if_true, Shared.act_reply, hw, hanswer, hnext, Workflow.goOn,
    hdelay]
  exact ⟨trivial, by rw [Shared.note_world, Shared.act_world, hw, hanswer]⟩

/-- A job at the last poll of its last call ends. -/
theorem poll_to_end (hlt : i < stages.length) {key : String} {seen : TicketingConfig} {c : Call}
    {next : c.Reply → Calls} {r : c.Reply} {m' : Memory} {a : Outcome}
    (hi : p.stages = stages.set i (.calling key seen 1 c next)) (hw : p.shared.world = m)
    (hanswer : v.answer c m = (r, m')) (hnext : next r = .done a) :
    (p.act v (.poll i)).stages = stages.set i (.finished a) ∧
      (p.act v (.poll i)).shared.world = m' := by
  have hget : p.stages[i]? = some (.calling key seen 1 c next) := by simp [hi, hlt]
  have hpoll : Pool.act v p (.poll i) = p.onJob i (Stage.poll v i) := rfl
  rw [hpoll, Pool.onJob_of_get hget, hi, List.set_set]
  simp only [Stage.poll, Nat.le_refl, if_true, Shared.act_reply, hw, hanswer, hnext, Workflow.goOn]
  exact ⟨trivial, by rw [Shared.act_world, hw, hanswer]⟩

/-- A PagerDuty of one service, in which nothing fails. -/
def lone (s : Service) : Memory := ⟨[s], 0, 0, [], 0, 0⟩

theorem lone_policy (s : Service) (id : String) :
    Memory.answer (.getEscalationPolicy id) (lone s) = (.ok ⟨id, ""⟩, lone s) := rfl

theorem lone_create {s d : Service} (hname : d.name = s.name) :
    Memory.answer (.createService d) (lone s) = (.error (.duplicateName "taken"), lone s) := by
  simp [Memory.answer, Memory.createService, lone, hname]

theorem lone_list (s : Service) :
    Memory.answer (.listServices s.name) (lone s) = (.ok [s], lone s) := by
  simp [Memory.answer, Memory.listServices, lone, occursIn_self]

/-- With four polls a job whose lock is free finds that the service of its name has no integration,
and is about to create one. -/
theorem poll_to_integration {s : Service} (hempty : s.integrations = []) {c : TicketingConfig}
    (hname : c.serviceName = s.name) (hvalid : c.validate = .ok ()) (hf : p.Fits)
    (hfree : ∀ j, (p.use j).key? ≠ some c.clusterId)
    (hi : p.stages[i]? = some (.fresh c.provision)) (hw : p.shared.world = lone s) :
    ∃ seen next,
      (Pool.run ⟨Memory.answer, fun _ => 1⟩ (List.replicate 4 (.poll i)) p).stages =
        p.stages.set i
          (.calling c.clusterId seen 1 (.createIntegration s.id integrationToCreate) next) ∧
      (Pool.run ⟨Memory.answer, fun _ => 1⟩ (List.replicate 4 (.poll i)) p).shared.world = lone s ∧
      ∀ j, ∃ a, next (.ok j) = .done a := by
  have hlt : i < p.stages.length := (List.getElem?_eq_some_iff.1 hi).1
  rw [TicketingConfig.provision_of_valid hvalid] at hi
  have hdelay : ∀ c, (⟨Memory.answer, fun _ => 1⟩ : Oncall.Service Call Call.Reply Memory).delay c
      = 1 := fun _ => rfl
  have hcreate := lone_create (d := serviceToCreate c ⟨c.escalationPolicyId, ""⟩) hname
  have hreusable : s.reusable? = none := by simp [Service.reusable?, hempty]
  obtain ⟨hs1, hw1⟩ := poll_to_first hdelay hf hfree hi
  obtain ⟨hs2, hw2⟩ := poll_to_call hdelay hlt hs1 (hw1.trans hw) (lone_policy s _) rfl
  obtain ⟨hs3, hw3⟩ := poll_to_call hdelay hlt hs2 hw2 hcreate rfl
  have hlist : (serviceToCreate c ⟨c.escalationPolicyId, ""⟩).name = s.name := hname
  rw [hlist] at hs3
  obtain ⟨hs4, hw4⟩ := poll_to_call hdelay hlt hs3 hw3 (lone_list s) (by
    simp only [List.find?_cons, beq_self_eq_true, TicketingConfig.withService, hreusable]
    rfl)
  exact ⟨_, _, hs4, hw4, fun j => ⟨_, rfl⟩⟩

end Race

/-- Some service has two integrations that can be reused. -/
def Doubled (m : Memory) : Prop :=
  ∃ s ∈ m.services, 2 ≤ s.integrations.countP Integration.isReusable

/-- A call that is not a deletion. -/
def Keeping (c : Call) : Prop := ∀ id, c ≠ .deleteService id

theorem Doubled.answer {c : Call} {m : Memory} (hc : Keeping c) (h : Doubled m) :
    Doubled (Memory.answer c m).2 := by
  obtain ⟨s, hs, htwo⟩ := h
  cases c with
  | getService id => exact ⟨s, hs, htwo⟩
  | getIntegration serviceId id => exact ⟨s, hs, htwo⟩
  | getEscalationPolicy id => exact ⟨s, hs, htwo⟩
  | createService t =>
    simp only [Memory.answer, Memory.createService]
    split
    · exact ⟨s, hs, htwo⟩
    · exact ⟨s, List.mem_append_left _ hs, htwo⟩
  | listServices query =>
    simp only [Memory.answer, Memory.listServices]
    split <;> exact ⟨s, hs, htwo⟩
  | createIntegration id i =>
    simp only [Memory.answer, Memory.createIntegration]
    split
    · refine ⟨_, List.mem_map_of_mem hs, ?_⟩
      split
      · rw [List.countP_append]
        omega
      · exact htwo
    · exact ⟨s, hs, htwo⟩
  | deleteService id => exact absurd rfl (hc id)

namespace TicketingConfig

theorem withService_keeping (c : TicketingConfig) (s : Service) :
    (c.withService s).Only Keeping := by
  unfold withService
  split
  · trivial
  · refine ⟨fun _ => nofun, fun r => ?_⟩
    cases r <;> trivial

/-- A provisioning deletes nothing. -/
theorem provisionCalls_keeping (c : TicketingConfig) : c.provisionCalls.Only Keeping := by
  refine ⟨fun _ => nofun, fun r => ?_⟩
  cases r with
  | error e => trivial
  | ok policy =>
    refine ⟨fun _ => nofun, fun r => ?_⟩
    cases r with
    | ok s => exact withService_keeping c s
    | error e =>
      dsimp only
      split
      · refine ⟨fun _ => nofun, fun r => ?_⟩
        cases r with
        | error e => trivial
        | ok services =>
          dsimp only
          split
          · exact withService_keeping c _
          · trivial
      · trivial

end TicketingConfig

/-- The second of two integrations on the lone service makes two. -/
theorem lone_integrate (s : Service) (n : Nat) :
    Memory.answer (.createIntegration s.id integrationToCreate) ⟨[s], 0, n, [], 0, 0⟩ =
      (.ok { integrationToCreate with id := Memory.integrationId (n + 1) },
        ⟨[{ s with integrations := s.integrations ++
            [{ integrationToCreate with id := Memory.integrationId (n + 1) }] }],
          0, n + 1, [], 0, 0⟩) := by
  simp [Memory.answer, Memory.createIntegration, Memory.attach, Memory.integrationId]

/-- Two jobs that race for one service, polled one after the other up to their last call and once
more each. -/
def raceActions (i j : Nat) : List Action :=
  List.replicate 4 (.poll i) ++ List.replicate 4 (.poll j) ++ [.poll i, .poll j]

theorem poll_race {p : Pool Call Call.Reply TicketingConfig Outcome Memory} {i j : Nat}
    {c d : TicketingConfig} {s : Service} (hf : p.Fits) (hidle : p.use = fun _ => .idle)
    (hw : p.shared.world = lone s) (hi : p.stages[i]? = some (.fresh c.provision))
    (hj : p.stages[j]? = some (.fresh d.provision)) (hij : i ≠ j)
    (hvalid : c.validate = .ok () ∧ d.validate = .ok ()) (hcs : c.serviceName = s.name)
    (hds : d.serviceName = s.name) (hne : c.clusterId ≠ d.clusterId)
    (hempty : s.integrations = []) :
    ∃ a b, (Pool.run ⟨Memory.answer, fun _ => 1⟩ (raceActions i j) p).stages =
        (p.stages.set i (.finished a)).set j (.finished b) ∧
      Doubled (Pool.run ⟨Memory.answer, fun _ => 1⟩ (raceActions i j) p).shared.world := by
  have hilt : i < p.stages.length := (List.getElem?_eq_some_iff.1 hi).1
  have hjlt : j < p.stages.length := (List.getElem?_eq_some_iff.1 hj).1
  rw [raceActions, Pool.run_append, Pool.run_append]
  obtain ⟨seen, next, hs1, hw1, hnext⟩ :=
    poll_to_integration hempty hcs hvalid.1 hf (by simp [hidle]) hi hw
  have hf1 := hf.run ⟨Memory.answer, fun _ => 1⟩ (List.replicate 4 (.poll i))
  generalize Pool.run ⟨Memory.answer, fun _ => 1⟩ (List.replicate 4 (.poll i)) p = p1 at *
  have huse1 : p1.use = Function.update p.use i (.holding c.clusterId) := by
    have hset := Pool.use_set hi (.calling c.clusterId seen 1
      (.createIntegration s.id integrationToCreate) next) p1.shared
    rwa [← hs1] at hset
  have hj1 : p1.stages[j]? = some (.fresh d.provision) := by
    rw [hs1, List.getElem?_set_ne hij, hj]
  have hfree1 : ∀ k, (p1.use k).key? ≠ some d.clusterId := by
    intro k
    rw [huse1, hidle]
    by_cases hk : k = i
    · subst hk
      simpa using hne
    · simp [hk]
  obtain ⟨seen', next', hs2, hw2, hnext'⟩ :=
    poll_to_integration hempty hds hvalid.2 hf1 hfree1 hj1 hw1
  generalize Pool.run ⟨Memory.answer, fun _ => 1⟩ (List.replicate 4 (.poll j)) p1 = p2 at *
  obtain ⟨a, ha⟩ := hnext { integrationToCreate with id := Memory.integrationId 1 }
  obtain ⟨b, hb⟩ := hnext' { integrationToCreate with id := Memory.integrationId 2 }
  rw [hs1, List.set_comm _ _ hij] at hs2
  obtain ⟨hs3, hw3⟩ := poll_to_end (v := ⟨Memory.answer, fun _ => 1⟩)
    (by simpa using hilt) hs2 hw2 (lone_integrate s 0) ha
  rw [List.set_comm _ _ hij.symm] at hs3
  obtain ⟨hs4, hw4⟩ := poll_to_end (v := ⟨Memory.answer, fun _ => 1⟩)
    (by simpa using hjlt) hs3 hw3 (lone_integrate _ 1) hb
  refine ⟨a, b, hs4, ?_⟩
  have hrun : Pool.run ⟨Memory.answer, fun _ => 1⟩ [.poll i, .poll j] p2 =
      (p2.act ⟨Memory.answer, fun _ => 1⟩ (.poll i)).act ⟨Memory.answer, fun _ => 1⟩ (.poll j) := rfl
  rw [hrun, hw4]
  refine ⟨_, List.mem_singleton_self _, ?_⟩
  have hreusable : ∀ n, Integration.isReusable
      { integrationToCreate with id := Memory.integrationId n } = true := fun n =>
    isReusable_of_toCreate (Memory.integrationId_ne_empty n) rfl rfl
  simp [hempty, hreusable]

theorem sound_lone {s : Service} (hid : s.id = "P") : (lone s).Sound := by
  refine ⟨List.nodup_singleton _, fun t ht n _ he => ?_⟩
  rw [List.mem_singleton.1 ht, hid] at he
  have hlist := congrArg String.toList he
  simp [Memory.serviceId] at hlist

/-- What is doubled stays so while provisionings that have not begun are made. -/
theorem guarded_of_doubled {v : Oncall.Service Call Call.Reply Memory}
    (hv : v.answer = Memory.answer) {p : Pool Call Call.Reply TicketingConfig Outcome Memory}
    (hf : p.Fits) (hdoubled : Doubled p.shared.world)
    (hstages : ∀ st ∈ p.stages, st.isOver = true ∨
      ∃ e : TicketingConfig, st = .fresh e.provision) :
    p.Guarded v Doubled (fun _ _ _ => True) (fun _ _ => True) := by
  refine ⟨hf, hdoubled, fun k st hst => ?_⟩
  rcases hstages st (List.mem_of_getElem? hst) with hover | ⟨e, rfl⟩
  · cases st with
    | finished a => trivial
    | dropped seen => trivial
    | _ => cases hover
  · cases hprovision : e.provision with
    | settled o => trivial
    | locked key seen body =>
      obtain ⟨rfl, rfl, rfl⟩ := TicketingConfig.provision_eq_locked hprovision
      intro w _
      rw [Workflow.SafeFor, hv]
      exact (TicketingConfig.provisionCalls_keeping seen).safe
        (fun _ _ hkeep hw => hw.answer hkeep) w

/-- Two valid configs with one service name and different clusters can end with two integrations on
their service. -/
theorem exists_duplicate {configs : List TicketingConfig} {c d : TicketingConfig}
    (hc : c ∈ configs) (hd : d ∈ configs) (hvalid : c.validate = .ok () ∧ d.validate = .ok ())
    (hname : c.serviceName = d.serviceName) (hne : c.clusterId ≠ d.clusterId) :
    ∃ (m : Memory) (as : List Action), m.Sound ∧ (m.services.map Service.name).Nodup ∧
      OneEach m.services ∧ (∀ j, .drop j ∉ as) ∧
      (Pool.run ⟨Memory.answer, fun _ => 1⟩ as
        (Pool.start (configs.map TicketingConfig.provision) m)).IsOver ∧
      ¬ OneEach (Pool.run ⟨Memory.answer, fun _ => 1⟩ as
        (Pool.start (configs.map TicketingConfig.provision) m)).shared.world.services := by
  obtain ⟨i, hi⟩ := List.getElem?_of_mem hc
  obtain ⟨j, hj⟩ := List.getElem?_of_mem hd
  obtain ⟨s, hsid, hsname, hempty⟩ : ∃ s : Service, s.id = "P" ∧ s.name = c.serviceName ∧
      s.integrations = [] :=
    ⟨{ serviceToCreate c ⟨"", ""⟩ with id := "P" }, rfl, rfl, rfl⟩
  have hij : i ≠ j := by
    rintro rfl
    rw [hi] at hj
    cases hj
    exact hne rfl
  have hfresh : ∀ (k : Nat) (e : TicketingConfig), configs[k]? = some e →
      (Pool.start (configs.map TicketingConfig.provision) (lone s)).stages[k]? =
        some (Stage.fresh e.provision) := by
    intro k e he
    simp [Pool.start, he]
  obtain ⟨a, b, hstages, hdoubled⟩ := poll_race (Pool.fits_start _ (lone s))
    (Pool.use_start _ (lone s)) rfl (hfresh i c hi) (hfresh j d hj) hij hvalid hsname.symm
    (hname.symm.trans hsname.symm) hne hempty
  have hraced : ∀ st ∈ (Pool.run ⟨Memory.answer, fun _ => 1⟩ (raceActions i j)
      (Pool.start (configs.map TicketingConfig.provision) (lone s))).stages,
      st.isOver = true ∨ ∃ e : TicketingConfig, st = .fresh e.provision := by
    intro st hst
    rw [hstages] at hst
    rcases List.mem_or_eq_of_mem_set hst with hst | rfl
    · rcases List.mem_or_eq_of_mem_set hst with hst | rfl
      · rw [Pool.start, List.map_map] at hst
        obtain ⟨e, -, rfl⟩ := List.mem_map.1 hst
        exact Or.inr ⟨e, rfl⟩
      · exact Or.inl rfl
    · exact Or.inl rfl
  have hguarded := guarded_of_doubled (v := ⟨Memory.answer, fun _ => 1⟩) rfl
    ((Pool.fits_start (configs.map TicketingConfig.provision) (lone s)).run
      ⟨Memory.answer, fun _ => 1⟩ (raceActions i j)) hdoubled hraced
  -- once the race is over, whatever rounds it takes for the others to finish
  refine ⟨lone s, raceActions i j ++ Pool.roundsActions (List.replicate configs.length none) 1
    (roundsNeeded configs.length 1), sound_lone hsid, List.nodup_singleton _, ?_, ?_, ?_, ?_⟩
  · intro t ht
    rw [List.mem_singleton.1 ht, hempty]
    exact Nat.zero_le 1
  · intro k hk
    rcases List.mem_append.1 hk with hk | hk
    · simp [raceActions] at hk
    · obtain ⟨n, hn⟩ := Pool.drop_mem_roundsActions hk
      rw [List.getElem?_replicate] at hn
      split at hn <;> cases hn
  · rw [Pool.run_append]
    exact isOver_rounds (fun _ => rfl) _ _ List.length_replicate 1 (Nat.le_refl _)
  · rw [Pool.run_append]
    obtain ⟨t, ht, htwo⟩ := (hguarded.run (Pool.roundsActions (List.replicate configs.length none) 1
      (roundsNeeded configs.length 1))).inv
    intro hone
    have := hone t ht
    omega

/-- Concurrent provisionings of valid configs never give a service a second integration, in any
order of polls and from any PagerDuty, exactly if configs with one service name have one cluster. -/
theorem never_duplicates_iff {configs : List TicketingConfig}
    (hvalid : ∀ c ∈ configs, c.validate = .ok ()) :
    (∀ (delay : Nat) (m : Memory) (as : List Action), m.Sound →
      (m.services.map Service.name).Nodup → OneEach m.services → (∀ j, .drop j ∉ as) →
      (Pool.run ⟨Memory.answer, fun _ => delay⟩ as
        (Pool.start (configs.map TicketingConfig.provision) m)).IsOver →
      OneEach (Pool.run ⟨Memory.answer, fun _ => delay⟩ as
        (Pool.start (configs.map TicketingConfig.provision) m)).shared.world.services) ↔
      MeetOnLocks configs := by
  constructor
  · intro hnever c hc d hd hname
    by_contra hne
    obtain ⟨m, as, hsound, hnames, hone, hdrop, hover, hdup⟩ :=
      exists_duplicate hc hd ⟨hvalid c hc, hvalid d hd⟩ hname hne
    exact hdup (hnever 1 m as hsound hnames hone hdrop hover)
  · exact fun hmeet delay m as hsound _ hone _ _ =>
      oneEach_of_meet hmeet (fun _ => delay) hsound hone as

/-- Two clusters whose configs have one service name. -/
def twins : List TicketingConfig :=
  [{ TicketingConfig.forCluster "c1" "x.example.com" with
      apiKey := "k", escalationPolicyId := "e" },
    { TicketingConfig.forCluster "c1.x" "example.com" with
      apiKey := "k", escalationPolicyId := "e" }]

/-- For the twins some order of polls ends with two integrations on one service. -/
theorem not_never_duplicates_twins :
    (∀ c ∈ twins, c.validate = .ok ()) ∧
    ¬ ∀ (delay : Nat) (m : Memory) (as : List Action), m.Sound →
      (m.services.map Service.name).Nodup → OneEach m.services → (∀ j, .drop j ∉ as) →
      (Pool.run ⟨Memory.answer, fun _ => delay⟩ as
        (Pool.start (twins.map TicketingConfig.provision) m)).IsOver →
      OneEach (Pool.run ⟨Memory.answer, fun _ => delay⟩ as
        (Pool.start (twins.map TicketingConfig.provision) m)).shared.world.services := by
  have hvalid : ∀ c ∈ twins, c.validate = .ok () := by
    intro c hc
    rcases List.mem_cons.1 hc with rfl | hc
    · rfl
    · rw [List.mem_singleton.1 hc]
      rfl
  refine ⟨hvalid, fun hnever => ?_⟩
  have hmeet := (never_duplicates_iff hvalid).1 hnever
  unfold MeetOnLocks at hmeet
  revert hmeet
  decide

/-- The polling loop is such an order: both twins succeed, and their one service, which had no
integration, has two. -/
theorem twins_duplicate :
    let s : Service := ⟨"P1", "osd-c1.x.example.com-hive-cluster", "", ⟨"", ""⟩, none, none, none, []⟩
    let ended := provisionAll (twins.map fun c => ⟨c, none⟩) 1 (lone s)
    (ended.1.map fun m => m.stage.result?.map Prod.snd) = [some (.ok "I1"), some (.ok "I2")] ∧
      OneEach [s] ∧ ¬ OneEach ended.2.world.services := by
  unfold OneEach
  decide

end Oncall.PagerDuty
