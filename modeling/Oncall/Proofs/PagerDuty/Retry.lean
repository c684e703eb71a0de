import Oncall.Proofs.PagerDuty.Faults
import Oncall.Proofs.PagerDuty.Memory

/-! Retrying is safe. Provisionings run one after another against any PagerDuty that refuses names in
use, hands out new IDs and lists what it has, and every call may fail, before or after it took effect.
The services only grow, each by one integration at most, and no name gets a second service; a
name that was provisioned once is settled, so later successes return the same IDs and create
nothing. -/

namespace Oncall.PagerDuty

open Relation (ReflTransGen)

variable {W : Type} {services : W → List Service} {I : W → Prop}
  {answer : (c : Call) → W → c.Reply × W}

/-- How a PagerDuty without failures treats the calls of a provisioning, in all worlds in `I`, which
these calls do not leave. -/
structure Lawful (services : W → List Service) (I : W → Prop)
    (answer : (c : Call) → W → c.Reply × W) : Prop where
  ids_nodup : ∀ {w}, I w → ((services w).map Service.id).Nodup
  policy : ∀ id {w}, I w → I (answer (.getEscalationPolicy id) w).2 ∧
    services (answer (.getEscalationPolicy id) w).2 = services w
  create_taken : ∀ s {w}, I w → (∃ t ∈ services w, t.name = s.name) →
    I (answer (.createService s) w).2 ∧
    services (answer (.createService s) w).2 = services w ∧
    ∃ message, (answer (.createService s) w).1 = .error (.duplicateName message)
  create_free : ∀ s {w}, I w → (∀ t ∈ services w, t.name ≠ s.name) → s.integrations = [] →
    I (answer (.createService s) w).2 ∧
    ∃ before new after, services w = before ++ after ∧
      services (answer (.createService s) w).2 = before ++ new :: after ∧
      (answer (.createService s) w).1 = .ok new ∧
      new.name = s.name ∧ new.integrations = [] ∧ ∀ t ∈ services w, t.id ≠ new.id
  list : ∀ query {w}, I w → I (answer (.listServices query) w).2 ∧
    services (answer (.listServices query) w).2 = services w ∧
    ∃ listed, (answer (.listServices query) w).1 = .ok listed ∧
      listed.filter (fun s => s.name == query) = (services w).filter fun s => s.name == query
  integrate : ∀ id i {w}, I w → (∃ s ∈ services w, s.id = id) →
    I (answer (.createIntegration id i) w).2 ∧
    ∃ before s after new is, services w = before ++ s :: after ∧ s.id = id ∧
      services (answer (.createIntegration id i) w).2 =
        before ++ { s with integrations := is } :: after ∧
      is.Perm (new :: s.integrations) ∧ (answer (.createIntegration id i) w).1 = .ok new ∧
      new.name = i.name ∧ new.kind = i.kind ∧ new.id ≠ ""

theorem Lawful.provides (h : Lawful services I answer) : Provides services I answer where
  nodup := h.ids_nodup
  policy := h.policy
  create s w hw hempty := by
    by_cases htaken : ∃ t ∈ services w, t.name = s.name
    · obtain ⟨hI, hsame, message, hr⟩ := h.create_taken s hw htaken
      exact ⟨hI, Or.inl ⟨hsame, _, hr⟩⟩
    · have hfree : ∀ t ∈ services w, t.name ≠ s.name := fun t ht hn => htaken ⟨t, ht, hn⟩
      obtain ⟨hI, before, new, after, hb, ha, hr, hname, hnew, hid⟩ :=
        h.create_free s hw hfree hempty
      exact ⟨hI, Or.inr ⟨before, after, new, hb, ha, named_eq_none_iff.2 hfree, hname, hnew, hid,
        Or.inl hr⟩⟩
  list query w hw := by
    obtain ⟨hI, hsame, listed, hr, hl⟩ := h.list query hw
    refine ⟨hI, hsame, Or.inr ⟨listed, hr, ?_⟩⟩
    rw [named, named, ← List.head?_filter, ← List.head?_filter, hl]
  integrate id i w hw hid := by
    obtain ⟨hI, before, s, after, new, is, hb, hs, ha, his, hr, hname, hkind, hnew⟩ :=
      h.integrate id i hw hid
    exact ⟨hI, Or.inr ⟨before, after, s, new, is, hb, hs, hnew, hname, hkind, his, ha, Or.inl hr⟩⟩

/-- The PagerDuty in memory is lawful while nothing is set to fail. -/
theorem Memory.lawful : Lawful Memory.services
    (fun m => m.Sound ∧ m.failLists = 0 ∧ m.failIntegrations = 0) Memory.answer where
  ids_nodup h := h.1.nodup
  policy id m h := ⟨h, rfl⟩
  create_taken s m h htaken := by
    obtain ⟨t, ht, hname⟩ := htaken
    have htaken : named s.name m.services ≠ none := fun hn => named_eq_none_iff.1 hn t ht hname
    obtain ⟨u, hu⟩ := Option.ne_none_iff_exists'.1 htaken
    simp only [answer]
    rw [createService_of_some hu]
    exact ⟨h, rfl, _, rfl⟩
  create_free s m h hfree hempty := by
    have hsound := h.1.createService s
    simp only [answer]
    rw [createService_of_none (named_eq_none_iff.2 hfree)] at hsound ⊢
    exact ⟨⟨hsound, h.2⟩, m.services, _, [], (List.append_nil _).symm, rfl, rfl, rfl, hempty,
      fun t ht => h.1.unused t ht _ (Nat.lt_succ_self _)⟩
  list query m h := by
    simp only [answer]
    rw [listServices_of_zero h.2.1]
    exact ⟨h, rfl, _, rfl, filter_listed query m.services⟩
  integrate id i m h hid := by
    obtain ⟨s, hs, rfl⟩ := hid
    obtain ⟨before, after, hsplit⟩ := List.append_of_mem hs
    have hids := h.1.nodup
    rw [hsplit] at hids
    simp only [answer]
    rw [createIntegration_of_zero h.2.2]
    refine ⟨⟨h.1.attach _ _ _, h.2⟩, before, s, after,
      { i with id := integrationId (m.createdIntegrations + 1) }, _, hsplit, rfl, ?_,
      List.perm_append_singleton _ _, rfl, rfl, rfl, integrationId_ne_empty _⟩
    rw [hsplit]
    exact attach_middle _ hids

/-! ### Failures -/

/-- A PagerDuty whose calls are numbered and fail as told. -/
def faulty (answer : (c : Call) → W → c.Reply × W) (fault : Nat → Fault) (c : Call)
    (w : Nat × W) : c.Reply × (Nat × W) :=
  let r := withFaults (fun _ _ => fault w.1) answer c w.2
  (r.1, w.1 + 1, r.2)

theorem Provides.faulty (h : Provides services I answer) (fault : Nat → Fault) :
    Provides (fun w => services w.2) (fun w => I w.2) (faulty answer fault) where
  nodup hw := h.nodup hw
  policy id w hw := (h.withFaults fun _ _ => fault w.1).policy id hw
  create s w hw hempty := (h.withFaults fun _ _ => fault w.1).create s hw hempty
  list query w hw := (h.withFaults fun _ _ => fault w.1).list query hw
  integrate id i w hw hid := (h.withFaults fun _ _ => fault w.1).integrate id i hw hid

/-! ### Provisioning in turn -/

/-- One provisioning of a sequence, with the world before and after it. -/
structure Turn (W : Type) where
  config : TicketingConfig
  before : W
  outcome : Outcome
  after : W

/-- Provisions configs one after another; nobody else wants their locks. -/
def inTurn (answer : (c : Call) → W → c.Reply × W) : List TicketingConfig → W → List (Turn W)
  | [], _ => []
  | c :: cs, w =>
    let r := c.provision.body.run answer w
    ⟨c, w, r.1, r.2⟩ :: inTurn answer cs r.2

/-- A provisioning that runs alone grows the services for its name. -/
theorem Provides.run_provision (h : Provides services I answer) (c : TicketingConfig) {w : W}
    (hw : I w) :
    I (c.provision.body.run answer w).2 ∧
      ReflTransGen (Grows c.serviceName) (services w)
        (services (c.provision.body.run answer w).2) ∧
      Returned services c.serviceName (c.provision.body.run answer w).1
        (c.provision.body.run answer w).2 := by
  unfold TicketingConfig.provision
  split
  next e he =>
    refine ⟨hw, .refl, ?_⟩
    intro id hid
    cases hid
  next =>
    have hsafe : Calls.Grow services I (fun _ => True) answer (fun _ _ => False)
        (fun w w' => Grows c.serviceName (services w) (services w')) c.serviceName
        c.provisionCalls w :=
      TicketingConfig.provisionCalls_grows h (fun _ _ hf => hf.elim) (fun _ _ _ _ hg => hg)
        (fun _ _ _ _ _ => trivial) rfl w
    obtain ⟨hI, hmoves, hret⟩ := Workflow.Safe.run hsafe ⟨hw, trivial⟩
    have hle : (fun w w' => Grows c.serviceName (services w) (services w')) ≤
        Function.onFun (Grows c.serviceName) services := fun _ _ hg => hg
    exact ⟨hI.1, ReflTransGen.lift services hle _ _ hmoves, hret⟩

/-! ### What a sequence keeps -/

def Integration.isAlerts (i : Integration) : Bool :=
  i.name == integrationName && i.kind == integrationKind

/-- How many integrations for alerts the service with an ID has. -/
def alerts (id : String) (services : List Service) : Nat :=
  ((services.filter fun s => s.id == id).flatMap Service.integrations).countP Integration.isAlerts

/-- How many services of a name there are that were not there at first. -/
def created (name : String) (first services : List Service) : Nat :=
  services.countP fun s => s.name == name && !first.any fun t => t.id == s.id

theorem alerts_middle (id : String) (before after : List Service) (s : Service) :
    alerts id (before ++ s :: after) = alerts id (before ++ after) +
      if s.id = id then s.integrations.countP Integration.isAlerts else 0 := by
  simp only [alerts, List.filter_append, List.flatMap_append, List.countP_append, List.filter_cons]
  by_cases h : s.id = id
  · simp [h]
    omega
  · simp [h]

theorem isAlerts_of_isReusable {i : Integration} (h : i.isReusable) : i.isAlerts = true := by
  simp only [Integration.isReusable, Bool.and_eq_true] at h
  simp [Integration.isAlerts, h.1.2, h.2]

/-- A service has as many integrations for alerts as at first, or one more and then one to reuse. -/
def AtMostOneMore (id : String) (first services : List Service) : Prop :=
  alerts id services ≤ alerts id first ∨
    (alerts id services ≤ alerts id first + 1 ∧
      ∃ s ∈ services, s.id = id ∧ s.reusable? ≠ none)

namespace Grows

variable {name : String} {l l' first : List Service}

theorem atMostOneMore (h : Grows name l l') (hl : (l.map Service.id).Nodup) {id : String}
    (hone : AtMostOneMore id first l) : AtMostOneMore id first l' := by
  cases h with
  | same => exact hone
  | @create before after s _ _ hempty _ =>
    have hcount : alerts id (before ++ s :: after) = alerts id (before ++ after) := by
      rw [alerts_middle, hempty]
      simp
    rcases hone with hle | ⟨hle, t, ht, htid, hreuse⟩
    · left
      omega
    · refine Or.inr ⟨by omega, t, ?_, htid, hreuse⟩
      rcases List.mem_append.1 ht with ht | ht
      · exact List.mem_append_left _ ht
      · exact List.mem_append_right _ (List.mem_cons_of_mem s ht)
  | @integrate before after s i is _ _ hnone hi his =>
    have hnew : is.countP Integration.isAlerts = s.integrations.countP Integration.isAlerts + 1 := by
      rw [his.countP_eq, List.countP_cons_of_pos (isAlerts_of_isReusable hi)]
    have hbefore := alerts_middle id before after s
    have hafter := alerts_middle id before after { s with integrations := is }
    simp only [hnew] at hafter
    by_cases hid : s.id = id
    · rw [if_pos hid] at hbefore hafter
      rcases hone with hle | ⟨-, t, ht, htid, hreuse⟩
      · refine Or.inr ⟨by omega, { s with integrations := is }, by simp, hid, ?_⟩
        rw [Service.reusable?_add hnone hi his]
        exact Option.some_ne_none i
      · have hts : t = s := List.inj_on_of_nodup_map hl ht (by simp) (htid.trans hid.symm)
        rw [hts] at hreuse
        exact absurd hnone hreuse
    · rw [if_neg hid] at hbefore hafter
      rcases hone with hle | ⟨hle, t, ht, htid, hreuse⟩
      · left
        omega
      · refine Or.inr ⟨by omega, t, ?_, htid, hreuse⟩
        rcases List.mem_append.1 ht with ht | ht
        · exact List.mem_append_left _ ht
        · rcases List.mem_cons.1 ht with rfl | ht
          · exact absurd htid hid
          · exact List.mem_append_right _ (List.mem_cons_of_mem _ ht)

/-- A second service of a name is never created. -/
theorem created_le_one (h : Grows name l l') {other : String} (hl : created other first l ≤ 1) :
    created other first l' ≤ 1 := by
  cases h with
  | same => exact hl
  | @create before after s hname hfree _ _ =>
    by_cases hother : name = other
    · subst hother
      have hnone : created name first (before ++ after) = 0 := by
        refine List.countP_eq_zero.2 fun t ht => ?_
        simp [named_eq_none_iff.1 hfree t ht]
      simp only [created, List.countP_append, List.countP_cons] at hnone ⊢
      split <;> omega
    · have hskip : created other first (before ++ s :: after) =
          created other first (before ++ after) := by
        simp [created, hname, hother]
      rwa [hskip]
  | integrate => simpa [created, List.countP_cons] using hl

end Grows

/-- The services have grown, for whichever names. -/
def Grown : List Service → List Service → Prop := ReflTransGen fun l l' => ∃ name, Grows name l l'

namespace Grown

variable {l l' : List Service}

theorem nodup (h : Grown l l') (hl : (l.map Service.id).Nodup) : (l'.map Service.id).Nodup := by
  induction h with
  | refl => exact hl
  | tail _ hstep ih =>
    obtain ⟨name, hgrows⟩ := hstep
    exact hgrows.nodup ih

theorem settled (h : Grown l l') {name : String} {s : Service} {i : Integration}
    (hl : Settled name s i l) : Settled name s i l' := by
  induction h with
  | refl => exact hl
  | tail _ hstep ih =>
    obtain ⟨name, hgrows⟩ := hstep
    exact hgrows.settled ih

theorem alerts_le (h : Grown l l') (hl : (l.map Service.id).Nodup) (id : String) :
    alerts id l' ≤ alerts id l + 1 := by
  have hone : AtMostOneMore id l l' := by
    induction h with
    | refl => exact Or.inl (Nat.le_refl _)
    | tail hsteps hstep ih =>
      obtain ⟨name, hgrows⟩ := hstep
      exact hgrows.atMostOneMore (Grown.nodup hsteps hl) ih
  rcases hone with hle | ⟨hle, -⟩
  · omega
  · exact hle

theorem created_le_one (h : Grown l l') (name : String) : created name l l' ≤ 1 := by
  induction h with
  | refl =>
    have hnone : created name l l = 0 := by
      refine List.countP_eq_zero.2 fun t ht => ?_
      have hold : (l.any fun u => u.id == t.id) = true :=
        List.any_eq_true.2 ⟨t, ht, beq_self_eq_true _⟩
      simp [hold]
    omega
  | tail _ hstep ih =>
    obtain ⟨other, hgrows⟩ := hstep
    exact hgrows.created_le_one ih

end Grown

theorem grown_of_grows {name : String} {l l' : List Service}
    (h : ReflTransGen (Grows name) l l') : Grown l l' := by
  induction h with
  | refl => exact .refl
  | tail _ hstep ih => exact ih.tail ⟨name, hstep⟩

/-- For a settled name any number of moves do nothing. -/
theorem eq_of_settled_of_grows {name : String} {l l' : List Service} {s : Service}
    {i : Integration} (h : ReflTransGen (Grows name) l l') (hl : Settled name s i l) : l' = l := by
  induction h with
  | refl => rfl
  | tail _ hstep ih =>
    subst ih
    exact hstep.eq_of_settled hl

/-! ### Retry safety -/

/-- A later provisioning of a name that was provisioned: it creates nothing, and if it succeeds it
returns the same IDs. -/
def Repeats (services : W → List Service) (t u : Turn W) : Prop :=
  t.config.serviceName = u.config.serviceName → ∀ id, t.outcome.2 = .ok id →
    services u.after = services u.before ∧
    ∀ id', u.outcome.2 = .ok id' → id' = id ∧
      u.outcome.1.serviceId = t.outcome.1.serviceId ∧
      u.outcome.1.integrationId = t.outcome.1.integrationId

namespace Provides

variable (h : Provides services I answer)

include h

theorem grown_of_mem_inTurn {cs : List TicketingConfig} {w : W} (hw : I w) {t : Turn W}
    (ht : t ∈ inTurn answer cs w) : Grown (services w) (services t.after) := by
  induction cs generalizing w with
  | nil => cases ht
  | cons c cs ih =>
    obtain ⟨hI, hmoves, -⟩ := h.run_provision c hw
    rcases List.mem_cons.1 ht with rfl | ht
    · exact grown_of_grows hmoves
    · exact (grown_of_grows hmoves).trans (ih hI ht)

/-- Once a name is settled, every later turn for it leaves the services as they are and returns the
IDs that the name is settled with. -/
theorem turn_of_settled {cs : List TicketingConfig} {w : W} (hw : I w) {name : String}
    {s : Service} {i : Integration} (hs : Settled name s i (services w)) {u : Turn W}
    (hu : u ∈ inTurn answer cs w) (hname : u.config.serviceName = name) :
    services u.after = services u.before ∧ ∀ id, u.outcome.2 = .ok id →
      id = i.id ∧ u.outcome.1.serviceId = s.id ∧ u.outcome.1.integrationId = i.id := by
  induction cs generalizing w with
  | nil => cases hu
  | cons c cs ih =>
    obtain ⟨hI, hmoves, hret⟩ := h.run_provision c hw
    rcases List.mem_cons.1 hu with rfl | hu
    · subst hname
      have hsame := eq_of_settled_of_grows hmoves hs
      refine ⟨hsame, fun id hid => ?_⟩
      obtain ⟨s', i', ⟨hs', hi'⟩, hsid, hiid, hid'⟩ := hret id hid
      rw [hsame, hs.1] at hs'
      cases hs'
      rw [hs.2] at hi'
      cases hi'
      exact ⟨hid', hsid, hiid⟩
    · exact ih hI ((grown_of_grows hmoves).settled hs) hu

theorem pairwise_inTurn (cs : List TicketingConfig) {w : W} (hw : I w) :
    (inTurn answer cs w).Pairwise (Repeats services) := by
  induction cs generalizing w with
  | nil => exact List.Pairwise.nil
  | cons c cs ih =>
    obtain ⟨hI, hmoves, hret⟩ := h.run_provision c hw
    refine List.Pairwise.cons (fun u hu hname id hid => ?_) (ih hI)
    obtain ⟨s, i, hs, hsid, hiid, rfl⟩ := hret id hid
    obtain ⟨hsame, hids⟩ := h.turn_of_settled hI hs hu hname.symm
    refine ⟨hsame, fun id' hid' => ?_⟩
    obtain ⟨h1, h2, h3⟩ := hids id' hid'
    exact ⟨h1, h2.trans hsid.symm, h3.trans hiid.symm⟩

end Provides

/-- However calls fail, over a sequence of provisionings every service gains at most one integration
for alerts and every name at most one service, and a name that was provisioned once is only ever
found again. -/
theorem provision_retry_safe (h : Lawful services I answer) (fault : Nat → Fault)
    (cs : List TicketingConfig) {w : W} (hw : I w) :
    (∀ t ∈ inTurn (faulty answer fault) cs (0, w),
      (∀ id, alerts id (services t.after.2) ≤ alerts id (services w) + 1) ∧
      ∀ name, created name (services w) (services t.after.2) ≤ 1) ∧
    (inTurn (faulty answer fault) cs (0, w)).Pairwise (Repeats fun w => services w.2) := by
  have hfaulty := h.provides.faulty fault
  refine ⟨fun t ht => ?_, hfaulty.pairwise_inTurn cs (w := (0, w)) hw⟩
  have hgrown := hfaulty.grown_of_mem_inTurn (w := (0, w)) hw ht
  exact ⟨hgrown.alerts_le (h.ids_nodup hw), hgrown.created_le_one⟩

/-- A provisioning that loses the reply of its last call is repaired by the next one, and the one
after that finds the same IDs. -/
theorem provision_retry_safe_after_lost_reply :
    let c := { TicketingConfig.forCluster "c1" "x.example.com" with
      apiKey := "k", escalationPolicyId := "e" }
    let fault : Nat → Fault := fun n => if n = 2 then .after .transport else .none
    let turns := inTurn (faulty Memory.answer fault) [c, c, c] (0, ⟨[], 0, 0, [], 0, 0⟩)
    (turns.map fun t => t.outcome.2) = [.error (.api .transport), .ok "I1", .ok "I1"] ∧
      turns.Pairwise (Repeats fun w => w.2.services) ∧
      ∀ t ∈ turns, (∀ id, alerts id t.after.2.services ≤ 1) ∧
        ∀ name, created name [] t.after.2.services ≤ 1 := by
  intro c fault turns
  have hsound : Memory.Sound ⟨[], 0, 0, [], 0, 0⟩ := ⟨List.nodup_nil, by simp⟩
  obtain ⟨hgain, hrepeat⟩ := provision_retry_safe Memory.lawful fault [c, c, c]
    (w := ⟨[], 0, 0, [], 0, 0⟩) ⟨hsound, rfl, rfl⟩
  exact ⟨by decide, hrepeat, hgain⟩

end Oncall.PagerDuty
