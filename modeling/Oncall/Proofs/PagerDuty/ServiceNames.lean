import Oncall.Proofs.PagerDuty.Retry
import Oncall.Proofs.PagerDuty.Duplicates

/-! Which clusters share a service. A service name joins the cluster ID and the base domain with a dot,
and both may have dots themselves, so two clusters have one name exactly if the dot can be shifted
from one pair of parts to the other. A service that one provisioning created is adopted by
provisionings for such clusters only. -/

namespace Oncall.PagerDuty

open Relation (ReflTransGen)

/-- A join with a separator is the same only if the parts are, or if the separator stands in one of
them. -/
theorem join_eq_join_iff {α : Type} (sep : α) (a b c d : List α) :
    a ++ sep :: b = c ++ sep :: d ↔
      (a = c ∧ b = d) ∨ (∃ m, c = a ++ sep :: m ∧ b = m ++ sep :: d) ∨
        ∃ m, a = c ++ sep :: m ∧ d = m ++ sep :: b := by
  constructor
  · intro h
    rcases List.append_eq_append_iff.1 h with ⟨_ | ⟨x, m⟩, hc, hb⟩ | ⟨_ | ⟨x, m⟩, ha, hd⟩
    · obtain ⟨-, rfl⟩ := List.cons.inj hb
      exact .inl ⟨by simpa using hc.symm, rfl⟩
    · obtain ⟨rfl, rfl⟩ := List.cons.inj hb
      exact .inr (.inl ⟨m, hc, rfl⟩)
    · obtain ⟨-, rfl⟩ := List.cons.inj hd
      exact .inl ⟨by simpa using ha, rfl⟩
    · obtain ⟨rfl, rfl⟩ := List.cons.inj hd
      exact .inr (.inr ⟨m, ha, rfl⟩)
  · rintro (⟨rfl, rfl⟩ | ⟨m, rfl, rfl⟩ | ⟨m, rfl, rfl⟩) <;> simp

namespace TicketingConfig

/-- The dot of the first name stands at a later one in the second. -/
def Shifted (c d : TicketingConfig) : Prop :=
  ∃ m : String, d.clusterId = c.clusterId ++ "." ++ m ∧ c.baseDomain = m ++ "." ++ d.baseDomain

/-- The same cluster, or one whose name has its dot elsewhere. -/
def Meets (c d : TicketingConfig) : Prop :=
  (c.clusterId = d.clusterId ∧ c.baseDomain = d.baseDomain) ∨ c.Shifted d ∨ d.Shifted c

theorem shifted_iff {c d : TicketingConfig} : c.Shifted d ↔
    ∃ m, d.clusterId.toList = c.clusterId.toList ++ '.' :: m ∧
      c.baseDomain.toList = m ++ '.' :: d.baseDomain.toList := by
  constructor
  · rintro ⟨m, hid, hdomain⟩
    exact ⟨m.toList, by simp [hid], by simp [hdomain]⟩
  · rintro ⟨m, hid, hdomain⟩
    exact ⟨String.ofList m, String.ext (by simp [hid]), String.ext (by simp [hdomain])⟩

/-- With one label, exactly such clusters have one service name. -/
theorem serviceName_eq_iff {c d : TicketingConfig} (hlabel : c.serviceLabel = d.serviceLabel) :
    c.serviceName = d.serviceName ↔ c.Meets d := by
  have hjoin : c.serviceName = d.serviceName ↔
      c.clusterId.toList ++ '.' :: c.baseDomain.toList =
        d.clusterId.toList ++ '.' :: d.baseDomain.toList := by
    rw [serviceName, serviceName, hlabel, String.append_left_inj]
    simp [String.ext_iff]
  rw [hjoin, join_eq_join_iff, Meets, shifted_iff, shifted_iff, String.toList_inj,
    String.toList_inj]

end TicketingConfig

/-! ### Adoption -/

variable {W : Type} {services : W → List Service} {I : W → Prop}
  {answer : (c : Call) → W → c.Reply × W}

namespace Grows

variable {name : String} {l l' : List Service}

/-- A service keeps its ID and its name. -/
theorem keeps (h : Grows name l l') {s : Service} (hs : s ∈ l) :
    ∃ s' ∈ l', s'.id = s.id ∧ s'.name = s.name := by
  cases h with
  | same => exact ⟨s, hs, rfl, rfl⟩
  | create =>
    rcases List.mem_append.1 hs with hs | hs
    · exact ⟨s, List.mem_append_left _ hs, rfl, rfl⟩
    · exact ⟨s, List.mem_append_right _ (List.mem_cons_of_mem _ hs), rfl, rfl⟩
  | @integrate before after t i is =>
    rcases List.mem_append.1 hs with hs | hs
    · exact ⟨s, List.mem_append_left _ hs, rfl, rfl⟩
    · rcases List.mem_cons.1 hs with rfl | hs
      · exact ⟨{ s with integrations := is }, by simp, rfl, rfl⟩
      · exact ⟨s, List.mem_append_right _ (List.mem_cons_of_mem _ hs), rfl, rfl⟩

/-- A service was there with its ID and its name, or it is for the name. -/
theorem comes (h : Grows name l l') {s : Service} (hs : s ∈ l') :
    (∃ t ∈ l, t.id = s.id ∧ t.name = s.name) ∨ s.name = name := by
  cases h with
  | same => exact .inl ⟨s, hs, rfl, rfl⟩
  | create hname =>
    rcases List.mem_append.1 hs with hs | hs
    · exact .inl ⟨s, List.mem_append_left _ hs, rfl, rfl⟩
    · rcases List.mem_cons.1 hs with rfl | hs
      · exact .inr hname
      · exact .inl ⟨s, List.mem_append_right _ hs, rfl, rfl⟩
  | integrate hname =>
    rcases List.mem_append.1 hs with hs | hs
    · exact .inl ⟨s, List.mem_append_left _ hs, rfl, rfl⟩
    · rcases List.mem_cons.1 hs with rfl | hs
      · exact .inr hname
      · exact .inl ⟨s, List.mem_append_right _ (List.mem_cons_of_mem _ hs), rfl, rfl⟩

end Grows

theorem Grown.keeps {l l' : List Service} (h : Grown l l') {s : Service} (hs : s ∈ l) :
    ∃ s' ∈ l', s'.id = s.id ∧ s'.name = s.name := by
  induction h with
  | refl => exact ⟨s, hs, rfl, rfl⟩
  | tail _ hstep ih =>
    obtain ⟨t, ht, hid, hname⟩ := ih
    obtain ⟨name, hgrows⟩ := hstep
    obtain ⟨t', ht', hid', hname'⟩ := hgrows.keeps ht
    exact ⟨t', ht', hid'.trans hid, hname'.trans hname⟩

theorem comes_of_grows {name : String} {l l' : List Service}
    (h : ReflTransGen (Grows name) l l') {s : Service} (hs : s ∈ l') :
    (∃ t ∈ l, t.id = s.id ∧ t.name = s.name) ∨ s.name = name := by
  induction h generalizing s with
  | refl => exact .inl ⟨s, hs, rfl, rfl⟩
  | tail _ hstep ih =>
    rcases hstep.comes hs with ⟨t, ht, hid, hname⟩ | hname
    · rcases ih ht with ⟨u, hu, hid', hname'⟩ | hname'
      · exact .inl ⟨u, hu, hid'.trans hid, hname'.trans hname⟩
      · exact .inr (hname.symm.trans hname')
    · exact .inr hname

namespace Turn

/-- The service with an ID was created in this turn. -/
def Created (services : W → List Service) (t : Turn W) (id : String) : Prop :=
  (∀ s ∈ services t.before, s.id ≠ id) ∧ ∃ s ∈ services t.after, s.id = id

/-- The service with an ID was adopted in this turn: a listing for a name was asked for, and this is
the first service in it that has the name. -/
def Adopts (answer : (c : Call) → W → c.Reply × W) (t : Turn W) (id : String) : Prop :=
  ∃ query w listed s, (Call.listServices query, w) ∈ t.config.provision.body.calls answer t.before ∧
    (answer (.listServices query) w).1 = .ok listed ∧ named query listed = some s ∧ s.id = id

end Turn

namespace TicketingConfig

/-- A provisioning lists no services but those for its own name. -/
def ListsFor (name : String) (call : Call) : Prop := ∀ query, call = .listServices query → query = name

theorem withService_lists (c : TicketingConfig) (name : String) (s : Service) :
    (c.withService s).Only (ListsFor name) := by
  unfold withService
  split
  · trivial
  · exact ⟨fun _ h => (nomatch h), fun r => by cases r <;> trivial⟩

theorem provisionCalls_lists (c : TicketingConfig) :
    c.provisionCalls.Only (ListsFor c.serviceName) := by
  refine ⟨fun _ h => (nomatch h), fun r => ?_⟩
  cases r with
  | error e => trivial
  | ok policy =>
    refine ⟨fun _ h => (nomatch h), fun r => ?_⟩
    cases r with
    | ok s => exact withService_lists c _ s
    | error e =>
      dsimp only
      split
      · refine ⟨fun query h => (Call.listServices.inj h).symm, fun r => ?_⟩
        cases r with
        | error e => trivial
        | ok listed =>
          dsimp only
          split
          · exact withService_lists c _ _
          · trivial
      · trivial

theorem withService_serviceId (c : TicketingConfig) (s : Service) (w : W) :
    ((c.withService s).run answer w).1.1.serviceId = s.id := by
  unfold withService
  split
  · rfl
  · rw [Workflow.run_call]
    cases (answer (.createIntegration s.id integrationToCreate) w).1 <;> rfl

/-- No listing is asked for once the service is known. -/
theorem not_mem_calls_withService (c : TicketingConfig) (s : Service) (w w' : W) (query : String) :
    (Call.listServices query, w') ∉ (c.withService s).calls answer w := by
  unfold withService
  split
  · exact List.not_mem_nil
  · intro hcall
    rcases List.mem_cons.1 hcall with hcall | hcall
    · cases hcall
    · revert hcall
      cases (answer (.createIntegration s.id integrationToCreate) w).1 <;> exact List.not_mem_nil

theorem serviceId_of_adopt {c : TicketingConfig} {name query : String} {rejection : ApiError}
    {w w' : W} {listed : List Service} {s : Service}
    (hcall : (Call.listServices query, w') ∈ (c.adopt name rejection).calls answer w)
    (hlisted : (answer (.listServices query) w').1 = .ok listed)
    (hs : named query listed = some s) :
    ((c.adopt name rejection).run answer w).1.1.serviceId = s.id := by
  rcases List.mem_cons.1 hcall with hcall | hcall
  · cases hcall
    rw [adopt, Workflow.run_call, hlisted]
    dsimp only
    rw [show (listed.find? fun s => s.name == name) = some s from hs]
    exact withService_serviceId c s _
  · revert hcall
    cases (answer (.listServices name) w).1 with
    | error e => exact (nomatch ·)
    | ok listed =>
      dsimp only
      split
      · exact fun hcall => (not_mem_calls_withService c _ _ _ _ hcall).elim
      · exact (nomatch ·)

/-- What a provisioning finds in a listing is what it leaves in the config. -/
theorem serviceId_of_listed {c : TicketingConfig} {query : String} {w w' : W}
    {listed : List Service} {s : Service}
    (hcall : (Call.listServices query, w') ∈ c.provision.body.calls answer w)
    (hlisted : (answer (.listServices query) w').1 = .ok listed)
    (hs : named query listed = some s) :
    (c.provision.body.run answer w).1.1.serviceId = s.id := by
  unfold provision at hcall ⊢
  split at hcall
  · cases hcall
  · obtain hcall | hcall := List.mem_cons.1 hcall
    · cases hcall
    · simp only [Job.body, provisionCalls, Workflow.run_call]
      revert hcall
      cases (answer (.getEscalationPolicy c.escalationPolicyId) w).1 with
      | error e => exact (nomatch ·)
      | ok policy =>
        intro hcall
        obtain hcall | hcall := List.mem_cons.1 hcall
        · cases hcall
        · simp only [withPolicy, Workflow.run_call]
          revert hcall
          cases (answer (.createService (serviceToCreate c policy)) _).1 with
          | ok t => exact fun hcall => (not_mem_calls_withService c _ _ _ _ hcall).elim
          | error e =>
            dsimp only
            split
            · exact fun hcall => serviceId_of_adopt hcall hlisted hs
            · exact (nomatch ·)

end TicketingConfig

namespace Provides

variable (h : Provides services I answer)

include h

/-- A provisioning makes each call after moves for its name. -/
theorem calls_provision (c : TicketingConfig) {w : W} (hw : I w) {x : Call × W}
    (hx : x ∈ c.provision.body.calls answer w) :
    I x.2 ∧ ReflTransGen (Grows c.serviceName) (services w) (services x.2) ∧
      TicketingConfig.ListsFor c.serviceName x.1 := by
  unfold TicketingConfig.provision at hx
  split at hx
  · cases hx
  · have hsafe : Calls.Grow services I (fun _ => True) answer (fun _ _ => False)
        (fun w w' => Grows c.serviceName (services w) (services w')) c.serviceName
        c.provisionCalls w :=
      TicketingConfig.provisionCalls_grows h (fun _ _ hf => hf.elim) (fun _ _ _ _ hg => hg)
        (fun _ _ _ _ _ => trivial) rfl w
    obtain ⟨hI, hmoves⟩ := hsafe.calls ⟨hw, trivial⟩ hx
    have hle : (fun w w' => Grows c.serviceName (services w) (services w')) ≤
        Function.onFun (Grows c.serviceName) services := fun _ _ hg => hg
    exact ⟨hI.1, ReflTransGen.lift services hle _ _ hmoves, c.provisionCalls_lists.calls hx⟩

theorem before_inTurn {cs : List TicketingConfig} {w : W} (hw : I w) {t : Turn W}
    (ht : t ∈ inTurn answer cs w) : I t.before ∧ Grown (services w) (services t.before) := by
  induction cs generalizing w with
  | nil => cases ht
  | cons c cs ih =>
    obtain ⟨hI, hmoves, -⟩ := h.run_provision c hw
    rcases List.mem_cons.1 ht with rfl | ht
    · exact ⟨hw, .refl⟩
    · obtain ⟨hI', hgrown⟩ := ih hI ht
      exact ⟨hI', (grown_of_grows hmoves).trans hgrown⟩

/-- What is adopted has, in the services before the turn or by the turn itself, the name asked for. -/
theorem name_of_adopts {t : Turn W} (ht : I t.before) {id : String} (ha : t.Adopts answer id) :
    ∃ w, I w ∧ Grown (services t.before) (services w) ∧
      ∃ s ∈ services w, s.id = id ∧ s.name = t.config.serviceName := by
  obtain ⟨query, w, listed, s, hcall, hlisted, hs, rfl⟩ := ha
  obtain ⟨hI, hmoves, hquery⟩ := h.calls_provision t.config ht hcall
  obtain rfl := hquery query rfl
  obtain ⟨-, -, hlist⟩ := h.list t.config.serviceName hI
  rw [hlisted] at hlist
  have hs' := hlist.named_of_ok.symm.trans hs
  exact ⟨w, hI, grown_of_grows hmoves, s, mem_of_named hs', rfl, (named_eq_some_iff.1 hs').1⟩

/-- What was created for one name is adopted for this name only. -/
theorem pairwise_adopts (cs : List TicketingConfig) {w : W} (hw : I w) :
    (inTurn answer cs w).Pairwise fun t u => ∀ id, t.Created services id → u.Adopts answer id →
      t.config.serviceName = u.config.serviceName := by
  induction cs generalizing w with
  | nil => exact List.Pairwise.nil
  | cons c cs ih =>
    obtain ⟨hI, hmoves, -⟩ := h.run_provision c hw
    refine List.Pairwise.cons (fun u hu id hcreated hadopts => ?_) (ih hI)
    obtain ⟨habsent, s, hs, hid⟩ := hcreated
    have hname : s.name = c.serviceName := by
      rcases comes_of_grows hmoves hs with ⟨t, ht, htid, -⟩ | hname
      · exact absurd (htid.trans hid) (habsent t ht)
      · exact hname
    obtain ⟨hbefore, hgrown⟩ := h.before_inTurn hI hu
    obtain ⟨w', hw', hgrown', t, ht, htid, htname⟩ := h.name_of_adopts hbefore hadopts
    obtain ⟨s', hs', hsid, hsname⟩ := Grown.keeps (hgrown.trans hgrown') hs
    have hst : s' = t :=
      List.inj_on_of_nodup_map (h.nodup hw') hs' ht (hsid.trans (hid.trans htid.symm))
    rw [← hname, ← hsname, hst, htname]

end Provides

theorem config_of_mem_inTurn {cs : List TicketingConfig} {w : W} {t : Turn W}
    (ht : t ∈ inTurn answer cs w) : t.config ∈ cs := by
  induction cs generalizing w with
  | nil => cases ht
  | cons c cs ih =>
    rcases List.mem_cons.1 ht with rfl | ht
    · exact List.mem_cons_self
    · exact List.mem_cons_of_mem _ (ih ht)

/-- The service that is adopted in a turn is the one that the turn leaves in its config. -/
theorem serviceId_of_adopts {cs : List TicketingConfig} {w : W} {t : Turn W}
    (ht : t ∈ inTurn answer cs w) {id : String} (h : t.Adopts answer id) :
    t.outcome.1.serviceId = id := by
  induction cs generalizing w with
  | nil => cases ht
  | cons c cs ih =>
    rcases List.mem_cons.1 ht with rfl | ht
    · obtain ⟨query, w', listed, s, hcall, hlisted, hs, rfl⟩ := h
      exact TicketingConfig.serviceId_of_listed hcall hlisted hs
    · exact ih ht

/-- With one label, two clusters have one service name only if the dot of one is shifted in the
other, and only for such a cluster does a provisioning adopt what another one created. -/
theorem serviceName_separates {services : W → List Service} {I : W → Prop}
    {answer : (c : Call) → W → c.Reply × W} (h : Provides services I answer) (label : String) :
    (∀ c d : TicketingConfig, c.serviceLabel = label → d.serviceLabel = label →
      (c.serviceName = d.serviceName ↔ c.Meets d)) ∧
    ∀ (configs : List TicketingConfig) (w : W), (∀ c ∈ configs, c.serviceLabel = label) → I w →
      (inTurn answer configs w).Pairwise fun t u => ∀ id, t.Created services id →
        u.Adopts answer id → t.config.Meets u.config := by
  refine ⟨fun c d hc hd => TicketingConfig.serviceName_eq_iff (hc.trans hd.symm), ?_⟩
  intro configs w hlabel hw
  refine (h.pairwise_adopts configs hw).imp_of_mem fun {t u} ht hu hname id hcreated hadopts => ?_
  have htlabel := hlabel _ (config_of_mem_inTurn ht)
  have hulabel := hlabel _ (config_of_mem_inTurn hu)
  exact (TicketingConfig.serviceName_eq_iff (htlabel.trans hulabel.symm)).1
    (hname id hcreated hadopts)

/-- The twins again, and a third cluster: whoever adopts what another created is the other's twin. -/
theorem serviceName_separates_twins :
    let third := { TicketingConfig.forCluster "c2" "x.example.com" with
      apiKey := "k", escalationPolicyId := "e" }
    (∀ c ∈ twins, c.serviceName ≠ third.serviceName) ∧
      (inTurn Memory.answer (third :: twins) ⟨[], 0, 0, [], 0, 0⟩).Pairwise fun t u => ∀ id,
        t.Created Memory.services id → u.Adopts Memory.answer id → t.config.Meets u.config := by
  have hsound : Memory.Sound ⟨[], 0, 0, [], 0, 0⟩ := ⟨List.nodup_nil, by simp⟩
  exact ⟨by decide, (serviceName_separates Memory.provides "osd").2 _ _ (by decide) hsound⟩

/-- The twins are two clusters, yet have one service name: the second adopts the service that was
created for the first. -/
theorem twins_adopt :
    ¬ (∀ c d : TicketingConfig, c.validate = .ok () → d.validate = .ok () →
      c.serviceLabel = d.serviceLabel → c.clusterId ≠ d.clusterId ∨ c.baseDomain ≠ d.baseDomain →
      c.serviceName ≠ d.serviceName) ∧
    ¬ (inTurn Memory.answer twins ⟨[], 0, 0, [], 0, 0⟩).Pairwise fun t u => ∀ id,
      t.Created Memory.services id → u.Adopts Memory.answer id →
        t.config.clusterId = u.config.clusterId ∧ t.config.baseDomain = u.config.baseDomain := by
  constructor
  · intro hdiffer
    exact hdiffer (twins[0]) (twins[1]) rfl rfl rfl (.inl (by decide)) (by decide)
  · intro hpairs
    obtain ⟨hfirst, -⟩ := List.pairwise_cons.1 hpairs
    have hcluster := (hfirst _ List.mem_cons_self "S1" ⟨by simp, _, List.mem_singleton_self _, rfl⟩
      ⟨_, _, _, _, List.mem_of_getElem? (i := 2) rfl, rfl, rfl, rfl⟩).1
    exact absurd hcluster (by decide)

end Oncall.PagerDuty
