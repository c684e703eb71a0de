import Oncall.Proofs.PagerDuty.Faults
import Oncall.Proofs.PagerDuty.Memory

/-! Two stores that are the same for one service name. The service of the name is there in both or in
neither, and the IDs in it are equal or were both generated. What a provisioning asks of them gets
the same reply up to such IDs and leaves them the same, also where calls are made to fail for reasons
of the policy or the name alone. -/

namespace Oncall.PagerDuty

/-- Both fail alike, or both succeed with what is related. -/
inductive SameReply {ε α : Type} (R : α → α → Prop) : Except ε α → Except ε α → Prop where
  | ok {a b : α} (h : R a b) : SameReply R (.ok a) (.ok b)
  | error (e : ε) : SameReply R (.error e) (.error e)

/-- Equal, or both generated after so many others. -/
def SameId (idOf : Nat → String) (created : Nat) (x y : String) : Prop :=
  x = y ∨ ∃ k l, created < k ∧ created < l ∧ x = idOf k ∧ y = idOf l

section Same

variable (base : Memory)

/-- The same integration, up to what was generated since the base. -/
def SameIntegration (x y : String) : Prop :=
  SameId Memory.integrationId base.createdIntegrations x y

/-- The same service for provisioning, up to what was generated since the base. -/
structure SameService (s t : Service) : Prop where
  id : SameId Memory.serviceId base.createdServices s.id t.id
  reusable : Option.Rel (fun i j => SameIntegration base i.id j.id) s.reusable? t.reusable?

/-- The same service has the name, or none has it. -/
def SameNamed (name : String) (m m' : Memory) : Prop :=
  Option.Rel (SameService base) (named name m.services) (named name m'.services)

/-- The same config but for generated IDs. -/
structure SameConfig (c d : TicketingConfig) : Prop where
  rest : d = { c with serviceId := d.serviceId, integrationId := d.integrationId }
  service : SameId Memory.serviceId base.createdServices c.serviceId d.serviceId
  integration : SameIntegration base c.integrationId d.integrationId

/-- The same result and the same config, but for generated IDs. -/
structure SameOutcome (o o' : Outcome) : Prop where
  config : SameConfig base o.1 o'.1
  result : SameReply (SameIntegration base) o.2 o'.2

/-- The same call, but for a generated ID. -/
def SameCall : Call → Call → Prop
  | .createIntegration id i, .createIntegration id' i' =>
    SameId Memory.serviceId base.createdServices id id' ∧ i = i'
  | c, d => c = d

/-- Two calls reply the same, by `R`, and leave stores that are the same for the name. -/
structure Agrees (name : String) {α : Type} (R : α → α → Prop)
    (r r' : Except ApiError α × Memory) : Prop where
  reply : SameReply R r.1 r'.1
  world : SameNamed base name r.2 r'.2

end Same

section Refl

variable {base : Memory}

theorem SameId.refl {idOf : Nat → String} {created : Nat} (x : String) : SameId idOf created x x :=
  Or.inl rfl

theorem SameService.refl (s : Service) : SameService base s s := by
  refine ⟨.refl s.id, ?_⟩
  cases s.reusable? with
  | none => exact .none
  | some i => exact .some (.refl i.id)

theorem SameNamed.refl (name : String) (m : Memory) : SameNamed base name m m := by
  unfold SameNamed
  cases named name m.services with
  | none => exact .none
  | some s => exact .some (.refl s)

theorem SameConfig.refl (c : TicketingConfig) : SameConfig base c c :=
  ⟨rfl, .refl _, .refl _⟩

theorem rel_cases {α : Type} {R : α → α → Prop} {a b : Option α} (h : Option.Rel R a b) :
    (a = none ∧ b = none) ∨ ∃ x y, a = some x ∧ b = some y ∧ R x y := by
  cases h with
  | none => exact Or.inl ⟨rfl, rfl⟩
  | some hxy => exact Or.inr ⟨_, _, rfl, rfl, hxy⟩

/-- A call that is made to fail fails for both, and took effect for both or for neither. -/
theorem Agrees.fault {name : String} {α : Type} {R : α → α → Prop}
    {r r' : Except ApiError α × Memory} {m m' : Memory} (h : Agrees base name R r r') (f : Fault)
    (hm : SameNamed base name m m') : Agrees base name R (f.apply r m) (f.apply r' m') := by
  cases f with
  | none => exact h
  | before e => exact ⟨.error e, hm⟩
  | after e => exact ⟨.error e, h.world⟩

end Refl

namespace Memory

variable {base m m' : Memory} {name : String} {s s' : Service}

/-- A store that has come from the base, with no failures left to chance. -/
structure Since (base m : Memory) : Prop where
  sound : m.Sound
  services : base.createdServices ≤ m.createdServices
  integrations : base.createdIntegrations ≤ m.createdIntegrations
  policies : m.missingPolicies = base.missingPolicies
  lists : m.failLists = 0
  attaches : m.failIntegrations = 0

theorem Since.answer (h : base.Since m) (c : Call) : base.Since (Memory.answer c m).2 := by
  cases c with
  | getService id => exact h
  | getIntegration serviceId id => exact h
  | getEscalationPolicy id => exact h
  | createService s =>
    have hsound := h.sound.createService s
    simp only [Memory.answer]
    cases hn : named s.name m.services with
    | none =>
      rw [createService_of_none hn] at hsound ⊢
      exact ⟨hsound, Nat.le_succ_of_le h.services, h.integrations, h.policies, h.lists, h.attaches⟩
    | some t =>
      rw [createService_of_some hn]
      exact h
  | listServices query =>
    simp only [Memory.answer]
    rw [listServices_of_zero h.lists]
    exact h
  | createIntegration id i =>
    simp only [Memory.answer]
    rw [createIntegration_of_zero h.attaches]
    exact ⟨h.sound.attach _ id _, h.services, Nat.le_succ_of_le h.integrations, h.policies, h.lists,
      h.attaches⟩
  | deleteService id =>
    simp only [Memory.answer]
    split
    · have hsub : (m.services.filter fun s => s.id != id).Sublist m.services := List.filter_sublist
      exact ⟨⟨h.sound.nodup.sublist (hsub.map _), fun s hs => h.sound.unused s (hsub.subset hs)⟩,
        h.services, h.integrations, h.policies, h.lists, h.attaches⟩
    · exact h

/-- With pairwise different IDs, the service of a name is found by its ID. -/
theorem findService_of_named (hm : m.Sound) (hs : named name m.services = some s) :
    m.findService s.id = .ok s := by
  have hmem := mem_of_named hs
  unfold findService
  cases hfind : m.services.find? fun t => t.id == s.id with
  | none =>
    have hne := List.find?_eq_none.1 hfind s hmem
    simp at hne
  | some t =>
    have hid : t.id = s.id := by simpa using List.find?_some hfind
    have hts : t = s := List.inj_on_of_nodup_map hm.nodup (List.mem_of_find?_eq_some hfind) hmem hid
    rw [hts]

theorem named_attach (hm : m.Sound) (hs : named name m.services = some s) (i : Integration) :
    named name (attach i s.id m.services) =
      some { s with integrations := s.integrations ++ [i] } := by
  obtain ⟨hname, before, after, hsplit, hbefore⟩ := named_eq_some_iff.1 hs
  have hids := hm.nodup
  rw [hsplit] at hids ⊢
  rw [attach_middle i hids]
  exact named_middle hbefore hname

section Agrees

variable (hm : base.Since m) (hm' : base.Since m') (h : SameNamed base name m m')

include hm hm' h

theorem policy_agrees (id : String) :
    Agrees base name Eq (m.findPolicy id, m) (m'.findPolicy id, m') := by
  refine ⟨?_, h⟩
  simp only [findPolicy, hm.policies, hm'.policies]
  split
  · exact .error _
  · exact .ok rfl

theorem create_agrees (hname : s.name = name) (hempty : s.integrations = []) :
    Agrees base name (SameService base) (m.createService s) (m'.createService s) := by
  subst hname
  have hfresh : SameService base { s with id := serviceId (m.createdServices + 1) }
      { s with id := serviceId (m'.createdServices + 1) } := by
    refine ⟨Or.inr ⟨_, _, Nat.lt_succ_of_le hm.services, Nat.lt_succ_of_le hm'.services, rfl, rfl⟩, ?_⟩
    simp only [Service.reusable?, hempty, List.find?_nil]
    exact .none
  have hcreated : ∀ {l : List Service} (n : Nat), named s.name l = none →
      named s.name (l ++ [{ s with id := serviceId n }]) = some { s with id := serviceId n } :=
    fun n hl => named_middle (named_eq_none_iff.1 hl) rfl
  rcases rel_cases h with ⟨hn, hn'⟩ | ⟨t, t', hn, hn', -⟩
  · rw [createService_of_none hn, createService_of_none hn']
    refine ⟨.ok hfresh, ?_⟩
    unfold SameNamed
    rw [hcreated _ hn, hcreated _ hn']
    exact .some hfresh
  · rw [createService_of_some hn, createService_of_some hn']
    exact ⟨.error _, h⟩

/-- A listing leads to the same service as the store. -/
theorem list_agrees :
    Agrees base name
      (fun l l' => Option.Rel (SameService base) (named name l) (named name l'))
      (m.listServices name) (m'.listServices name) := by
  rw [listServices_of_zero hm.lists, listServices_of_zero hm'.lists]
  refine ⟨.ok ?_, h⟩
  rw [named_listed, named_listed]
  exact h

omit h in
theorem integrate_agrees (hs : named name m.services = some s)
    (hs' : named name m'.services = some s') (hsame : SameService base s s')
    (hnone : s.reusable? = none) (hnone' : s'.reusable? = none) :
    Agrees base name (fun i j => SameIntegration base i.id j.id)
      (m.createIntegration s.id integrationToCreate)
      (m'.createIntegration s'.id integrationToCreate) := by
  have hids : SameIntegration base (integrationId (m.createdIntegrations + 1))
      (integrationId (m'.createdIntegrations + 1)) :=
    Or.inr ⟨_, _, Nat.lt_succ_of_le hm.integrations, Nat.lt_succ_of_le hm'.integrations, rfl, rfl⟩
  have hreusable : ∀ (n : Nat) {t : Service}, t.reusable? = none →
      ({ t with integrations := t.integrations ++
          [{ integrationToCreate with id := integrationId n }] } : Service).reusable? =
        some { integrationToCreate with id := integrationId n } := fun n t ht =>
    Service.reusable?_add ht (isReusable_of_toCreate (integrationId_ne_empty n) rfl rfl)
      (List.perm_append_singleton _ _)
  rw [createIntegration_of_zero hm.attaches, createIntegration_of_zero hm'.attaches]
  refine ⟨.ok hids, ?_⟩
  unfold SameNamed
  rw [named_attach hm.sound hs, named_attach hm'.sound hs']
  refine .some ⟨hsame.id, ?_⟩
  rw [hreusable _ hnone, hreusable _ hnone']
  exact .some hids

end Agrees

end Memory

/-- Failures that depend on the policy or on the service name alone. -/
structure Faults where
  policy : String → Fault
  create : String → Fault
  list : String → Fault
  integrate : String → Fault

namespace Faults

/-- No call is made to fail. -/
def never : Faults := ⟨fun _ => .none, fun _ => .none, fun _ => .none, fun _ => .none⟩

/-- The failure of a call; an integration goes by the name of its service. -/
def of (f : Faults) : Call → Memory → Fault
  | .getEscalationPolicy id, _ => f.policy id
  | .createService s, _ => f.create s.name
  | .listServices query, _ => f.list query
  | .createIntegration id _, m =>
    match m.findService id with
    | .ok s => f.integrate s.name
    | .error _ => .none
  | _, _ => .none

/-- The PagerDuty in memory with these failures. -/
def answer (f : Faults) : (c : Call) → Memory → c.Reply × Memory :=
  withFaults f.of Memory.answer

theorem never_answer : never.answer = Memory.answer := by
  funext c m
  cases c with
  | createIntegration id i =>
    unfold answer withFaults of
    dsimp only
    split <;> rfl
  | _ => rfl

theorem of_integrate (f : Faults) {m : Memory} {name : String} {s : Service} (hm : m.Sound)
    (hs : named name m.services = some s) (i : Integration) :
    f.of (.createIntegration s.id i) m = f.integrate name := by
  have hname : s.name = name := (named_eq_some_iff.1 hs).1
  simp only [of, Memory.findService_of_named hm hs, hname]

theorem integrate_agrees (f : Faults) {base m m' : Memory} {name : String} {s s' : Service}
    (hm : base.Since m) (hm' : base.Since m') (h : SameNamed base name m m')
    (hs : named name m.services = some s) (hs' : named name m'.services = some s')
    (hsame : SameService base s s') (hnone : s.reusable? = none) (hnone' : s'.reusable? = none) :
    Agrees base name (fun i j => SameIntegration base i.id j.id)
      (f.answer (.createIntegration s.id integrationToCreate) m)
      (f.answer (.createIntegration s'.id integrationToCreate) m') := by
  have hagrees := (Memory.integrate_agrees hm hm' hs hs' hsame hnone hnone').fault
    (f.integrate name) h
  unfold answer withFaults
  rw [f.of_integrate hm.sound hs, f.of_integrate hm'.sound hs']
  exact hagrees

theorem since_answer (f : Faults) {base m : Memory} (h : base.Since m) (c : Call) :
    base.Since (f.answer c m).2 := by
  unfold answer withFaults
  cases f.of c m with
  | none => exact h.answer c
  | before e => exact h
  | after e => exact h.answer c

theorem provides (f : Faults) (base : Memory) :
    Provides Memory.services base.Since f.answer := by
  have hmemory : Provides Memory.services base.Since Memory.answer :=
    Memory.provides.restrict (fun _ h => h.sound) fun c _ h => h.answer c
  exact hmemory.withFaults f.of

end Faults

end Oncall.PagerDuty
