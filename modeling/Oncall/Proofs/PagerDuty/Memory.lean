import Oncall.Proofs.PagerDuty.Provides
import Oncall.PagerDuty.Memory

/-! The PagerDuty in memory obeys the laws of provisioning as long as its service IDs are pairwise
different and differ from all that are still to be generated, whichever policies are missing and
however many listings and integrations are to fail. -/

namespace Oncall.PagerDuty

/-- Whether one text stands in another is no question for the text itself. -/
theorem occursIn_self (text : List Char) : occursIn text text = true := by
  cases text with
  | nil => rfl
  | cons c cs => simp [occursIn]

namespace Memory

/-- The ID of the service with this number. -/
def serviceId (n : Nat) : String := "S" ++ toString n

/-- The ID of the integration with this number. -/
def integrationId (n : Nat) : String := "I" ++ toString n

theorem serviceId_inj {m n : Nat} (h : serviceId m = serviceId n) : m = n := by
  have hrepr : Nat.repr m = Nat.repr n := (String.append_right_inj "S").1 h
  have hdigits : Nat.toDigits 10 m = Nat.toDigits 10 n := by
    rw [← Nat.toList_repr, ← Nat.toList_repr, hrepr]
  rw [← Nat.ofDigitChars_ten_toDigits (n := m), hdigits, Nat.ofDigitChars_ten_toDigits]

theorem integrationId_ne_empty (n : Nat) : integrationId n ≠ "" := by
  intro h
  have hlength := congrArg String.length h
  simp [integrationId] at hlength

section Equations

variable {m : Memory} {s t : Service}

theorem createService_of_none (h : named s.name m.services = none) :
    m.createService s = (.ok { s with id := serviceId (m.createdServices + 1) },
      { m with
        services := m.services ++ [{ s with id := serviceId (m.createdServices + 1) }]
        createdServices := m.createdServices + 1 }) := by
  have hfree : (m.services.any fun t => t.name == s.name) = false := by
    rw [← List.isSome_find?, ← named, h]
    rfl
  rw [createService, if_neg (by rw [hfree]; exact Bool.false_ne_true)]
  rfl

theorem createService_of_some (h : named s.name m.services = some t) :
    m.createService s = (.error (.duplicateName "taken"), m) := by
  have htaken : (m.services.any fun t => t.name == s.name) = true := by
    rw [← List.isSome_find?, ← named, h]
    rfl
  rw [createService, if_pos htaken]

theorem createIntegration_of_zero (h : m.failIntegrations = 0) (id : String) (i : Integration) :
    m.createIntegration id i = (.ok { i with id := integrationId (m.createdIntegrations + 1) },
      { m with
        services := attach { i with id := integrationId (m.createdIntegrations + 1) } id m.services
        createdIntegrations := m.createdIntegrations + 1 }) := by
  rw [createIntegration, if_pos h]
  rfl

theorem listServices_of_zero (h : m.failLists = 0) (query : String) :
    m.listServices query =
      (.ok (m.services.filter fun s => occursIn query.toList s.name.toList), m) := by
  rw [listServices, if_pos h]

end Equations

/-- Service IDs are pairwise different, and none is generated again. -/
structure Sound (m : Memory) : Prop where
  nodup : (m.services.map Service.id).Nodup
  unused : ∀ s ∈ m.services, ∀ n, m.createdServices < n → s.id ≠ serviceId n

/-- With pairwise different IDs, an integration is attached to one service. -/
theorem attach_middle {before after : List Service} {s : Service} (i : Integration)
    (hids : ((before ++ s :: after).map Service.id).Nodup) :
    attach i s.id (before ++ s :: after) =
      before ++ { s with integrations := s.integrations ++ [i] } :: after := by
  have hother : ∀ l : List Service, (∀ t ∈ l, t.id ≠ s.id) → attach i s.id l = l := by
    intro l hl
    have hid : ∀ t ∈ l, (if t.id = s.id then { t with integrations := t.integrations ++ [i] }
        else t) = id t := fun t ht => if_neg (hl t ht)
    rw [attach, List.map_congr_left hid, List.map_id]
  have hp : (before ++ s :: after).Perm (s :: (before ++ after)) := List.perm_middle
  rw [(hp.map Service.id).nodup_iff, List.map_cons, List.nodup_cons] at hids
  have hne : ∀ t ∈ before ++ after, t.id ≠ s.id := fun t ht he =>
    hids.1 (he ▸ List.mem_map_of_mem ht)
  have hb := hother before fun t ht => hne t (List.mem_append_left after ht)
  have ha := hother after fun t ht => hne t (List.mem_append_right before ht)
  rw [attach] at hb ha
  rw [attach, List.map_append, List.map_cons, hb, ha, if_pos rfl]

theorem attach_ids (i : Integration) (id : String) (services : List Service) :
    (attach i id services).map Service.id = services.map Service.id := by
  rw [attach, List.map_map]
  refine List.map_congr_left fun s _ => ?_
  simp only [Function.comp]
  split <;> rfl

/-- A listing has every service of the name asked for. -/
theorem filter_listed (query : String) (services : List Service) :
    (services.filter fun s => occursIn query.toList s.name.toList).filter
      (fun s => s.name == query) = services.filter fun s => s.name == query := by
  rw [List.filter_filter]
  refine List.filter_congr fun s _ => ?_
  by_cases hs : s.name = query
  · simp [hs, occursIn_self]
  · simp [hs]

theorem named_listed (query : String) (services : List Service) :
    named query (services.filter fun s => occursIn query.toList s.name.toList) =
      named query services := by
  rw [named, named, ← List.head?_filter, ← List.head?_filter, filter_listed]

theorem Sound.createService {m : Memory} (h : m.Sound) (s : Service) :
    (m.createService s).2.Sound := by
  cases hn : named s.name m.services with
  | some t =>
    rw [createService_of_some hn]
    exact h
  | none =>
    rw [createService_of_none hn]
    refine ⟨?_, ?_⟩
    · rw [List.map_append, List.nodup_append]
      refine ⟨h.nodup, List.nodup_singleton _, fun a ha b hb => ?_⟩
      obtain ⟨t, ht, rfl⟩ := List.mem_map.1 ha
      rw [List.mem_singleton.1 hb]
      exact h.unused t ht _ (Nat.lt_succ_self _)
    · intro t ht n hn
      rcases List.mem_append.1 ht with ht | ht
      · exact h.unused t ht n (Nat.lt_of_succ_lt hn)
      · rw [List.mem_singleton.1 ht]
        intro he
        have hn' := serviceId_inj he
        simp only at hn
        omega

theorem Sound.attach {m : Memory} (h : m.Sound) (i : Integration) (id : String) (k : Nat) :
    Sound { m with services := Memory.attach i id m.services, createdIntegrations := k } := by
  refine ⟨by rw [attach_ids]; exact h.nodup, fun s hs n hn => ?_⟩
  have hmem : s.id ∈ m.services.map Service.id := by
    rw [← attach_ids i id]
    exact List.mem_map_of_mem hs
  obtain ⟨t, ht, he⟩ := List.mem_map.1 hmem
  rw [← he]
  exact h.unused t ht n hn

/-- The PagerDuty in memory obeys the laws of provisioning. -/
theorem provides : Provides Memory.services Sound answer where
  nodup h := h.nodup
  policy id m h := ⟨h, rfl⟩
  create s m h hempty := by
    refine ⟨h.createService s, ?_⟩
    simp only [answer]
    cases hn : named s.name m.services with
    | some t =>
      rw [createService_of_some hn]
      exact Or.inl ⟨rfl, _, rfl⟩
    | none =>
      rw [createService_of_none hn]
      exact Or.inr ⟨m.services, [], _, (List.append_nil _).symm, rfl, hn, rfl, hempty,
        fun t ht => h.unused t ht _ (Nat.lt_succ_self _), Or.inl rfl⟩
  list query m h := by
    simp only [answer, listServices]
    split
    next =>
      exact ⟨h, rfl, Or.inr ⟨_, rfl, named_listed query m.services⟩⟩
    next => exact ⟨⟨h.nodup, h.unused⟩, rfl, Or.inl ⟨_, rfl⟩⟩
  integrate id i m h hid := by
    simp only [answer, createIntegration]
    split
    next =>
      refine ⟨h.attach _ id _, Or.inr ?_⟩
      obtain ⟨s, hs, rfl⟩ := hid
      obtain ⟨before, after, hsplit⟩ := List.append_of_mem hs
      have hids := h.nodup
      rw [hsplit] at hids
      refine ⟨before, after, s, { i with id := integrationId (m.createdIntegrations + 1) }, _,
        hsplit, rfl, integrationId_ne_empty _, rfl, rfl, List.perm_append_singleton _ _, ?_,
        Or.inl rfl⟩
      rw [hsplit]
      exact attach_middle _ hids
    next => exact ⟨⟨h.nodup, h.unused⟩, Or.inl ⟨rfl, _, rfl⟩⟩

end Memory

end Oncall.PagerDuty
