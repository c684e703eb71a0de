import Oncall.Proofs.Pool.Guarantee
import Oncall.PagerDuty.Provision
import Mathlib.Data.List.Perm.Basic

/-! What provisionings do to the services of a PagerDuty. For one service name the services grow in
three ways only: not at all, by a new service if the name is free, and by an integration on the
service of that name if it has none to reuse. So a name that has its integration is settled, and the
service of another name is never touched. The calls of a provisioning grow the services for its own
name whatever other names do in between, and whichever calls fail. -/

namespace Oncall.PagerDuty

/-- The service that a name is adopted as: the first that has it. -/
def named (name : String) (services : List Service) : Option Service :=
  services.find? fun s => s.name == name

section Named

variable {name : String} {s t : Service} {before after services : List Service}

theorem named_eq_none_iff : named name services = none ↔ ∀ s ∈ services, s.name ≠ name := by
  simp [named, List.find?_eq_none]

theorem named_eq_some_iff : named name services = some s ↔
    s.name = name ∧ ∃ before after, services = before ++ s :: after ∧
      ∀ t ∈ before, t.name ≠ name := by
  simp [named, List.find?_eq_some_iff_append]

theorem named_middle (hbefore : ∀ t ∈ before, t.name ≠ name) (hs : s.name = name) :
    named name (before ++ s :: after) = some s :=
  named_eq_some_iff.2 ⟨hs, before, after, rfl, hbefore⟩

theorem named_insert_of_ne (hs : s.name ≠ name) :
    named name (before ++ s :: after) = named name (before ++ after) := by
  simp [named, List.find?_append, hs]

theorem mem_of_named (h : named name services = some s) : s ∈ services :=
  List.mem_of_find?_eq_some h

/-- With pairwise different IDs, the service of a name is known by its ID. -/
theorem named_split_unique (hids : ((before ++ t :: after).map Service.id).Nodup)
    (hs : named name (before ++ t :: after) = some s) (hid : s.id = t.id) :
    s = t ∧ t.name = name ∧ ∀ u ∈ before, u.name ≠ name := by
  have hst : s = t := List.inj_on_of_nodup_map hids (mem_of_named hs) (by simp) hid
  subst hst
  obtain ⟨hname, b, a, hl, hb⟩ := named_eq_some_iff.1 hs
  refine ⟨rfl, hname, fun u hu hun => ?_⟩
  have hfirst : named name before = some s := by
    have hne : named name before ≠ none := fun h => named_eq_none_iff.1 h u hu hun
    obtain ⟨x, hx⟩ := Option.ne_none_iff_exists'.1 hne
    have happ : named name (before ++ s :: after) = some x := by
      simp only [named, List.find?_append] at hx ⊢
      rw [hx]
      rfl
    rw [hx, ← happ, hs]
  rw [List.map_append, List.map_cons] at hids
  exact (List.nodup_append.1 hids).2.2 s.id (List.mem_map_of_mem (mem_of_named hfirst)) s.id
    List.mem_cons_self rfl

end Named

namespace Service

variable {s : Service} {i : Integration} {is : List Integration}

theorem reusable?_eq_none_iff : s.reusable? = none ↔ ∀ i ∈ s.integrations, ¬ i.isReusable := by
  simp [reusable?, List.find?_eq_none]

theorem reusable?_add (hnone : s.reusable? = none) (hi : i.isReusable)
    (his : is.Perm (i :: s.integrations)) : { s with integrations := is }.reusable? = some i := by
  cases h : ({ s with integrations := is } : Service).reusable? with
  | none => exact absurd hi (reusable?_eq_none_iff.1 h i (his.mem_iff.2 List.mem_cons_self))
  | some j =>
    have hj : j ∈ is := List.mem_of_find?_eq_some h
    have hr : j.isReusable := List.find?_some h
    rcases List.mem_cons.1 (his.mem_iff.1 hj) with rfl | hold
    · rfl
    · exact absurd hr (reusable?_eq_none_iff.1 hnone j hold)

end Service

/-- What provisioning may do to the services for one name. -/
inductive Grows (name : String) : List Service → List Service → Prop where
  | same (services : List Service) : Grows name services services
  | create {before after : List Service} {s : Service} (hname : s.name = name)
      (hfree : named name (before ++ after) = none) (hempty : s.integrations = [])
      (hid : ∀ t ∈ before ++ after, t.id ≠ s.id) :
      Grows name (before ++ after) (before ++ s :: after)
  | integrate {before after : List Service} {s : Service} {i : Integration}
      {is : List Integration} (hname : s.name = name) (hbefore : ∀ t ∈ before, t.name ≠ name)
      (hnone : s.reusable? = none) (hi : i.isReusable) (his : is.Perm (i :: s.integrations)) :
      Grows name (before ++ s :: after) (before ++ { s with integrations := is } :: after)

/-- A provisioning for the name would come to this service and reuse this integration. -/
def Settled (name : String) (s : Service) (i : Integration) (services : List Service) : Prop :=
  named name services = some s ∧ s.reusable? = some i

namespace Grows

variable {name : String} {l l' : List Service}

theorem nodup (h : Grows name l l') (hl : (l.map Service.id).Nodup) :
    (l'.map Service.id).Nodup := by
  cases h with
  | same => exact hl
  | @create before after s _ _ _ hid =>
    have hp : (before ++ s :: after).Perm (s :: (before ++ after)) := List.perm_middle
    rw [(hp.map Service.id).nodup_iff, List.map_cons, List.nodup_cons]
    refine ⟨fun hmem => ?_, hl⟩
    obtain ⟨t, ht, hts⟩ := List.mem_map.1 hmem
    exact hid t ht hts
  | integrate => simpa using hl

/-- What is done for one name leaves the services of other names alone. -/
theorem named_of_ne (h : Grows name l l') {other : String} (hne : other ≠ name) :
    named other l' = named other l := by
  cases h with
  | same => rfl
  | create hname => exact named_insert_of_ne (by rw [hname]; exact hne.symm)
  | integrate hname =>
    rw [named_insert_of_ne (by exact hname ▸ hne.symm), named_insert_of_ne (hname ▸ hne.symm)]

/-- For a settled name nothing more is done. -/
theorem eq_of_settled (h : Grows name l l') {s : Service} {i : Integration}
    (hl : Settled name s i l) : l' = l := by
  obtain ⟨hs, hi⟩ := hl
  cases h with
  | same => rfl
  | create _ hfree => rw [hfree] at hs; cases hs
  | integrate hname hbefore hnone =>
    rw [named_middle hbefore hname] at hs
    cases hs
    rw [hnone] at hi
    cases hi

/-- A settled name stays settled, whatever is done for whichever name. -/
theorem settled (h : Grows name l l') {other : String} {s : Service} {i : Integration}
    (hl : Settled other s i l) : Settled other s i l' := by
  by_cases hne : other = name
  · subst hne
    rwa [h.eq_of_settled hl]
  · exact ⟨(h.named_of_ne hne).trans hl.1, hl.2⟩

end Grows

end Oncall.PagerDuty
