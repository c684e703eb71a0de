import Oncall.Proofs.PagerDuty.Provides
import Oncall.Proofs.Pool.Progress
import Oncall.PagerDuty.Memory

/-! Provisioning many clusters comes to an end: a provisioning makes at most four calls, so the rounds
that are granted to all of them are enough, whatever the calls reply and whoever is dropped. -/

namespace Oncall.PagerDuty

open Oncall (Pool)

variable {W : Type} {v : Oncall.Service Call Call.Reply W} {delay : Nat}

namespace TicketingConfig

theorem withService_within (hv : ∀ c, v.delay c = delay) (c : TicketingConfig) (s : Service) :
    (c.withService s).Within v delay := by
  unfold withService
  split
  · trivial
  · refine ⟨0, by rw [hv]; omega, fun r => ?_⟩
    cases r <;> trivial

theorem adopt_within (hv : ∀ c, v.delay c = delay) (c : TicketingConfig) (name : String)
    (rejection : ApiError) : (c.adopt name rejection).Within v (2 * delay) := by
  refine ⟨delay, by rw [hv]; omega, fun r => ?_⟩
  cases r with
  | error e => trivial
  | ok services =>
    dsimp only
    split
    · exact withService_within hv c _
    · trivial

theorem withPolicy_within (hv : ∀ c, v.delay c = delay) (c : TicketingConfig)
    (policy : EscalationPolicy) : (c.withPolicy policy).Within v (3 * delay) := by
  refine ⟨2 * delay, by rw [hv]; omega, fun r => ?_⟩
  cases r with
  | error e =>
    dsimp only
    split
    · exact adopt_within hv c _ e
    · trivial
  | ok s => exact (withService_within hv c s).mono (by omega)

/-- A provisioning makes at most four calls. -/
theorem provisionCalls_within (hv : ∀ c, v.delay c = delay) (c : TicketingConfig) :
    c.provisionCalls.Within v (4 * delay) := by
  refine ⟨3 * delay, by rw [hv]; omega, fun r => ?_⟩
  cases r with
  | error e => trivial
  | ok policy => exact withPolicy_within hv c policy

theorem provision_within (hv : ∀ c, v.delay c = delay) (c : TicketingConfig) :
    (Stage.fresh c.provision).Within v (4 * delay + 2) := by
  unfold provision
  split
  · exact Nat.le_add_left 1 (4 * delay + 1)
  · exact ⟨4 * delay, provisionCalls_within hv c, Nat.le_refl _⟩

end TicketingConfig

theorem within_start (hv : ∀ c, v.delay c = delay) (configs : List TicketingConfig) (w : W) :
    (Pool.start (configs.map TicketingConfig.provision) w).Within v fun _ => 4 * delay + 2 := by
  intro i st hst
  simp only [Pool.start, List.map_map, List.getElem?_map, Option.map_eq_some_iff] at hst
  obtain ⟨c, -, rfl⟩ := hst
  exact c.provision_within hv

/-- All provisionings are over after so many rounds, whoever is dropped and whatever was polled
before. -/
theorem isOver_rounds (hv : ∀ c, v.delay c = delay) {configs : List TicketingConfig} (w : W)
    (before : List Action) {ds : List (Option Nat)} (hds : ds.length = configs.length) (n : Nat)
    {k : Nat} (hk : roundsNeeded configs.length delay ≤ k) :
    (Pool.run v (Pool.roundsActions ds n k) (Pool.run v before
      (Pool.start (configs.map TicketingConfig.provision) w))).IsOver := by
  have hlen : (Pool.run v before
      (Pool.start (configs.map TicketingConfig.provision) w)).stages.length =
        configs.length := by
    rw [Pool.length_run]
    simp [Pool.start]
  refine Pool.isOver_of_rounds ds ((Pool.fits_start _ w).run v before)
    ((within_start hv configs w).run before) (hds.trans hlen.symm) ?_
  rw [hlen, Finset.sum_const, Finset.card_range, Nat.nsmul_eq_mul]
  have hle : configs.length * (4 * delay + 2) ≤ configs.length * (4 * (delay + 1) + 2) :=
    Nat.mul_le_mul_left _ (by omega)
  unfold roundsNeeded at hk
  omega

/-- Where the polling loop over provisionings ends. -/
def endPool (v : Oncall.Service Call Call.Reply W) (requests : List ProvisionRequest)
    (delay : Nat) (w : W) : Pool Call Call.Reply TicketingConfig Outcome W :=
  let ended := rounds v (roundsNeeded requests.length delay) 1
    (requests.map fun r => ⟨.fresh r.config.provision, r.dropAfter⟩) ⟨[], w, []⟩
  ⟨ended.1.map Member.stage, ended.2⟩

/-- The polling loop over provisionings is a run of rounds after which all of them are over. -/
theorem run_eq_endPool (hv : ∀ c, v.delay c = delay) (requests : List ProvisionRequest) (w : W) :
    ∃ k, Pool.run v (Pool.roundsActions (requests.map ProvisionRequest.dropAfter) 1 k)
        (Pool.start (requests.map fun r => r.config.provision) w) = endPool v requests delay w ∧
      (endPool v requests delay w).IsOver := by
  obtain ⟨k, -, hrun, hend⟩ := Pool.rounds_eq_run v (roundsNeeded requests.length delay) 1
    (requests.map fun r => ⟨.fresh r.config.provision, r.dropAfter⟩) ⟨[], w, []⟩
  have hdrops : (requests.map fun r : ProvisionRequest =>
      (⟨.fresh r.config.provision, r.dropAfter⟩ : Member Call Call.Reply TicketingConfig Outcome)).map
        Member.dropAfter = requests.map ProvisionRequest.dropAfter := by
    rw [List.map_map]
    rfl
  have hstart : (⟨(requests.map fun r : ProvisionRequest =>
      (⟨.fresh r.config.provision, r.dropAfter⟩ : Member Call Call.Reply TicketingConfig Outcome)).map
        Member.stage, ⟨[], w, []⟩⟩ : Pool Call Call.Reply TicketingConfig Outcome W) =
      Pool.start (requests.map fun r => r.config.provision) w := by
    rw [Pool.start, List.map_map, List.map_map]
    rfl
  rw [hdrops, hstart] at hrun hend
  refine ⟨k, hrun, ?_⟩
  rw [hrun] at hend
  rcases hend with rfl | hover
  · have hconfigs : requests.map (fun r => r.config.provision) =
        (requests.map ProvisionRequest.config).map TicketingConfig.provision := by
      rw [List.map_map]
      rfl
    have hlength : (requests.map ProvisionRequest.dropAfter).length =
        (requests.map ProvisionRequest.config).length := by
      rw [List.length_map, List.length_map]
    have hall := isOver_rounds hv w [] hlength 1 (Nat.le_refl _)
    rw [List.length_map] at hall
    rw [Pool.run_nil, ← hconfigs, hrun] at hall
    exact hall
  · exact hover

end Oncall.PagerDuty
