import Oncall.Proofs.PagerDuty.Rounds
import Oncall.Proofs.Pool.SerialRun

/-! Concurrent provisionings of one cluster are serial. The store, the results and the configs are those
of the provisionings made one after another in their order, where one that was dropped is cut off
after some of its calls; and from its first call until it is over, a provisioning has the PagerDuty
for itself. -/

namespace Oncall.PagerDuty

/-- A provisioning for a cluster is settled or takes the lock of the cluster, and shows its config
until its first call as while it waits. -/
theorem waits_provision {c : TicketingConfig} {cluster : String} (hc : c.clusterId = cluster) :
    c.provision.Waits cluster := by
  cases hprovision : c.provision with
  | settled a => trivial
  | locked key seen body =>
    obtain ⟨rfl, rfl, rfl⟩ := TicketingConfig.provision_eq_locked hprovision
    exact ⟨hc, _, _, rfl⟩

section Statement

variable (requests : List ProvisionRequest) (delay : Nat) (m : Memory)

/-- What remains of the concurrent provisionings is what remains of them when each is made in turn, up
to its cut. Those that finished were not cut, and those that were not to be dropped finished. -/
structure Serialized (cuts : List (Option Nat)) : Prop where
  length : cuts.length = requests.length
  world : (provisionAll requests delay m).2.world =
    (serially Memory.answer ((requests.map fun r => r.config.provision).zip cuts) m).2
  outcomes : (provisionAll requests delay m).1.map (fun member => member.stage.outcome?) =
    (serially Memory.answer ((requests.map fun r => r.config.provision).zip cuts) m).1.map some
  cut_iff : ∀ (i : Nat) (member : Member Call Call.Reply TicketingConfig Outcome),
    (provisionAll requests delay m).1[i]? = some member →
    (cuts[i]? = some none ↔ member.stage.result?.isSome = true)
  kept : ∀ (i : Nat) (r : ProvisionRequest)
    (member : Member Call Call.Reply TicketingConfig Outcome), requests[i]? = some r →
    r.dropAfter = none → (provisionAll requests delay m).1[i]? = some member →
    member.stage.result?.isSome = true

/-- The rounds are a list of actions, and as long as a provisioning has made a call and is not over, no
action logs a call of another. -/
def Exclusive : Prop :=
  ∃ k, Pool.run ⟨Memory.answer, fun _ => delay⟩
      (Pool.roundsActions (requests.map ProvisionRequest.dropAfter) 1 k)
      (Pool.start (requests.map fun r => r.config.provision) m) =
        ⟨(provisionAll requests delay m).1.map Member.stage, (provisionAll requests delay m).2⟩ ∧
    ∀ before a after,
      Pool.roundsActions (requests.map ProvisionRequest.dropAfter) 1 k = before ++ a :: after →
      let p := Pool.run ⟨Memory.answer, fun _ => delay⟩ before
        (Pool.start (requests.map fun r => r.config.provision) m)
      ∀ i, p.UnderWay i →
        ∃ new, (p.act ⟨Memory.answer, fun _ => delay⟩ a).shared.log = p.shared.log ++ new ∧
          ∀ e ∈ new, e.job? = none ∨ e.job? = some i

end Statement

/-- Provisioning configs of one cluster concurrently is provisioning them in turn. -/
theorem provisionAll_serial {requests : List ProvisionRequest} {cluster : String}
    (hcluster : ∀ r ∈ requests, r.config.clusterId = cluster) (delay : Nat) (m : Memory) :
    (∃ cuts, Serialized requests delay m cuts) ∧ Exclusive requests delay m := by
  obtain ⟨k, hrun, hover⟩ :=
    run_eq_endPool (v := ⟨Memory.answer, fun _ => delay⟩) (fun _ => rfl) requests m
  have hwaits : ∀ job ∈ requests.map (fun r => r.config.provision), job.Waits cluster := by
    intro job hjob
    obtain ⟨r, hr, rfl⟩ := List.mem_map.1 hjob
    exact waits_provision (hcluster r hr)
  have hlen : (requests.map ProvisionRequest.dropAfter).length =
      (requests.map fun r => r.config.provision).length := by simp
  have hstart : Pool.Serial Memory.answer cluster (requests.map fun r => r.config.provision) m 0
      (Pool.start (requests.map fun r => r.config.provision) m) fun _ => m :=
    Pool.serial_start (v := ⟨Memory.answer, fun _ => delay⟩) hwaits
  obtain ⟨t, worlds, hserial⟩ :=
    Pool.IsSerial.rounds (v := ⟨Memory.answer, fun _ => delay⟩) hwaits hlen 1 k ⟨_, hstart⟩
  have hdropped := Pool.droppedIn_run ⟨Memory.answer, fun _ => delay⟩
    (Pool.roundsActions (requests.map ProvisionRequest.dropAfter) 1 k)
    (requests.map fun r => r.config.provision) m
  rw [hrun] at hserial hdropped
  obtain ⟨cuts, hcuts, hout, hworld, hnone⟩ :=
    Pool.serially_of_did (v := ⟨Memory.answer, fun _ => delay⟩) hserial.length hover hserial.did
  rw [hserial.first] at hout hworld
  have hget : ∀ (i : Nat) (member : Member Call Call.Reply TicketingConfig Outcome),
      (provisionAll requests delay m).1[i]? = some member →
      ((provisionAll requests delay m).1.map Member.stage)[i]? = some member.stage := by
    intro i member hmember
    rw [List.getElem?_map, hmember]
    rfl
  refine ⟨⟨cuts, by simpa using hcuts, ?_, ?_, ?_, ?_⟩, k, hrun, ?_⟩
  · exact hserial.last.symm.trans hworld.symm
  · rw [← hout, endPool, List.map_map]
    rfl
  · exact fun i member hmember => hnone i member.stage (hget i member hmember)
  · intro i r member hr hkeep hmember
    have hst := hget i member hmember
    refine hdropped.finished hst (hover member.stage (List.mem_of_getElem? hst)) fun hdrop => ?_
    obtain ⟨n, hn⟩ := Pool.drop_mem_roundsActions hdrop
    rw [List.getElem?_map, hr, Option.map_some, hkeep] at hn
    cases hn
  · intro before a after _ p i hi
    have hkeyed := hstart.keyed.run ⟨Memory.answer, fun _ => delay⟩ before
    have hlogged := (Pool.logged_start (requests.map fun r => r.config.provision) m).run
      ⟨Memory.answer, fun _ => delay⟩ before
    exact Pool.logs_of_underWay (hstart.fits.run _ before) hlogged hkeyed hi _ a

/-- Four provisionings of a cluster: the second is dropped while it waits, the third lacks its policy,
and the fourth adopts the service of the first. -/
theorem provisionAll_serial_four :
    let c := { TicketingConfig.forCluster "c1" "x.example.com" with
      apiKey := "k", escalationPolicyId := "e" }
    let requests : List ProvisionRequest :=
      [⟨c, none⟩, ⟨c, some 2⟩, ⟨{ c with escalationPolicyId := "" }, none⟩, ⟨c, none⟩]
    let m : Memory := ⟨[], 0, 0, [], 0, 0⟩
    ((provisionAll requests 1 m).1.map fun member => member.stage.result?.map Prod.snd) =
      [some (.ok "I1"), none, some (.error (.config (.emptyValue escalationPolicyKey "ticketing config"))),
        some (.ok "I1")] ∧
    (∃ cuts, Serialized requests 1 m cuts) ∧ Exclusive requests 1 m := by
  intro c requests m
  have hcluster : ∀ r ∈ requests, r.config.clusterId = "c1" := by decide
  exact ⟨by decide, provisionAll_serial hcluster 1 m⟩

end Oncall.PagerDuty
