import Oncall.Rounds
import Oncall.Vault.Cache

/-!
Lookups that are started together. Asking Vault takes a round and all else no time that matters, so
lookups with files of their own reach Vault side by side, and those that share one reach it in the
order they were started.
-/

namespace Oncall.Vault

/-- How long a call takes, in rounds. -/
def CacheCall.delay : CacheCall → Nat
  | .fetch _ _ _ => 1
  | _ => 0

namespace CacheWorld

/-- Answers a call; every call takes a nanosecond. -/
def answerInTime (c : CacheCall) (w : CacheWorld) : c.Reply × CacheWorld :=
  let (r, w) := w.answer c
  (r, w.pass 1)

end CacheWorld

namespace Cache

/-- A lookup asks Vault at most twice, and every round brings the one at the head of its queue
forward. -/
def roundsNeeded (lookups : Nat) : Nat := lookups * 6 + 1

/-- Starts the lookups in order and waits for all of them; none stands for one that was not done. -/
def getAll (c : Cache) (accesses : List Access) (w : CacheWorld) :
    List (Option (Except Error String)) × CacheWorld :=
  let (members, shared) :=
    rounds ⟨CacheWorld.answerInTime, CacheCall.delay⟩ (roundsNeeded accesses.length) 1
      (accesses.map fun a => ⟨.fresh (c.get a), none⟩) ⟨[], w, []⟩
  (members.map fun m => m.stage.result?, shared.world)

end Cache

end Oncall.Vault
