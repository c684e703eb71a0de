import Oncall.KeyedLocks
import Oncall.Workflow

/-!
Concurrent jobs polled by hand. In every round each unfinished job is polled once, in order; a poll
goes on until the job has to wait, for its lock or for a call. A call takes a number of further
polls and acts on the world when it ends.
-/

namespace Oncall

variable {C : Type} {R : C → Type} {σ α W : Type}

inductive Event (C : Type) where
  | round (n : Nat)
  | start (job : Nat) (c : C)
  | finish (job : Nat) (c : C)

/-- How far a job has come. -/
inductive Stage (C : Type) (R : C → Type) (σ α : Type) where
  | fresh (job : Job C R σ α)
  | queued (key : String) (seen : σ) (body : Workflow C R σ α)
  | calling (key : String) (seen : σ) (left : Nat) (c : C) (next : R c → Workflow C R σ α)
  | finished (a : α)
  | dropped (seen : σ)

def Stage.isOver : Stage C R σ α → Bool
  | .finished _ | .dropped _ => true
  | _ => false

/-- What a finished job returned. -/
def Stage.result? : Stage C R σ α → Option α
  | .finished a => some a
  | _ => none

/-- All that the jobs share: their locks, the world they call, and the log. -/
structure Shared (C : Type) (W : Type) where
  locks : KeyedLocks Nat
  world : W
  log : List (Event C)

/-- How calls are answered and how many further polls each takes. -/
structure Service (C : Type) (R : C → Type) (W : Type) where
  answer : (c : C) → W → R c × W
  delay : C → Nat

namespace Shared

def note (s : Shared C W) (e : Event C) : Shared C W := { s with log := s.log ++ [e] }

/-- The call acts on the world, and its end is logged. -/
def act (v : Service C R W) (i : Nat) (c : C) (s : Shared C W) : R c × Shared C W :=
  let (r, w) := v.answer c s.world
  (r, { s with world := w }.note (.finish i c))

end Shared

/-- Goes on with the workflow of a job that holds its lock, up to the next call that takes time. -/
def Workflow.goOn (v : Service C R W) (i : Nat) (key : String) :
    Workflow C R σ α → Shared C W → Stage C R σ α × Shared C W
  | .done a, s => (.finished a, { s with locks := s.locks.release key })
  | .call seen c next, s =>
    match v.delay c with
    | 0 =>
      let (r, s) := (s.note (.start i c)).act v i c
      (next r).goOn v i key s
    | left + 1 => (.calling key seen (left + 1) c next, s.note (.start i c))

namespace Stage

/-- One poll of the job with number `i`. -/
def poll (v : Service C R W) (i : Nat) (st : Stage C R σ α) (s : Shared C W) :
    Stage C R σ α × Shared C W :=
  match st with
  | .fresh (.settled a) => (.finished a, s)
  | .fresh (.locked key seen body) =>
    let s := { s with locks := s.locks.lock i key }
    if s.locks.holds i key then body.goOn v i key s else (.queued key seen body, s)
  | .queued key seen body =>
    let s := { s with locks := s.locks.poll i key }
    if s.locks.holds i key then body.goOn v i key s else (.queued key seen body, s)
  | .calling key seen left c next =>
    if left ≤ 1 then
      let (r, s) := s.act v i c
      (next r).goOn v i key s
    else (.calling key seen (left - 1) c next, s)
  | st => (st, s)

/-- Drops an unfinished job; what it holds or waits for is given up. -/
def drop (i : Nat) (st : Stage C R σ α) (s : Shared C W) : Stage C R σ α × Shared C W :=
  match st with
  | .fresh (.settled a) => (.finished a, s)
  | .fresh (.locked _ seen _) => (.dropped seen, s)
  | .queued key seen _ => (.dropped seen, { s with locks := s.locks.abandon i key })
  | .calling key seen _ _ _ => (.dropped seen, { s with locks := s.locks.release key })
  | st => (st, s)

end Stage

/-- A job with the round, if any, after whose poll it is dropped. -/
structure Member (C : Type) (R : C → Type) (σ α : Type) where
  stage : Stage C R σ α
  dropAfter : Option Nat

namespace Member

/-- The part of a round that belongs to one job. -/
def turn (v : Service C R W) (n i : Nat) (m : Member C R σ α) (s : Shared C W) :
    Member C R σ α × Shared C W :=
  let (st, s) := m.stage.poll v i s
  let (st, s) := if m.dropAfter = some n then st.drop i s else (st, s)
  ({ m with stage := st }, s)

end Member

/-- The turns of a round, for the jobs numbered from `i` on. -/
def turns (v : Service C R W) (n : Nat) : Nat → List (Member C R σ α) → Shared C W →
    List (Member C R σ α) × Shared C W
  | _, [], s => ([], s)
  | i, m :: ms, s =>
    let (m, s) := m.turn v n i s
    let (ms, s) := turns v n (i + 1) ms s
    (m :: ms, s)

/-- Rounds numbered from `n` on, at most `fuel` of them, until all jobs are over. -/
def rounds (v : Service C R W) : Nat → Nat → List (Member C R σ α) → Shared C W →
    List (Member C R σ α) × Shared C W
  | 0, _, ms, s => (ms, s)
  | fuel + 1, n, ms, s =>
    if ms.all fun m => m.stage.isOver then (ms, s)
    else
      let (ms, s) := turns v n 0 ms (s.note (.round n))
      rounds v fuel (n + 1) ms s

end Oncall
