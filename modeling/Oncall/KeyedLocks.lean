import Oncall.Dictionary

/-!
Locks by key, first come first served. A lock call stands in its key's queue from its first poll on.
When a guard is dropped the lock is handed to the first waiter, who holds it at its next poll, and a
key is forgotten when its guard is dropped and nobody waits. `ι` names the calls.
-/

namespace Oncall

/-- Who may go on with a key: nobody, a waiter that was handed the lock and has not been polled
since, or a guard. -/
inductive Permit (ι : Type) where
  | free
  | granted (i : ι)
  | held (i : ι)
  deriving DecidableEq, Repr

/-- The lock of one key; the queue holds the calls that were polled and have to wait, first come
first. -/
structure Mutex (ι : Type) where
  permit : Permit ι
  queue : List ι
  deriving DecidableEq, Repr

abbrev KeyedLocks (ι : Type) := Dictionary (Mutex ι)

variable {ι : Type} [DecidableEq ι]

namespace Mutex

def fresh : Mutex ι := ⟨.free, []⟩

/-- The lock goes to the first waiter, if there is one. -/
def handOver (m : Mutex ι) : Mutex ι :=
  match m.queue with
  | [] => ⟨.free, []⟩
  | i :: rest => ⟨.granted i, rest⟩

/-- The first poll of a call. -/
def enter (m : Mutex ι) (i : ι) : Mutex ι :=
  match m.permit with
  | .free => ⟨.held i, m.queue⟩
  | p => ⟨p, m.queue ++ [i]⟩

/-- Any later poll of a waiting call. -/
def poll (m : Mutex ι) (i : ι) : Mutex ι := if m.permit = .granted i then ⟨.held i, m.queue⟩ else m

/-- A waiting call is dropped; a lock it was handed goes on. -/
def leave (m : Mutex ι) (i : ι) : Mutex ι :=
  if m.permit = .granted i then m.handOver else ⟨m.permit, m.queue.filter (· ≠ i)⟩

end Mutex

namespace KeyedLocks

def empty : KeyedLocks ι := []

/-- Starts a lock call and polls it once. -/
def lock (l : KeyedLocks ι) (i : ι) (key : String) : KeyedLocks ι :=
  l.put key (((l.lookup key).getD Mutex.fresh).enter i)

def poll (l : KeyedLocks ι) (i : ι) (key : String) : KeyedLocks ι :=
  match l.lookup key with
  | some m => l.put key (m.poll i)
  | none => l

/-- Drops the guard of a key. -/
def release (l : KeyedLocks ι) (key : String) : KeyedLocks ι :=
  match l.lookup key with
  | some m => if m.queue.isEmpty then l.erase key else l.put key m.handOver
  | none => l

/-- Drops a waiting call; its key stays known. -/
def abandon (l : KeyedLocks ι) (i : ι) (key : String) : KeyedLocks ι :=
  match l.lookup key with
  | some m => l.put key (m.leave i)
  | none => l

def holds (l : KeyedLocks ι) (i : ι) (key : String) : Bool :=
  (l.lookup key).any fun m => m.permit = .held i

/-- Drops a call, whether it holds the key or waits for it. -/
def drop (l : KeyedLocks ι) (i : ι) (key : String) : KeyedLocks ι :=
  if l.holds i key then l.release key else l.abandon i key

end KeyedLocks

end Oncall
