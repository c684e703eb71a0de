import Oncall.Proofs.Dictionary
import Oncall.Proofs.KeyedLocks.Session

/-! Locks by key in memory that tasks share. The map has the address of a mutex for each key, and
every mutex comes with a count of the references to it. A step is a single operation on the map, on a
mutex or on a count, so the steps of several tasks may come in any order: a first poll takes a
reference and then asks the mutex, a dropped waiting call leaves the queue and then gives its
reference back, and a dropped guard unlocks, gives its reference back, and then forgets the key if the
map has the only reference left. What is seen of it from outside is a session. -/

namespace Oncall.KeyedLocks

/-- How far a lock call has come in memory. A call that is `entering` has a reference and has not
asked the mutex yet, one that is `detached` is done with the mutex and still has its reference, and
one that is `evicting` has yet to look at the map. -/
inductive Phase where
  | unknown
  | started (key : String)
  | entering (key : String) (a : Nat)
  | waiting (key : String) (a : Nat)
  | guard (key : String) (a : Nat)
  | detached (key : String) (a : Nat) (evicts : Bool)
  | evicting (key : String)
  | over

namespace Phase

/-- The mutex that a call has a reference to, with its key. -/
def ref? : Phase → Option (String × Nat)
  | .entering key a | .waiting key a | .guard key a | .detached key a _ => some (key, a)
  | _ => none

/-- What is seen of a call from outside: a first poll counts from its end, a drop from its start. -/
def call : Phase → Call
  | .unknown => .unknown
  | .started key | .entering key _ => .started key
  | .waiting key _ => .waiting key
  | .guard key _ => .guard key
  | .detached _ _ _ | .evicting _ | .over => .over

theorem call_eq_waiting {p : Phase} {key : String} :
    p.call = .waiting key ↔ ∃ a, p = .waiting key a := by
  cases p <;> simp [call]

theorem call_eq_guard {p : Phase} {key : String} :
    p.call = .guard key ↔ ∃ a, p = .guard key a := by
  cases p <;> simp [call]

end Phase

/-- A mutex in memory with the number of references to it. -/
structure Cell (ι : Type) where
  mutex : Mutex ι
  refs : Nat

/-- The map, the memory with the first address that is free, and the calls. -/
structure Heap (ι : Type) where
  entries : Dictionary Nat
  cell : Nat → Cell ι
  made : Nat
  phase : ι → Phase
  log : List (Event ι)

variable {ι : Type} [DecidableEq ι]

namespace Heap

def empty : Heap ι := ⟨[], fun _ => ⟨.fresh, 0⟩, 0, fun _ => .unknown, []⟩

def become (h : Heap ι) (i : ι) (p : Phase) : Heap ι :=
  { h with phase := Function.update h.phase i p }

def note (h : Heap ι) (es : List (Event ι)) : Heap ι := { h with log := h.log ++ es }

def setMutex (h : Heap ι) (a : Nat) (m : Mutex ι) : Heap ι :=
  { h with cell := Function.update h.cell a ⟨m, (h.cell a).refs⟩ }

def setRefs (h : Heap ι) (a n : Nat) : Heap ι :=
  { h with cell := Function.update h.cell a ⟨(h.cell a).mutex, n⟩ }

/-- A mutex of its own for a key, with a reference from the map and one from a call. -/
def insert (h : Heap ι) (key : String) : Heap ι :=
  { h with
    entries := h.entries.put key h.made
    cell := Function.update h.cell h.made ⟨.fresh, 2⟩
    made := h.made + 1 }

/-- Takes a reference to the mutex of a key. -/
def find (h : Heap ι) (i : ι) (key : String) : Heap ι :=
  match h.entries.lookup key with
  | some a => (h.setRefs a ((h.cell a).refs + 1)).become i (.entering key a)
  | none => (h.insert key).become i (.entering key h.made)

/-- What comes of a poll that leaves the mutex at `a` as `m`. -/
def polled (h : Heap ι) (i : ι) (key : String) (a : Nat) (m : Mutex ι) (es : List (Event ι)) :
    Heap ι :=
  if m.permit = .held i then
    ((h.setMutex a m).become i (.guard key a)).note (es ++ [.locked i key])
  else ((h.setMutex a m).become i (.waiting key a)).note es

def remove (h : Heap ι) (key : String) : Heap ι := { h with entries := h.entries.erase key }

/-- Forgets a key if the map has the only reference to its mutex. -/
def evict (h : Heap ι) (key : String) : Heap ι :=
  match h.entries.lookup key with
  | some a => if (h.cell a).refs = 1 then (h.setRefs a 0).remove key else h
  | none => h

/-- One operation for a call. A call that is being polled cannot be dropped, and any other move that
does not suit the call changes nothing either. -/
def step (h : Heap ι) : Move ι → Heap ι
  | .start i key =>
    match h.phase i with
    | .unknown => h.become i (.started key)
    | _ => h
  | .poll i =>
    match h.phase i with
    | .started key => h.find i key
    | .entering key a => h.polled i key a ((h.cell a).mutex.enter i) [.joined i key]
    | .waiting key a => h.polled i key a ((h.cell a).mutex.poll i) []
    | _ => h
  | .drop i =>
    match h.phase i with
    | .started _ => h.become i .over
    | .waiting key a =>
      ((h.setMutex a ((h.cell a).mutex.leave i)).become i (.detached key a false)).note
        [.cancelled i key]
    | .guard key a =>
      ((h.setMutex a (h.cell a).mutex.handOver).become i (.detached key a true)).note
        [.unlocked i key]
    | .detached key a evicts =>
      (h.setRefs a ((h.cell a).refs - 1)).become i (if evicts then .evicting key else .over)
    | .evicting key => (h.evict key).become i .over
    | _ => h

def run (moves : List (Move ι)) : Heap ι := moves.foldl step empty

theorem run_concat (moves : List (Move ι)) (m : Move ι) : run (moves ++ [m]) = (run moves).step m :=
  List.foldl_concat ..

/-! ### What is seen of a heap -/

/-- The lock of each key. -/
def locks (h : Heap ι) : KeyedLocks ι := h.entries.mapValues fun a => (h.cell a).mutex

def session (h : Heap ι) : Session ι := ⟨h.locks, fun i => (h.phase i).call, h.log⟩

omit [DecidableEq ι] in
theorem lookup_locks (h : Heap ι) (key : String) :
    h.locks.lookup key = (h.entries.lookup key).map fun a => (h.cell a).mutex :=
  Dictionary.lookup_mapValues _ _ _

omit [DecidableEq ι] in
theorem entry_locks (h : Heap ι) (key : String) :
    h.locks.entry key = ((h.entries.lookup key).map fun a => (h.cell a).mutex).getD .fresh := by
  rw [entry, lookup_locks]

omit [DecidableEq ι] in
theorem sorted_locks {h : Heap ι} (hs : Dictionary.Sorted h.entries) : Dictionary.Sorted h.locks :=
  hs.mapValues _

theorem use_become (h : Heap ι) (i : ι) (p : Phase) :
    (fun j => ((h.become i p).phase j).call.use) =
      Function.update (fun j => (h.phase j).call.use) i p.call.use := by
  funext j
  by_cases hj : j = i
  · subst hj; simp [become]
  · simp [become, hj]

theorem use_become_of_eq {h : Heap ι} {i : ι} {p : Phase}
    (hp : p.call.use = (h.phase i).call.use) (j : ι) :
    ((h.become i p).phase j).call.use = (h.phase j).call.use := by
  rw [congrFun (h.use_become i p) j, hp, Function.update_eq_self]

omit [DecidableEq ι] in
theorem mutex_setRefs (h : Heap ι) (a n b : Nat) :
    ((h.setRefs a n).cell b).mutex = (h.cell b).mutex := by
  by_cases hb : b = a
  · subst hb; simp [setRefs]
  · simp [setRefs, hb]

omit [DecidableEq ι] in
theorem refs_setRefs (h : Heap ι) (a n b : Nat) :
    ((h.setRefs a n).cell b).refs = if b = a then n else (h.cell b).refs := by
  by_cases hb : b = a <;> simp [setRefs, hb]

omit [DecidableEq ι] in
theorem refs_setMutex (h : Heap ι) (a : Nat) (m : Mutex ι) (b : Nat) :
    ((h.setMutex a m).cell b).refs = (h.cell b).refs := by
  by_cases hb : b = a
  · subst hb; simp [setMutex]
  · simp [setMutex, hb]

omit [DecidableEq ι] in
theorem cell_insert (h : Heap ι) (key : String) {b : Nat} (hb : b ≠ h.made) :
    (h.insert key).cell b = h.cell b := by
  simp [insert, hb]

omit [DecidableEq ι] in
/-- Counts of references are not seen of the locks. -/
theorem locks_setRefs (h : Heap ι) (a n : Nat) : (h.setRefs a n).locks = h.locks := by
  simp only [locks, mutex_setRefs]
  rfl

theorem ref_become (h : Heap ι) (i : ι) (p : Phase) (j : ι) :
    ((h.become i p).phase j).ref? = if j = i then p.ref? else (h.phase j).ref? := by
  by_cases hj : j = i <;> simp [become, hj]

theorem ref_become_of_eq {h : Heap ι} {i : ι} {p : Phase} (hp : p.ref? = (h.phase i).ref?)
    (j : ι) : ((h.become i p).phase j).ref? = (h.phase j).ref? := by
  rw [ref_become]
  split
  next hj => rw [hp, hj]
  next => rfl

end Heap

end Oncall.KeyedLocks
