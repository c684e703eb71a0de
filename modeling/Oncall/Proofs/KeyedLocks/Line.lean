import Oncall.KeyedLocks
import Oncall.Proofs.Dictionary
import Mathlib.Data.List.Nodup

/-! Locks by key as their users see them. The line of a key is its holder, or the call that was
handed the lock and has not been polled since, and then the waiting calls. A first poll joins the
line, a dropped guard takes away its head, a dropped waiting call leaves it, and the head holds the
key once it is polled. Nothing else is seen of a lock map. -/

namespace Oncall

variable {ι : Type} [DecidableEq ι]

namespace Mutex

/-- Who has the lock or comes to have it, first come first. -/
def line (m : Mutex ι) : List ι :=
  match m.permit with
  | .free => m.queue
  | .granted i | .held i => i :: m.queue

/-- Nobody waits for a lock that nobody has. -/
def Sound (m : Mutex ι) : Prop := m.permit = .free → m.queue = []

omit [DecidableEq ι] in
theorem fresh_sound : (fresh : Mutex ι).Sound := fun _ => rfl

omit [DecidableEq ι] in
theorem Sound.line_eq_nil {m : Mutex ι} (h : m.Sound) : m.line = [] ↔ m.permit = .free := by
  obtain ⟨p, q⟩ := m
  cases p with
  | free => simpa [line] using h rfl
  | granted i => simp [line]
  | held i => simp [line]

omit [DecidableEq ι] in
theorem Sound.eq_fresh {m : Mutex ι} (h : m.Sound) (hl : m.line = []) : m = fresh := by
  obtain ⟨p, q⟩ := m
  obtain rfl : p = .free := h.line_eq_nil.1 hl
  obtain rfl : q = [] := h rfl
  rfl

omit [DecidableEq ι] in
@[simp] theorem line_handOver (m : Mutex ι) : m.handOver.line = m.queue := by
  obtain ⟨p, q⟩ := m
  cases q <;> rfl

omit [DecidableEq ι] in
theorem handOver_sound (m : Mutex ι) : m.handOver.Sound := by
  obtain ⟨p, q⟩ := m
  cases q with
  | nil => exact fun _ => rfl
  | cons i rest => intro h; cases h

omit [DecidableEq ι] in
theorem handOver_permit_ne (m : Mutex ι) (j : ι) : m.handOver.permit ≠ .held j := by
  obtain ⟨p, q⟩ := m
  cases q <;> simp [handOver]

omit [DecidableEq ι] in
theorem line_enter {m : Mutex ι} (h : m.Sound) (i : ι) : (m.enter i).line = m.line ++ [i] := by
  obtain ⟨p, q⟩ := m
  cases p with
  | free => simp [enter, line, show q = [] from h rfl]
  | granted j => simp [enter, line]
  | held j => simp [enter, line]

omit [DecidableEq ι] in
theorem enter_sound (m : Mutex ι) (i : ι) : (m.enter i).Sound := by
  obtain ⟨p, q⟩ := m
  intro h
  cases p <;> simp [enter] at h

omit [DecidableEq ι] in
theorem enter_held {m : Mutex ι} (h : m.Sound) (i j : ι) :
    (m.enter i).permit = .held j ↔ m.permit = .held j ∨ (j = i ∧ m.line = []) := by
  rw [h.line_eq_nil]
  obtain ⟨p, q⟩ := m
  cases p <;> simp [enter, eq_comm]

@[simp] theorem line_poll (m : Mutex ι) (i : ι) : (m.poll i).line = m.line := by
  unfold poll
  split
  next h => simp [line, h]
  next => rfl

theorem poll_sound {m : Mutex ι} (h : m.Sound) (i : ι) : (m.poll i).Sound := by
  unfold poll
  split
  · intro hp; cases hp
  · exact h

theorem poll_held (m : Mutex ι) (i j : ι) :
    (m.poll i).permit = .held j ↔ m.permit = .held j ∨ (j = i ∧ m.permit = .granted i) := by
  unfold poll
  split
  next h => simp [h, eq_comm]
  next h => simp [h]

theorem line_leave {m : Mutex ι} (hn : m.line.Nodup) {i : ι} (hi : m.permit ≠ .held i) :
    (m.leave i).line = m.line.filter (· ≠ i) := by
  obtain ⟨p, q⟩ := m
  have hq : i ∉ q → q.filter (· ≠ i) = q := by
    intro h
    rw [List.filter_eq_self]
    intro j hj
    simpa using fun e : j = i => h (e ▸ hj)
  cases p with
  | free => simp [leave, line]
  | granted j =>
    by_cases hj : j = i
    · subst hj
      have hjq : j ∉ q := (List.nodup_cons.1 hn).1
      have hl : (leave ⟨.granted j, q⟩ j).line = q := by simp [leave]
      rw [hl, line, List.filter_cons_of_neg (by simp), hq hjq]
    · simp [leave, line, hj]
  | held j =>
    have hj : j ≠ i := fun e => hi (by rw [e])
    simp [leave, line, hj]

theorem leave_sound {m : Mutex ι} (h : m.Sound) (i : ι) : (m.leave i).Sound := by
  unfold leave
  split
  · exact handOver_sound m
  · intro hp
    simp [h hp]

theorem leave_held {m : Mutex ι} (i j : ι) : (m.leave i).permit = .held j ↔ m.permit = .held j := by
  unfold leave
  split
  next h => simp [h, handOver_permit_ne]
  next => rfl

end Mutex

namespace KeyedLocks

/-- The line of a key; a key that is not known has none. -/
def line (l : KeyedLocks ι) (key : String) : List ι := ((l.lookup key).map Mutex.line).getD []

def Sound (l : KeyedLocks ι) : Prop := ∀ key m, l.lookup key = some m → m.Sound

omit [DecidableEq ι] in
theorem line_of_lookup {l : KeyedLocks ι} {key : String} {m : Mutex ι}
    (h : l.lookup key = some m) : l.line key = m.line := by
  simp [line, h]

theorem holds_iff {l : KeyedLocks ι} {i : ι} {key : String} :
    l.holds i key = true ↔ ∃ m, l.lookup key = some m ∧ m.permit = .held i := by
  simp [holds, Option.any_eq_true]

/-- A holder is the head of its line. -/
theorem line_of_holds {l : KeyedLocks ι} {i : ι} {key : String} (h : l.holds i key = true) :
    ∃ rest, l.line key = i :: rest := by
  obtain ⟨m, hm, hp⟩ := holds_iff.1 h
  exact ⟨m.queue, by rw [line_of_lookup hm, Mutex.line, hp]⟩

/-- The entry that a first poll meets, known or not. -/
def entry (l : KeyedLocks ι) (key : String) : Mutex ι := (l.lookup key).getD Mutex.fresh

omit [DecidableEq ι] in
theorem entry_of_lookup {l : KeyedLocks ι} {key : String} {m : Mutex ι}
    (h : l.lookup key = some m) : l.entry key = m := by
  rw [entry, h]
  rfl

omit [DecidableEq ι] in
theorem entry_of_unknown {l : KeyedLocks ι} {key : String} (h : l.lookup key = none) :
    l.entry key = Mutex.fresh := by
  rw [entry, h]
  rfl

omit [DecidableEq ι] in
/-- An operation that leaves a fresh lock as it is need not know the key. -/
theorem entry_unknown {l : KeyedLocks ι} {key : String} (h : l.lookup key = none)
    {f : Mutex ι → Mutex ι} (hf : f .fresh = .fresh) (other : String) :
    l.entry other = if key = other then f (l.entry key) else l.entry other := by
  split
  next hk => rw [← hk, entry_of_unknown h, hf]
  next => rfl

omit [DecidableEq ι] in
theorem line_entry (l : KeyedLocks ι) (key : String) : (l.entry key).line = l.line key := by
  unfold entry line
  cases l.lookup key <;> rfl

omit [DecidableEq ι] in
theorem Sound.entry {l : KeyedLocks ι} (h : l.Sound) (key : String) :
    (l.entry key).Sound := by
  unfold KeyedLocks.entry
  cases hl : l.lookup key with
  | none => exact Mutex.fresh_sound
  | some m => exact h key m hl

theorem holds_entry (l : KeyedLocks ι) (i : ι) (key : String) :
    l.holds i key = true ↔ (l.entry key).permit = .held i := by
  rw [holds_iff]
  unfold entry
  cases l.lookup key <;> simp [Mutex.fresh]

omit [DecidableEq ι] in
theorem entry_put (l : KeyedLocks ι) (key : String) (m : Mutex ι) (other : String) :
    entry (l.put key m) other = if key = other then m else l.entry other := by
  unfold entry
  rw [Dictionary.lookup_put]
  split <;> rfl

omit [DecidableEq ι] in
theorem Sound.put {l : KeyedLocks ι} (h : l.Sound) (key : String) {m : Mutex ι}
    (hm : m.Sound) : Sound (l.put key m) := by
  intro other n hn
  rw [Dictionary.lookup_put] at hn
  split at hn
  · rwa [← Option.some.inj hn]
  · exact h other n hn

/-! ### A first poll -/

omit [DecidableEq ι] in
theorem lock_sound {l : KeyedLocks ι} (h : l.Sound) (i : ι) (key : String) :
    (l.lock i key).Sound :=
  h.put key (Mutex.enter_sound _ i)

omit [DecidableEq ι] in
theorem entry_lock (l : KeyedLocks ι) (i : ι) (key other : String) :
    (l.lock i key).entry other = if key = other then (l.entry key).enter i else l.entry other :=
  entry_put l key _ other

omit [DecidableEq ι] in
theorem line_lock {l : KeyedLocks ι} (h : l.Sound) (i : ι) (key other : String) :
    (l.lock i key).line other = if key = other then l.line key ++ [i] else l.line other := by
  rw [← line_entry, entry_lock]
  split
  · exact (Mutex.line_enter (h.entry key) i).trans (by rw [line_entry])
  · exact line_entry l other

theorem holds_lock {l : KeyedLocks ι} (h : l.Sound) (i j : ι) (key other : String) :
    (l.lock i key).holds j other = true ↔
      l.holds j other = true ∨ (j = i ∧ key = other ∧ l.line key = []) := by
  rw [holds_entry, entry_lock]
  split
  next hk =>
    subst hk
    rw [Mutex.enter_held (h.entry key), line_entry, holds_entry]
    simp
  next hk => simp [holds_entry, hk]

/-! ### A later poll -/

theorem poll_of_lookup {l : KeyedLocks ι} {key : String} {m : Mutex ι}
    (hm : l.lookup key = some m) (i : ι) : l.poll i key = l.put key (m.poll i) := by
  simp [poll, hm]

theorem entry_poll (l : KeyedLocks ι) (i : ι) (key other : String) :
    (l.poll i key).entry other = if key = other then (l.entry key).poll i else l.entry other := by
  cases hm : l.lookup key with
  | none =>
    rw [show l.poll i key = l by simp [poll, hm]]
    exact entry_unknown (f := (·.poll i)) hm rfl other
  | some m => rw [poll_of_lookup hm, entry_put, entry_of_lookup hm]

theorem poll_sound {l : KeyedLocks ι} (h : l.Sound) (i : ι) (key : String) :
    (l.poll i key).Sound := by
  cases hm : l.lookup key with
  | none => simpa [poll, hm] using h
  | some m =>
    rw [poll_of_lookup hm]
    exact h.put key (Mutex.poll_sound (h key m hm) i)

theorem line_poll (l : KeyedLocks ι) (i : ι) (key other : String) :
    (l.poll i key).line other = l.line other := by
  rw [← line_entry, entry_poll]
  split
  next hk => rw [Mutex.line_poll, hk, line_entry]
  next => exact line_entry l other

/-- The head of the line holds the key once it is polled. -/
theorem holds_poll {l : KeyedLocks ι} (h : l.Sound) (i j : ι) (key other : String) :
    (l.poll i key).holds j other = true ↔
      l.holds j other = true ∨ (j = i ∧ key = other ∧
        (l.line key).head? = some i ∧ ∀ k, ¬ l.holds k key = true) := by
  have hg : ((l.line key).head? = some i ∧ ∀ k, ¬ l.holds k key = true) ↔
      (l.entry key).permit = .granted i := by
    simp only [holds_entry, ← line_entry, Mutex.line]
    cases hp : (l.entry key).permit with
    | free => simp [h.entry key hp]
    | granted k => simp
    | held k => simp
  rw [hg, holds_entry, entry_poll]
  split
  next hk =>
    subst hk
    rw [Mutex.poll_held, holds_entry]
    simp
  next hk => simp [holds_entry, hk]

/-! ### A dropped guard -/

omit [DecidableEq ι] in
theorem release_of_lookup {l : KeyedLocks ι} {key : String} {m : Mutex ι}
    (hm : l.lookup key = some m) :
    l.release key = if m.queue.isEmpty then l.erase key else l.put key m.handOver := by
  simp [release, hm]

omit [DecidableEq ι] in
theorem entry_erase (l : KeyedLocks ι) (key other : String) :
    entry (l.erase key) other = if key = other then Mutex.fresh else l.entry other := by
  unfold entry
  rw [Dictionary.lookup_erase]
  split <;> rfl

omit [DecidableEq ι] in
/-- What is left of a lock whose guard is dropped, whether its key is forgotten or not. -/
theorem entry_release (l : KeyedLocks ι) (key other : String) :
    (l.release key).entry other =
      if key = other then (l.entry key).handOver else l.entry other := by
  cases hm : l.lookup key with
  | none =>
    rw [show l.release key = l by simp [release, hm]]
    exact entry_unknown hm rfl other
  | some m =>
    rw [release_of_lookup hm, entry_of_lookup hm]
    split
    next he =>
      have hq : m.queue = [] := List.isEmpty_iff.1 he
      rw [entry_erase, Mutex.handOver, hq]
      rfl
    next => exact entry_put l key _ other

omit [DecidableEq ι] in
theorem release_sound {l : KeyedLocks ι} (h : l.Sound) (key : String) : (l.release key).Sound := by
  cases hm : l.lookup key with
  | none => simpa [release, hm] using h
  | some m =>
    rw [release_of_lookup hm]
    split
    · intro other n hn
      rw [Dictionary.lookup_erase] at hn
      split at hn
      · cases hn
      · exact h other n hn
    · exact h.put key (Mutex.handOver_sound m)

theorem line_release {l : KeyedLocks ι} {i : ι} {key : String} (hi : l.holds i key = true)
    (other : String) :
    (l.release key).line other = if key = other then (l.line key).tail else l.line other := by
  obtain ⟨m, hm, hp⟩ := holds_iff.1 hi
  rw [← line_entry, entry_release, entry_of_lookup hm]
  split
  · rw [Mutex.line_handOver, line_of_lookup hm, Mutex.line, hp, List.tail_cons]
  · exact line_entry l other

theorem holds_release (l : KeyedLocks ι) (key : String) (j : ι) (other : String) :
    (l.release key).holds j other = true ↔ l.holds j other = true ∧ key ≠ other := by
  rw [holds_entry, entry_release]
  split
  next hk => simp [hk, Mutex.handOver_permit_ne]
  next hk => simp [holds_entry, hk]

/-! ### A waiting call that is dropped -/

theorem abandon_of_lookup {l : KeyedLocks ι} {key : String} {m : Mutex ι}
    (hm : l.lookup key = some m) (i : ι) : l.abandon i key = l.put key (m.leave i) := by
  simp [abandon, hm]

theorem entry_abandon (l : KeyedLocks ι) (i : ι) (key other : String) :
    (l.abandon i key).entry other = if key = other then (l.entry key).leave i else l.entry other := by
  cases hm : l.lookup key with
  | none =>
    rw [show l.abandon i key = l by simp [abandon, hm]]
    exact entry_unknown (f := (·.leave i)) hm rfl other
  | some m => rw [abandon_of_lookup hm, entry_put, entry_of_lookup hm]

theorem abandon_sound {l : KeyedLocks ι} (h : l.Sound) (i : ι) (key : String) :
    (l.abandon i key).Sound := by
  cases hm : l.lookup key with
  | none => simpa [abandon, hm] using h
  | some m =>
    rw [abandon_of_lookup hm]
    exact h.put key (Mutex.leave_sound (h key m hm) i)

theorem line_abandon {l : KeyedLocks ι} {i : ι} {key : String} (hn : (l.line key).Nodup)
    (hi : ¬ l.holds i key = true) (other : String) :
    (l.abandon i key).line other =
      if key = other then (l.line key).filter (· ≠ i) else l.line other := by
  rw [← line_entry, entry_abandon]
  split
  · rw [← line_entry] at hn ⊢
    exact Mutex.line_leave hn fun hp => hi ((holds_entry l i key).2 hp)
  · exact line_entry l other

theorem holds_abandon (l : KeyedLocks ι) (i j : ι) (key other : String) :
    (l.abandon i key).holds j other = true ↔ l.holds j other = true := by
  rw [holds_entry, entry_abandon, holds_entry]
  split
  next hk => rw [Mutex.leave_held, hk]
  next => rfl

end KeyedLocks

end Oncall
