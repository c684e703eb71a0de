import Oncall.Proofs.Dictionary
import Oncall.Proofs.KeyedLocks.Session
import Mathlib.Data.Finset.Card

/-! Which keys a lock map knows. A dropped guard forgets its key if nobody is left in the line, and a
dropped waiting call never does. So a key is known exactly if it is in use, or if the last that
happened to it is that a waiting call was dropped: one that had been handed the lock and left nobody
behind it. -/

namespace Oncall.KeyedLocks

variable {ι : Type} [DecidableEq ι]

open Dictionary (keys mem_keys_iff)

omit [DecidableEq ι] in
theorem mem_keys_put (l : KeyedLocks ι) (key : String) (m : Mutex ι) (other : String) :
    other ∈ keys (l.put key m) ↔ key = other ∨ other ∈ keys l := by
  rw [mem_keys_iff, Dictionary.lookup_put, mem_keys_iff]
  by_cases hk : key = other <;> simp [hk]

omit [DecidableEq ι] in
theorem mem_keys_of_line {l : KeyedLocks ι} {key : String} (h : l.line key ≠ []) :
    key ∈ keys l := by
  rw [mem_keys_iff]
  cases hl : l.lookup key with
  | none => exact absurd (by simp [line, hl]) h
  | some m => exact ⟨m, rfl⟩

theorem mem_keys_poll (l : KeyedLocks ι) (i : ι) (key other : String) :
    other ∈ keys (l.poll i key) ↔ other ∈ keys l := by
  cases hm : l.lookup key with
  | none => simp [poll, hm]
  | some m =>
    rw [poll_of_lookup hm, mem_keys_put]
    exact or_iff_right_of_imp fun hk => hk ▸ (mem_keys_iff l key).2 ⟨m, hm⟩

/-- The key of a dropped waiting call stays known. -/
theorem mem_keys_abandon (l : KeyedLocks ι) (i : ι) (key other : String) :
    other ∈ keys (l.abandon i key) ↔ other ∈ keys l := by
  cases hm : l.lookup key with
  | none => simp [abandon, hm]
  | some m =>
    rw [abandon_of_lookup hm, mem_keys_put]
    exact or_iff_right_of_imp fun hk => hk ▸ (mem_keys_iff l key).2 ⟨m, hm⟩

/-- The key of a dropped guard stays known if somebody is left in its line. -/
theorem mem_keys_release {l : KeyedLocks ι} {i : ι} {key : String} (hi : l.holds i key = true)
    (other : String) :
    other ∈ keys (l.release key) ↔
      if key = other then (l.release key).line key ≠ [] else other ∈ keys l := by
  obtain ⟨m, hm, hp⟩ := holds_iff.1 hi
  have hline : (l.release key).line key = m.queue := by
    rw [line_release hi, if_pos rfl, line_of_lookup hm, Mutex.line, hp, List.tail_cons]
  rw [hline, release_of_lookup hm]
  split
  next he =>
    rw [mem_keys_iff, Dictionary.lookup_erase]
    by_cases hk : key = other
    · simpa [hk] using he
    · simp [hk, mem_keys_iff]
  next he =>
    rw [mem_keys_put]
    by_cases hk : key = other
    · simpa [hk] using he
    · simp [hk]

theorem sorted_poll {l : KeyedLocks ι} (h : Dictionary.Sorted l) (i : ι) (key : String) :
    Dictionary.Sorted (l.poll i key) := by
  unfold poll
  split
  · exact h.put key _
  · exact h

theorem sorted_abandon {l : KeyedLocks ι} (h : Dictionary.Sorted l) (i : ι) (key : String) :
    Dictionary.Sorted (l.abandon i key) := by
  unfold abandon
  split
  · exact h.put key _
  · exact h

omit [DecidableEq ι] in
theorem sorted_release {l : KeyedLocks ι} (h : Dictionary.Sorted l) (key : String) :
    Dictionary.Sorted (l.release key) := by
  unfold release
  split
  · split
    · exact h.erase key
    · exact h.put key _
  · exact h

namespace Session

/-! ### What is left of a key -/

/-- A key that has a guard, or a call that was polled and waits. -/
def InUse (s : Session ι) (key : String) : Prop :=
  ∃ i, s.call i = .waiting key ∨ s.call i = .guard key

/-- The last that happened to a key. -/
def last? (s : Session ι) (key : String) : Option (Event ι) :=
  (s.log.filter fun e => e.key = key).getLast?

/-- The last that happened to a key is that a waiting call was dropped. -/
def LeftWaiting (s : Session ι) (key : String) : Prop := ∃ i, s.last? key = some (.cancelled i key)

/-- A key out of use that a waiting call was the last to leave. -/
def Abandoned (s : Session ι) (key : String) : Prop := ¬ s.InUse key ∧ s.LeftWaiting key

theorem Fits.inUse_iff {s : Session ι} (h : s.Fits) (key : String) :
    s.InUse key ↔ s.locks.line key ≠ [] := by
  simp only [InUse, ← h.mem_line_iff, ne_eq, List.eq_nil_iff_forall_not_mem, not_forall, not_not]

section Last

variable {s s' : Session ι} {key : String} {es : List (Event ι)}

omit [DecidableEq ι] in
theorem last?_other (hl : s'.log = s.log ++ es) (he : ∀ e ∈ es, e.key = key) {other : String}
    (ho : key ≠ other) : s'.last? other = s.last? other := by
  have hnil : (es.filter fun e => e.key = other) = [] :=
    List.filter_eq_nil_iff.2 fun e hm => by simpa using fun h => ho ((he e hm).symm.trans h)
  rw [last?, hl, List.filter_append, hnil, List.append_nil, last?]

omit [DecidableEq ι] in
theorem last?_self {e : Event ι} (hl : s'.log = s.log ++ [e]) (he : e.key = key) :
    s'.last? key = some e := by
  rw [last?, hl, List.filter_append, List.filter_cons_of_pos (by simpa using he)]
  exact List.getLast?_concat

end Last

/-- What every run keeps: a key is known if its line is not empty, or if a waiting call was the last
to leave it. -/
structure Sound (s : Session ι) : Prop where
  fits : s.Fits
  sorted : Dictionary.Sorted s.locks
  known : ∀ key, key ∈ keys s.locks ↔ s.locks.line key ≠ [] ∨ s.LeftWaiting key

theorem sound_empty : (empty : Session ι).Sound where
  fits := fits_empty
  sorted := Dictionary.sorted_nil
  known key := by simp [empty, KeyedLocks.empty, keys, line, LeftWaiting, last?]

namespace Sound

variable {s s' : Session ι} {key : String}

/-- A step on one key leaves the others as they were. -/
private theorem known_of_key (h : s.Sound) (key : String) (es : List (Event ι))
    (hkeys : ∀ other, key ≠ other → (other ∈ keys s'.locks ↔ other ∈ keys s.locks))
    (hline : ∀ other, key ≠ other → s'.locks.line other = s.locks.line other)
    (hlog : s'.log = s.log ++ es) (hes : ∀ e ∈ es, e.key = key)
    (hkey : key ∈ keys s'.locks ↔ s'.locks.line key ≠ [] ∨ s'.LeftWaiting key) (other : String) :
    other ∈ keys s'.locks ↔ s'.locks.line other ≠ [] ∨ s'.LeftWaiting other := by
  by_cases hk : key = other
  · exact hk ▸ hkey
  · rw [hkeys other hk, hline other hk, LeftWaiting, last?_other hlog hes hk]
    exact h.known other

theorem log_polled (s : Session ι) (i : ι) (key : String) (l : KeyedLocks ι) (es : List (Event ι)) :
    ∃ es', (s.polled i key l es).log = s.log ++ (es ++ es') ∧ ∀ e ∈ es', e.key = key :=
  ⟨(won l i key).map (.locked · key), (polled_spec s i key l es).1, by simp [Event.key]⟩

theorem become (h : s.Sound) {i : ι} {c : Call} (hi : (s.call i).use = .idle) (hc : c.use = .idle) :
    (s.become i c).Sound where
  fits := h.fits.become hi hc
  sorted := h.sorted
  known := h.known

theorem joined (h : s.Sound) {i : ι} (hi : s.call i = .started key) :
    (s.polled i key (s.locks.lock i key) [.joined i key]).Sound where
  fits := h.fits.joined hi _
  sorted := by
    rw [locks_polled]
    exact h.sorted.put key _
  known := by
    obtain ⟨es, hlog, hes⟩ := log_polled s i key (s.locks.lock i key) [.joined i key]
    have hline := line_lock h.fits.sound i key
    have hkeys : ∀ other, other ∈ keys (s.locks.lock i key) ↔ key = other ∨ other ∈ keys s.locks :=
      mem_keys_put s.locks key _
    refine h.known_of_key key _ ?_ ?_ hlog ?_ ?_
    · intro other hk
      rw [locks_polled, hkeys, or_iff_right hk]
    · intro other hk
      rw [locks_polled, hline, if_neg hk]
    · intro e he
      rcases List.mem_append.1 he with he | he
      · rw [List.mem_singleton.1 he]; rfl
      · exact hes e he
    · rw [locks_polled, hkeys, hline, if_pos rfl]
      simp

theorem polled (h : s.Sound) {i : ι} (hi : s.call i = .waiting key) :
    (s.polled i key (s.locks.poll i key) []).Sound where
  fits := h.fits.polled hi _
  sorted := by
    rw [locks_polled]
    exact sorted_poll h.sorted i key
  known := by
    obtain ⟨es, hlog, hes⟩ := log_polled s i key (s.locks.poll i key) []
    have hmem : s.locks.line key ≠ [] := List.ne_nil_of_mem ((h.fits.mem_line_iff i key).2 (.inl hi))
    refine h.known_of_key key _ ?_ ?_ hlog hes ?_
    · intro other _
      rw [locks_polled, mem_keys_poll]
    · intro other _
      rw [locks_polled, line_poll]
    · rw [locks_polled, mem_keys_poll, line_poll]
      exact iff_of_true (mem_keys_of_line hmem) (.inl hmem)

theorem cancelled (h : s.Sound) {i : ι} (hi : s.call i = .waiting key) :
    (s.dropped i key (.cancelled i key)).Sound where
  fits := h.fits.cancelled hi _
  sorted := by
    rw [dropped, h.fits.drop_waiting hi]
    exact sorted_abandon h.sorted i key
  known := by
    have hlocks : (s.dropped i key (.cancelled i key)).locks = s.locks.abandon i key :=
      h.fits.drop_waiting hi
    have hmem : s.locks.line key ≠ [] := List.ne_nil_of_mem ((h.fits.mem_line_iff i key).2 (.inl hi))
    refine h.known_of_key key [.cancelled i key] ?_ ?_ rfl (by simp [Event.key]) ?_
    · intro other _
      rw [hlocks, mem_keys_abandon]
    · intro other hk
      rw [hlocks, line_abandon (h.fits.nodup key) (h.fits.not_holds hi), if_neg hk]
    · rw [hlocks, mem_keys_abandon]
      exact iff_of_true (mem_keys_of_line hmem)
        (.inr ⟨i, last?_self (s := s) rfl rfl⟩)

theorem unlocked (h : s.Sound) {i : ι} (hi : s.call i = .guard key) :
    (s.dropped i key (.unlocked i key)).Sound where
  fits := h.fits.unlocked hi _
  sorted := by
    rw [dropped, h.fits.drop_guard hi]
    exact sorted_release h.sorted key
  known := by
    have hlocks : (s.dropped i key (.unlocked i key)).locks = s.locks.release key :=
      h.fits.drop_guard hi
    have hlast : ¬ (s.dropped i key (.unlocked i key)).LeftWaiting key := by
      have hl : (s.dropped i key (.unlocked i key)).last? key = some (.unlocked i key) :=
        last?_self (s := s) rfl rfl
      rintro ⟨j, hj⟩
      rw [hl] at hj
      cases hj
    refine h.known_of_key key [.unlocked i key] ?_ ?_ rfl (by simp [Event.key]) ?_
    · intro other hk
      rw [hlocks, mem_keys_release (h.fits.holds hi), if_neg hk]
    · intro other hk
      rw [hlocks, line_release (h.fits.holds hi), if_neg hk]
    · rw [hlocks, mem_keys_release (h.fits.holds hi), if_pos rfl, or_iff_left hlast]

theorem step (h : s.Sound) (m : Move ι) : (s.step m).Sound := by
  rcases s.step_cases m with he | ⟨i, c, hi, -, hc, he⟩ | ⟨i, key, hi, he⟩ | ⟨i, key, hi, he⟩ |
    ⟨i, key, hi, he⟩ | ⟨i, key, hi, he⟩ <;> rw [he]
  · exact h
  · exact h.become hi hc
  · exact h.joined hi
  · exact h.polled hi
  · exact h.cancelled hi
  · exact h.unlocked hi

end Sound

theorem sound_run (moves : List (Move ι)) : (run moves).Sound := by
  induction moves using List.reverseRecOn with
  | nil => exact sound_empty
  | append_singleton moves m ih => rw [run_concat]; exact ih.step m

theorem Sound.mem_keys {s : Session ι} (h : s.Sound) (key : String) :
    key ∈ keys s.locks ↔ s.InUse key ∨ s.Abandoned key := by
  rw [h.known, ← h.fits.inUse_iff, Abandoned]
  tauto

/-- A key is known if it is in use or abandoned, so the length of the map is the number of keys in
use and of abandoned ones, and the map knows just the keys in use as long as none is abandoned. -/
theorem keys_of_run (moves : List (Move ι)) :
    (∀ key, key ∈ keys (run moves).locks ↔ (run moves).InUse key ∨ (run moves).Abandoned key) ∧
    (∃ used abandoned : Finset String, (∀ key, key ∈ used ↔ (run moves).InUse key) ∧
      (∀ key, key ∈ abandoned ↔ (run moves).Abandoned key) ∧
      (run moves).locks.length = used.card + abandoned.card) ∧
    ((run moves).locks.isEmpty ↔
      (∀ key, ¬ (run moves).InUse key) ∧ ∀ key, ¬ (run moves).Abandoned key) ∧
    ((∀ key, key ∈ keys (run moves).locks ↔ (run moves).InUse key) ↔
      ∀ key, ¬ (run moves).Abandoned key) := by
  classical
  have hs := sound_run moves
  set s := run moves
  refine ⟨hs.mem_keys, ?_, ?_, ?_⟩
  · have hcard : (keys s.locks).toFinset.card = s.locks.length := by
      rw [List.toFinset_card_of_nodup hs.sorted.nodup, keys, List.length_map]
    refine ⟨(keys s.locks).toFinset.filter s.InUse, (keys s.locks).toFinset.filter (¬ s.InUse ·),
      ?_, ?_, ?_⟩
    · intro key
      rw [Finset.mem_filter, List.mem_toFinset, hs.mem_keys]
      tauto
    · intro key
      rw [Finset.mem_filter, List.mem_toFinset, hs.mem_keys, Abandoned]
      tauto
    · rw [Finset.card_filter_add_card_filter_not, hcard]
  · rw [List.isEmpty_iff, ← List.map_eq_nil_iff (f := Prod.fst), ← keys,
      List.eq_nil_iff_forall_not_mem]
    simp only [hs.mem_keys, not_or, forall_and]
  · refine forall_congr' fun key => ?_
    rw [hs.mem_keys, Abandoned]
    tauto

/-- A guard is dropped, and then the call that was handed its lock: nobody is left, and the key is
known. -/
theorem abandoned_key_stays :
    let s := run [.start true "k", .poll true, .start false "k", .poll false, .drop true,
      .drop false]
    (∀ i, s.call i = .over) ∧ ¬ ("k" ∈ keys s.locks ↔ s.InUse "k") ∧ s.locks.isEmpty = false := by
  unfold InUse
  decide

end Session

end Oncall.KeyedLocks
