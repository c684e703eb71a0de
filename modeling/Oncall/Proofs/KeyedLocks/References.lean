import Oncall.Proofs.KeyedLocks.Heap
import Mathlib.Data.List.Induction

/-! References to mutexes. The count of a mutex in the map is one more than the number of calls that
have a reference to it, and every reference of a call is to the mutex that the map has for its key: a
key is forgotten only when the count is one, so nobody is left with the mutex of a forgotten key. Each
operation keeps this in memory, in any order. Main statement: a key has at most one guard, and all its
guards and waiting calls refer to the one mutex in the map. -/

namespace Oncall.KeyedLocks.Heap

variable {ι : Type} [DecidableEq ι]

/-- The calls with a reference to the mutex at `a` for a key, each once. -/
def Referrers (h : Heap ι) (key : String) (a : Nat) (is : List ι) : Prop :=
  is.Nodup ∧ ∀ i, i ∈ is ↔ (h.phase i).ref? = some (key, a)

structure Sound (h : Heap ι) : Prop where
  fits : h.session.Fits
  sorted : Dictionary.Sorted h.entries
  below : ∀ key a, h.entries.lookup key = some a → a < h.made
  apart : ∀ key key' a, h.entries.lookup key = some a → h.entries.lookup key' = some a → key = key'
  stored : ∀ i key a, (h.phase i).ref? = some (key, a) → h.entries.lookup key = some a
  counted : ∀ key a, h.entries.lookup key = some a →
    ∃ is, h.Referrers key a is ∧ (h.cell a).refs = is.length + 1

theorem sound_empty : (empty : Heap ι).Sound where
  fits := fits_empty
  sorted := Dictionary.sorted_nil
  below key a h := by cases h
  apart key key' a h := by cases h
  stored i key a h := by cases h
  counted key a h := by cases h

namespace Sound

variable {h : Heap ι} {i : ι} {key : String} {a : Nat} {p : Phase}

theorem note (hs : h.Sound) (es : List (Event ι)) : (h.note es).Sound :=
  ⟨hs.fits, hs.sorted, hs.below, hs.apart, hs.stored, hs.counted⟩

/-- The locks fit as long as no lock and no use of a call is seen to change. -/
theorem fits_of_entry (hs : h.Sound) {h' : Heap ι}
    (hu : ∀ j, (h'.phase j).call.use = (h.phase j).call.use)
    (he : ∀ k, h'.locks.entry k = h.locks.entry k) : h'.session.Fits := by
  show h'.locks.Fits fun j => (h'.phase j).call.use
  rw [funext hu]
  exact hs.fits.of_entry he

/-- A call changes that has no reference and gets none. -/
theorem become (hs : h.Sound) (hi : (h.phase i).ref? = none) (hp : p.ref? = none)
    (hu : p.call.use = (h.phase i).call.use) : (h.become i p).Sound where
  fits := hs.fits_of_entry (use_become_of_eq hu) fun _ => rfl
  sorted := hs.sorted
  below := hs.below
  apart := hs.apart
  stored j := by
    rw [ref_become_of_eq (hp.trans hi.symm)]
    exact hs.stored j
  counted k b hb := by
    obtain ⟨is, ⟨hn, hm⟩, hc⟩ := hs.counted k b hb
    exact ⟨is, ⟨hn, fun j => by rw [ref_become_of_eq (hp.trans hi.symm), hm]⟩, hc⟩

theorem locks_setMutex (hs : h.Sound) (ha : h.entries.lookup key = some a) (m : Mutex ι) :
    (h.setMutex a m).locks = h.locks.put key m := by
  refine (sorted_locks (h := h.setMutex a m) hs.sorted).ext ((sorted_locks hs.sorted).put key m)
    fun other => ?_
  rw [lookup_locks, Dictionary.lookup_put, lookup_locks]
  show (h.entries.lookup other).map (fun b =>
    (Function.update h.cell a ⟨m, (h.cell a).refs⟩ b).mutex) = _
  split
  next hk => subst hk; simp [ha]
  next hk =>
    cases ho : h.entries.lookup other with
    | none => rfl
    | some b =>
      have hb : b ≠ a := fun e => hk (hs.apart key other a ha (e ▸ ho))
      simp [hb]

theorem locks_insert (hs : h.Sound) (key : String) :
    (h.insert key).locks = h.locks.put key .fresh := by
  refine (sorted_locks (h := h.insert key) (hs.sorted.put key _)).ext
    ((sorted_locks hs.sorted).put key _) fun other => ?_
  rw [lookup_locks, Dictionary.lookup_put, lookup_locks]
  show (List.lookup other (h.entries.put key h.made)).map (fun b =>
    ((h.insert key).cell b).mutex) = _
  rw [Dictionary.lookup_put]
  split
  next => simp [Heap.insert]
  next =>
    cases ho : h.entries.lookup other with
    | none => rfl
    | some b => simp [h.cell_insert key (Nat.ne_of_lt (hs.below other b ho))]

theorem locks_remove (hs : h.Sound) (key : String) :
    (h.remove key).locks = h.locks.erase key := by
  refine (sorted_locks (h := h.remove key) (hs.sorted.erase key)).ext
    ((sorted_locks hs.sorted).erase key) fun other => ?_
  rw [lookup_locks, Dictionary.lookup_erase, lookup_locks]
  show (List.lookup other (h.entries.erase key)).map (fun b => (h.cell b).mutex) = _
  rw [Dictionary.lookup_erase]
  split <;> rfl

/-- An operation on a mutex by a call that keeps its reference to it. -/
theorem operate (hs : h.Sound) (hi : (h.phase i).ref? = some (key, a))
    (hp : p.ref? = some (key, a)) (m : Mutex ι)
    (hf : KeyedLocks.Fits (h.locks.put key m)
      (Function.update (fun j => (h.phase j).call.use) i p.call.use)) :
    ((h.setMutex a m).become i p).Sound := by
  have href : ∀ j, (((h.setMutex a m).become i p).phase j).ref? = (h.phase j).ref? :=
    ref_become_of_eq (h := h.setMutex a m) (hp.trans hi.symm)
  refine ⟨?_, hs.sorted, hs.below, hs.apart, fun j => by rw [href]; exact hs.stored j, ?_⟩
  · show ((h.setMutex a m).become i p).locks.Fits
      fun j => (((h.setMutex a m).become i p).phase j).call.use
    rw [use_become]
    rw [show ((h.setMutex a m).become i p).locks = (h.setMutex a m).locks from rfl,
      hs.locks_setMutex (hs.stored i key a hi)]
    exact hf
  · intro k b hb
    obtain ⟨is, ⟨hn, hm⟩, hc⟩ := hs.counted k b hb
    exact ⟨is, ⟨hn, fun j => by rw [href, hm]⟩, (h.refs_setMutex a m b).trans hc⟩

/-- A further reference to a mutex that the map has. -/
theorem acquire (hs : h.Sound) (hi : h.phase i = .started key)
    (ha : h.entries.lookup key = some a) :
    ((h.setRefs a ((h.cell a).refs + 1)).become i (.entering key a)).Sound := by
  refine ⟨hs.fits_of_entry (use_become_of_eq (by simp [hi, setRefs, Phase.call, Call.use]))
    fun _ => congrFun (congrArg entry (h.locks_setRefs a _)) _, hs.sorted, hs.below, hs.apart, ?_, ?_⟩
  · intro j k b hj
    rw [ref_become] at hj
    split at hj
    · cases hj; exact ha
    · exact hs.stored j k b hj
  · intro k b hb
    obtain ⟨is, ⟨hn, hm⟩, hc⟩ := hs.counted k b hb
    have hnot : i ∉ is := by rw [hm, hi]; simp [Phase.ref?]
    show ∃ is, Referrers _ k b is ∧ ((h.setRefs a ((h.cell a).refs + 1)).cell b).refs = _
    rw [refs_setRefs]
    split
    next hba =>
      have hk : key = k := hs.apart key k a ha (hba ▸ hb)
      subst hba hk
      refine ⟨i :: is, ⟨List.nodup_cons.2 ⟨hnot, hn⟩, fun j => ?_⟩, by rw [hc, List.length_cons]⟩
      rw [ref_become, List.mem_cons, hm]
      by_cases hj : j = i
      · simp [hj, Phase.ref?]
      · simp [hj, setRefs]
    next hba =>
      refine ⟨is, ⟨hn, fun j => ?_⟩, hc⟩
      rw [ref_become, hm]
      by_cases hj : j = i
      · simp [hj, hi, Phase.ref?, Ne.symm hba]
      · simp [hj, setRefs]

/-- A mutex of its own for a key that the map does not have. -/
theorem insert (hs : h.Sound) (hi : h.phase i = .started key)
    (hk : h.entries.lookup key = none) :
    ((h.insert key).become i (.entering key h.made)).Sound := by
  have hlookup : ∀ k, (h.insert key).entries.lookup k =
      if key = k then some h.made else h.entries.lookup k := Dictionary.lookup_put _ _ _
  have hold : ∀ k b, h.entries.lookup k = some b → b ≠ h.made := fun k b hb =>
    Nat.ne_of_lt (hs.below k b hb)
  have hnew : (h.insert key).cell h.made = ⟨.fresh, 2⟩ := by simp [Heap.insert]
  refine ⟨hs.fits_of_entry (use_become_of_eq (h := h.insert key) (by
    simp [hi, Heap.insert, Phase.call, Call.use])) fun k => ?_, hs.sorted.put key _, ?_, ?_, ?_, ?_⟩
  · show entry (h.insert key).locks k = _
    rw [hs.locks_insert, entry_put]
    split
    next he => rw [entry_locks, ← he, hk]; rfl
    next => rfl
  · intro k b hb
    show b < h.made + 1
    have hb : (h.insert key).entries.lookup k = some b := hb
    rw [hlookup] at hb
    split at hb
    · cases hb; omega
    · have := hs.below k b hb; omega
  · intro k k' b hb hb'
    have hb : (h.insert key).entries.lookup k = some b := hb
    have hb' : (h.insert key).entries.lookup k' = some b := hb'
    rw [hlookup] at hb hb'
    split at hb <;> split at hb'
    next h1 h2 => rw [← h1, ← h2]
    next => cases hb; exact absurd rfl (hold k' _ hb')
    next => cases hb'; exact absurd rfl (hold k _ hb)
    next => exact hs.apart k k' b hb hb'
  · intro j k b hj
    show (h.insert key).entries.lookup k = some b
    rw [hlookup]
    rw [ref_become] at hj
    split at hj
    · cases hj; rw [if_pos rfl]
    · have hb := hs.stored j k b hj
      rw [if_neg (by rintro rfl; rw [hk] at hb; cases hb), hb]
  · intro k b hb
    show ∃ is, Referrers _ k b is ∧ ((h.insert key).cell b).refs = _
    have hb : (h.insert key).entries.lookup k = some b := hb
    rw [hlookup] at hb
    split at hb
    next he =>
      cases hb
      subst he
      refine ⟨[i], ⟨List.nodup_singleton i, fun j => ?_⟩, by rw [hnew]; rfl⟩
      rw [ref_become, List.mem_singleton]
      by_cases hj : j = i
      · simp [hj, Phase.ref?]
      · simp only [hj, if_false, false_iff]
        intro hr
        rw [hs.stored j key h.made hr] at hk
        cases hk
    next he =>
      obtain ⟨is, ⟨hn, hm⟩, hc⟩ := hs.counted k b hb
      refine ⟨is, ⟨hn, fun j => ?_⟩, by rw [h.cell_insert key (hold k b hb), hc]⟩
      rw [ref_become, hm]
      by_cases hj : j = i
      · simp [hj, hi, Phase.ref?, he]
      · simp [hj, Heap.insert]

/-- A reference that is given back. -/
theorem giveBack (hs : h.Sound) (hi : (h.phase i).ref? = some (key, a)) (hp : p.ref? = none)
    (hu : p.call.use = (h.phase i).call.use) :
    ((h.setRefs a ((h.cell a).refs - 1)).become i p).Sound := by
  have ha := hs.stored i key a hi
  refine ⟨hs.fits_of_entry (use_become_of_eq (h := h.setRefs a _) hu)
    fun _ => congrFun (congrArg entry (h.locks_setRefs a _)) _, hs.sorted, hs.below, hs.apart, ?_, ?_⟩
  · intro j k b hj
    rw [ref_become, hp] at hj
    split at hj
    · cases hj
    · exact hs.stored j k b hj
  · intro k b hb
    obtain ⟨is, ⟨hn, hm⟩, hc⟩ := hs.counted k b hb
    show ∃ is, Referrers _ k b is ∧ ((h.setRefs a ((h.cell a).refs - 1)).cell b).refs = _
    rw [refs_setRefs]
    split
    next hba =>
      have hk : key = k := hs.apart key k a ha (hba ▸ hb)
      subst hba hk
      have hmem : i ∈ is := (hm i).2 hi
      refine ⟨is.erase i, ⟨hn.erase i, fun j => ?_⟩, ?_⟩
      · rw [ref_become, hp, hn.mem_erase_iff, hm]
        by_cases hj : j = i
        · simp [hj]
        · simp [hj, setRefs]
      · have := List.length_pos_of_mem hmem
        rw [hc, List.length_erase_of_mem hmem]
        omega
    next hba =>
      refine ⟨is, ⟨hn, fun j => ?_⟩, hc⟩
      rw [ref_become, hp, hm]
      by_cases hj : j = i
      · simp [hj, hi, Ne.symm hba]
      · simp [hj, setRefs]

/-- A mutex that only the map refers to is free, and nobody is in its line. -/
theorem mutex_of_refs (hs : h.Sound) (ha : h.entries.lookup key = some a)
    (hr : (h.cell a).refs = 1) : (h.cell a).mutex = .fresh ∧
      ∀ i b, (h.phase i).ref? ≠ some (key, b) := by
  obtain ⟨is, ⟨-, hm⟩, hc⟩ := hs.counted key a ha
  have hnil : is = [] := List.length_eq_zero_iff.1 (by omega)
  have hnone : ∀ i b, (h.phase i).ref? ≠ some (key, b) := by
    intro i b hi
    have hb := hs.stored i key b hi
    rw [ha] at hb
    cases hb
    have hmem := (hm i).2 hi
    rw [hnil] at hmem
    cases hmem
  have hlookup : h.locks.lookup key = some (h.cell a).mutex := by rw [lookup_locks, ha]; rfl
  have hline : (h.cell a).mutex.line = [] := by
    rw [← line_of_lookup hlookup, List.eq_nil_iff_forall_not_mem]
    intro i hi
    rcases (hs.fits.mem_line_iff i key).1 hi with hc | hc
    · obtain ⟨b, hb⟩ := Phase.call_eq_waiting.1 hc
      exact hnone i b (by rw [hb]; rfl)
    · obtain ⟨b, hb⟩ := Phase.call_eq_guard.1 hc
      exact hnone i b (by rw [hb]; rfl)
  exact ⟨(hs.fits.sound key _ hlookup).eq_fresh hline, hnone⟩

/-- A key is forgotten, or kept if there is another reference to its mutex. -/
theorem evict (hs : h.Sound) (hi : h.phase i = .evicting key) :
    ((h.evict key).become i .over).Sound := by
  have hkeep : (h.become i .over).Sound := hs.become (by rw [hi]; rfl) rfl (by rw [hi]; rfl)
  unfold Heap.evict
  cases ha : h.entries.lookup key with
  | none => exact hkeep
  | some a =>
    simp only
    split
    next hr =>
      obtain ⟨hfresh, hnone⟩ := hs.mutex_of_refs ha hr
      set h' := (h.setRefs a 0).remove key
      have hlocks : h'.locks = h.locks.erase key := by
        rw [← hs.locks_remove]
        exact (h.remove key).locks_setRefs a 0
      have hold : ∀ k b, h'.entries.lookup k = some b → key ≠ k ∧ h.entries.lookup k = some b := by
        intro k b hb
        rw [show h'.entries = h.entries.erase key from rfl, Dictionary.lookup_erase] at hb
        split at hb
        · cases hb
        · exact ⟨‹_›, hb⟩
      have href : ∀ j, ((h'.become i .over).phase j).ref? = (h.phase j).ref? :=
        ref_become_of_eq (h := h') (by show _ = (h.phase i).ref?; rw [hi]; rfl)
      refine ⟨hs.fits_of_entry (use_become_of_eq (h := h') (by
        show _ = (h.phase i).call.use; rw [hi]; rfl)) fun k => ?_, hs.sorted.erase key, ?_, ?_, ?_, ?_⟩
      · show h'.locks.entry k = _
        rw [hlocks, entry_erase]
        split
        next hk => rw [entry_locks, ← hk, ha, ← hfresh]; rfl
        next => rfl
      · intro k b hb
        exact hs.below k b (hold k b hb).2
      · intro k k' b hb hb'
        exact hs.apart k k' b (hold k b hb).2 (hold k' b hb').2
      · intro j k b hj
        rw [href] at hj
        show List.lookup k (h.entries.erase key) = some b
        rw [Dictionary.lookup_erase, if_neg (by rintro rfl; exact hnone j b hj)]
        exact hs.stored j k b hj
      · intro k b hb
        obtain ⟨hk, hb⟩ := hold k b hb
        obtain ⟨is, ⟨hn, hm⟩, hc⟩ := hs.counted k b hb
        have hba : b ≠ a := fun e => hk (hs.apart key k a ha (e ▸ hb))
        refine ⟨is, ⟨hn, fun j => by rw [href, hm]⟩, ?_⟩
        show ((h.setRefs a 0).cell b).refs = _
        rw [refs_setRefs, if_neg hba, hc]
    next => exact hkeep

/-- A poll that the fit of the locks allows. -/
theorem polled (hs : h.Sound) (hi : (h.phase i).ref? = some (key, a)) (m : Mutex ι)
    (es : List (Event ι))
    (hf : KeyedLocks.Fits (h.locks.put key m) (Function.update (fun j => (h.phase j).call.use) i
      (KeyedLocks.Fits.polled (h.locks.put key m) i key))) :
    (h.polled i key a m es).Sound := by
  have hholds : holds (h.locks.put key m) i key = true ↔ m.permit = .held i := by
    rw [holds_entry, entry_put, if_pos rfl]
  unfold KeyedLocks.Fits.polled at hf
  unfold Heap.polled
  split
  next hp =>
    rw [if_pos (hholds.2 hp)] at hf
    exact (hs.operate (p := .guard key a) hi rfl m hf).note _
  next hp =>
    rw [if_neg fun hh => hp (hholds.1 hh)] at hf
    exact (hs.operate (p := .waiting key a) hi rfl m hf).note _

theorem lookup_stored (hs : h.Sound) (hi : (h.phase i).ref? = some (key, a)) :
    h.locks.lookup key = some (h.cell a).mutex := by
  rw [lookup_locks, hs.stored i key a hi]
  rfl

theorem step (hs : h.Sound) (m : Move ι) : (h.step m).Sound := by
  cases m with
  | start i key =>
    cases hp : h.phase i with
    | unknown =>
      simp only [Heap.step, hp]
      exact hs.become (by rw [hp]; rfl) rfl (by rw [hp]; rfl)
    | _ => simp only [Heap.step, hp]; exact hs
  | poll i =>
    cases hp : h.phase i with
    | started key =>
      simp only [Heap.step, hp, find]
      cases ha : h.entries.lookup key with
      | some a => exact hs.acquire hp ha
      | none => exact hs.insert hp ha
    | entering key a =>
      have hi : (h.phase i).ref? = some (key, a) := by rw [hp]; rfl
      have hu : (h.phase i).call.use = .idle := by rw [hp]; rfl
      have hl : h.locks.lock i key = h.locks.put key ((h.cell a).mutex.enter i) := by
        rw [lock, hs.lookup_stored hi]
        rfl
      simp only [Heap.step, hp]
      exact hs.polled hi _ _ (hl ▸ hs.fits.lock hu key)
    | waiting key a =>
      have hi : (h.phase i).ref? = some (key, a) := by rw [hp]; rfl
      have hu : (h.phase i).call.use = .waiting key := by rw [hp]; rfl
      simp only [Heap.step, hp]
      exact hs.polled hi _ _ (poll_of_lookup (hs.lookup_stored hi) i ▸ hs.fits.poll hu)
    | _ => simp only [Heap.step, hp]; exact hs
  | drop i =>
    cases hp : h.phase i with
    | started key =>
      simp only [Heap.step, hp]
      exact hs.become (by rw [hp]; rfl) rfl (by rw [hp]; rfl)
    | waiting key a =>
      have hi : (h.phase i).ref? = some (key, a) := by rw [hp]; rfl
      have hu : (h.phase i).call.use = .waiting key := by rw [hp]; rfl
      simp only [Heap.step, hp]
      exact (hs.operate hi rfl _ (abandon_of_lookup (hs.lookup_stored hi) i ▸
        hs.fits.abandon hu)).note _
    | guard key a =>
      have hi : (h.phase i).ref? = some (key, a) := by rw [hp]; rfl
      have hu : (h.phase i).call.use = .holding key := by rw [hp]; rfl
      have hf : KeyedLocks.Fits (h.locks.put key (h.cell a).mutex.handOver)
          (Function.update (fun j => (h.phase j).call.use) i .idle) := by
        refine (KeyedLocks.Fits.release hs.fits hu).of_entry fun k => ?_
        rw [entry_put, entry_release, show h.session.locks = h.locks from rfl,
          entry_of_lookup (hs.lookup_stored hi)]
      simp only [Heap.step, hp]
      exact (hs.operate (p := .detached key a true) hi rfl _ hf).note _
    | detached key a evicts =>
      have hi : (h.phase i).ref? = some (key, a) := by rw [hp]; rfl
      simp only [Heap.step, hp]
      refine hs.giveBack hi ?_ ?_
      · cases evicts <;> rfl
      · rw [hp]
        cases evicts <;> rfl
    | evicting key =>
      simp only [Heap.step, hp]
      exact hs.evict hp
    | _ => simp only [Heap.step, hp]; exact hs

end Sound

theorem sound_run (moves : List (Move ι)) : (run moves).Sound := by
  induction moves using List.reverseRecOn with
  | nil => exact sound_empty
  | append_singleton moves m ih => rw [run_concat]; exact ih.step m

end Oncall.KeyedLocks.Heap
