import Oncall.Proofs.KeyedLocks.References

/-! Moves as a whole. When no other call comes between the operations of a move, all that is seen of
them is one move of a session: the map of mutexes shows the lock map that a session computes, and a
key is forgotten by its count of references exactly if nobody is left in its line. Main statement: in
every run, whatever comes between, a key has at most one guard, and all its guards and waiting calls
refer to the one mutex in the map. -/

namespace Oncall.KeyedLocks

/-- Nothing is left to do of the last move of a call. -/
def Phase.atRest : Phase → Bool
  | .entering _ _ | .detached _ _ _ | .evicting _ => false
  | _ => true

variable {ι : Type} [DecidableEq ι]

/-- The call that a move is for. -/
def Move.subject : Move ι → ι
  | .start i _ | .poll i | .drop i => i

namespace Heap

def AtRest (h : Heap ι) : Prop := ∀ i, (h.phase i).atRest = true

/-- What is left to do of a move, in so many operations at most. -/
def settle (m : Move ι) : Nat → Heap ι → Heap ι
  | 0, h => h
  | n + 1, h => if (h.phase m.subject).atRest then h else settle m n (h.step m)

/-- All operations of a move; no move has more than three. -/
def whole (h : Heap ι) (m : Move ι) : Heap ι := settle m 2 (h.step m)

def runWhole (moves : List (Move ι)) : Heap ι := moves.foldl whole empty

theorem runWhole_concat (moves : List (Move ι)) (m : Move ι) :
    runWhole (moves ++ [m]) = (runWhole moves).whole m := List.foldl_concat ..

theorem settle_of_atRest {h : Heap ι} {m : Move ι} (hr : (h.phase m.subject).atRest = true)
    (n : Nat) : settle m n h = h := by
  cases n with
  | zero => rfl
  | succ n => rw [settle, if_pos hr]

theorem settle_succ {h : Heap ι} {m : Move ι} (hr : (h.phase m.subject).atRest = false) (n : Nat) :
    settle m (n + 1) h = settle m n (h.step m) := by
  rw [settle, if_neg (by simp [hr])]

/-- A run of whole moves is a run. -/
theorem exists_run_of_whole (moves : List (Move ι)) : ∃ moves', runWhole moves = run moves' := by
  have hsettle : ∀ (m : Move ι) n h, ∃ ms : List (Move ι), settle m n h = ms.foldl step h := by
    intro m n
    induction n with
    | zero => exact fun h => ⟨[], rfl⟩
    | succ n ih =>
      intro h
      rw [settle]
      split
      · exact ⟨[], rfl⟩
      · obtain ⟨ms, hms⟩ := ih (h.step m)
        exact ⟨m :: ms, hms⟩
  induction moves using List.reverseRecOn with
  | nil => exact ⟨[], rfl⟩
  | append_singleton moves m ih =>
    obtain ⟨ms, hms⟩ := ih
    obtain ⟨ms', hms'⟩ := hsettle m 2 ((runWhole moves).step m)
    refine ⟨ms ++ m :: ms', ?_⟩
    rw [runWhole_concat, whole, hms', hms, run, run, List.foldl_append, List.foldl_cons]

/-! ### Operations as a session sees them -/

theorem session_become (h : Heap ι) (i : ι) (p : Phase) :
    (h.become i p).session = h.session.become i p.call := by
  simp only [session, Session.become, Session.mk.injEq]
  refine ⟨rfl, ?_, rfl⟩
  funext j
  by_cases hj : j = i
  · subst hj; simp [become]
  · simp [become, hj]

/-- A call whose look from outside does not change. -/
theorem session_become_self {h : Heap ι} {i : ι} {p : Phase} (hp : p.call = (h.phase i).call) :
    (h.become i p).session = h.session := by
  rw [session_become, hp, Session.become]
  congr
  exact Function.update_eq_self ..

omit [DecidableEq ι] in
theorem session_setRefs (h : Heap ι) (a n : Nat) : (h.setRefs a n).session = h.session := by
  rw [session, locks_setRefs]
  rfl

section Operations

variable {h : Heap ι} {i : ι} {key : String} {a : Nat}

theorem session_operate (hs : h.Sound) (ha : h.entries.lookup key = some a) (m : Mutex ι)
    (p : Phase) (es : List (Event ι)) :
    (((h.setMutex a m).become i p).note es).session =
      ⟨h.locks.put key m, Function.update h.session.call i p.call, h.log ++ es⟩ := by
  show Session.mk (h.setMutex a m).locks ((h.setMutex a m).become i p).session.call
    (h.log ++ es) = _
  rw [hs.locks_setMutex ha, session_become]
  rfl

theorem session_polled (hs : h.Sound) (ha : h.entries.lookup key = some a) (m : Mutex ι)
    (es : List (Event ι)) :
    (h.polled i key a m es).session = h.session.polled i key (h.locks.put key m) es := by
  have hholds : holds (h.locks.put key m) i key = true ↔ m.permit = .held i := by
    rw [holds_entry, entry_put, if_pos rfl]
  unfold polled Session.polled
  by_cases hp : m.permit = .held i
  · rw [if_pos hp, if_pos (hholds.2 hp), session_operate hs ha, List.append_assoc]
    rfl
  · rw [if_neg hp, if_neg fun hh => hp (hholds.1 hh), session_operate hs ha]
    rfl

theorem atRest_polled (h : Heap ι) (i : ι) (key : String) (a : Nat) (m : Mutex ι)
    (es : List (Event ι)) : ((h.polled i key a m es).phase i).atRest = true := by
  unfold polled
  split <;> simp [become, note, Phase.atRest]

/-- The first operation of a first poll finds the mutex, and all else looks the same. -/
theorem find_spec (hs : h.Sound) (hi : h.phase i = .started key) :
    ∃ a, (h.find i key).phase i = .entering key a ∧ (h.find i key).entries.lookup key = some a ∧
      (h.find i key).session.call = h.session.call ∧ (h.find i key).log = h.log ∧
      (h.find i key).locks.put key (((h.find i key).cell a).mutex.enter i) =
        h.locks.lock i key := by
  have hcall : ∀ a, (Phase.entering key a).call = (h.phase i).call := by rw [hi]; exact fun _ => rfl
  unfold find
  cases ha : h.entries.lookup key with
  | some a =>
    refine ⟨a, Function.update_self .., ha, ?_, rfl, ?_⟩
    · show ((h.setRefs a _).become i (.entering key a)).session.call = _
      rw [session_become_self (h := h.setRefs a _) (hcall a), session_setRefs]
    · show Dictionary.put (h.setRefs a _).locks key (((h.setRefs a _).cell a).mutex.enter i) = _
      rw [locks_setRefs, mutex_setRefs, lock, lookup_locks, ha]
      rfl
  | none =>
    refine ⟨h.made, Function.update_self .., ?_, ?_, rfl, ?_⟩
    · show List.lookup key (h.entries.put key h.made) = some h.made
      rw [Dictionary.lookup_put, if_pos rfl]
    · show ((h.insert key).become i (.entering key h.made)).session.call = _
      rw [session_become_self (h := h.insert key) (hcall h.made)]
      rfl
    · have hnew : ((h.insert key).cell h.made).mutex = .fresh := by simp [Heap.insert]
      show Dictionary.put (h.insert key).locks key (((h.insert key).cell h.made).mutex.enter i) = _
      rw [hs.locks_insert, hnew, (sorted_locks hs.sorted).put_put, lock, lookup_locks, ha]
      rfl

/-- The two operations of a first poll. -/
theorem whole_firstPoll (hs : h.Sound) (hi : h.phase i = .started key) :
    (h.whole (.poll i)).session = h.session.polled i key (h.locks.lock i key) [.joined i key] ∧
      ((h.whole (.poll i)).phase i).atRest = true := by
  have hstep : h.step (.poll i) = h.find i key := by simp only [step, hi]
  obtain ⟨a, hp, ha, hcall, hlog, hlocks⟩ := find_spec hs hi
  have hs' : (h.find i key).Sound := hstep ▸ hs.step (.poll i)
  set h' := h.find i key
  have hw : h.whole (.poll i) = h'.polled i key a ((h'.cell a).mutex.enter i) [.joined i key] := by
    rw [whole, hstep, settle_succ (by rw [Move.subject, hp]; rfl), step, hp]
    exact settle_of_atRest (atRest_polled h' i key a _ _) 1
  refine ⟨?_, hw ▸ atRest_polled h' i key a _ _⟩
  rw [hw, session_polled hs' ha, hlocks, Session.polled, Session.polled, hcall,
    show h'.session.log = h.session.log from hlog]

/-- A later poll is one operation. -/
theorem whole_poll (hs : h.Sound) (hi : h.phase i = .waiting key a) :
    (h.whole (.poll i)).session = h.session.polled i key (h.locks.poll i key) [] ∧
      ((h.whole (.poll i)).phase i).atRest = true := by
  have href : (h.phase i).ref? = some (key, a) := by rw [hi]; rfl
  have hw : h.whole (.poll i) = h.polled i key a ((h.cell a).mutex.poll i) [] := by
    rw [whole, step, hi]
    exact settle_of_atRest (atRest_polled h i key a _ _) 2
  rw [hw, session_polled hs (hs.stored i key a href), poll_of_lookup (hs.lookup_stored href)]
  exact ⟨rfl, atRest_polled h i key a _ _⟩

/-- The two operations on a waiting call that is dropped. -/
theorem whole_cancel (hs : h.Sound) (hi : h.phase i = .waiting key a) :
    (h.whole (.drop i)).session = h.session.dropped i key (.cancelled i key) ∧
      ((h.whole (.drop i)).phase i).atRest = true := by
  have href : (h.phase i).ref? = some (key, a) := by rw [hi]; rfl
  set h' := ((h.setMutex a ((h.cell a).mutex.leave i)).become i (.detached key a false)).note
    [.cancelled i key]
  have hstep : h.step (.drop i) = h' := by simp only [step, hi]; rfl
  have hp : h'.phase i = .detached key a false := Function.update_self ..
  have hw : h.whole (.drop i) = (h'.setRefs a ((h'.cell a).refs - 1)).become i .over := by
    rw [whole, hstep, settle_succ (by rw [Move.subject, hp]; rfl), step, hp]
    exact settle_of_atRest (by simp [Move.subject, become, Phase.atRest]) 1
  have hcall : h.session.call i = .waiting key := by simp [session, hi, Phase.call]
  refine ⟨?_, by simp [hw, become, Phase.atRest]⟩
  rw [hw, session_become_self (h := h'.setRefs a _) (by
    show _ = (h'.phase i).call; rw [hp]; rfl), session_setRefs,
    session_operate hs (hs.stored i key a href), Session.dropped, hs.fits.drop_waiting hcall]
  show Session.mk _ _ _ = ⟨h.locks.abandon i key, _, _⟩
  rw [abandon_of_lookup (hs.lookup_stored href)]
  rfl

/-- Once all references are held by calls in the line of a mutex, their count is one more than the
length of the line. -/
theorem refs_eq (hs : h.Sound) (ha : h.entries.lookup key = some a)
    (hr : ∀ j, (h.phase j).ref? = some (key, a) → (h.phase j).atRest = true) :
    (h.cell a).refs = (h.cell a).mutex.line.length + 1 := by
  obtain ⟨is, ⟨hn, hm⟩, hc⟩ := hs.counted key a ha
  have hlookup : h.locks.lookup key = some (h.cell a).mutex := by rw [lookup_locks, ha]; rfl
  have hline : h.session.locks.line key = (h.cell a).mutex.line := line_of_lookup hlookup
  have hmem : ∀ j, j ∈ is ↔ j ∈ (h.cell a).mutex.line := by
    intro j
    rw [hm, ← hline, hs.fits.mem_line_iff]
    constructor
    · intro hj
      have hrest := hr j hj
      cases hp : h.phase j with
      | waiting k b => rw [hp] at hj; cases hj; exact .inl (by simp [session, hp, Phase.call])
      | guard k b => rw [hp] at hj; cases hj; exact .inr (by simp [session, hp, Phase.call])
      | _ => simp [hp, Phase.atRest, Phase.ref?] at hrest hj
    · intro hj
      have hb : ∃ b, (h.phase j).ref? = some (key, b) := by
        rcases hj with hj | hj
        · obtain ⟨b, hb⟩ := Phase.call_eq_waiting.1 hj
          exact ⟨b, by rw [hb]; rfl⟩
        · obtain ⟨b, hb⟩ := Phase.call_eq_guard.1 hj
          exact ⟨b, by rw [hb]; rfl⟩
      obtain ⟨b, hb⟩ := hb
      have hba := hs.stored j key b hb
      rw [ha] at hba
      cases hba
      exact hb
  rw [hc, ((List.perm_ext_iff_of_nodup hn (hline ▸ hs.fits.nodup key)).2 hmem).length_eq]

/-- The three operations on a guard that is dropped. -/
theorem whole_unlock (hs : h.Sound) (hr : h.AtRest) (hi : h.phase i = .guard key a) :
    (h.whole (.drop i)).session = h.session.dropped i key (.unlocked i key) ∧
      ((h.whole (.drop i)).phase i).atRest = true := by
  have href : (h.phase i).ref? = some (key, a) := by rw [hi]; rfl
  have ha := hs.stored i key a href
  -- the states after unlocking and after giving back the reference
  set h₁ := ((h.setMutex a (h.cell a).mutex.handOver).become i (.detached key a true)).note
    [.unlocked i key]
  have hstep₁ : h.step (.drop i) = h₁ := by simp only [step, hi]; rfl
  have hp₁ : h₁.phase i = .detached key a true := Function.update_self ..
  set h₂ := (h₁.setRefs a ((h₁.cell a).refs - 1)).become i (.evicting key)
  have hstep₂ : h₁.step (.drop i) = h₂ := by simp only [step, hp₁]; rfl
  have hp₂ : h₂.phase i = .evicting key := Function.update_self ..
  have hs₂ : h₂.Sound := hstep₂ ▸ (hstep₁ ▸ hs.step (.drop i)).step (.drop i)
  have hw : h.whole (.drop i) = (h₂.evict key).become i .over := by
    rw [whole, hstep₁, settle_succ (by rw [Move.subject, hp₁]; rfl), hstep₂,
      settle_succ (by rw [Move.subject, hp₂]; rfl), step, hp₂]
    rfl
  refine ⟨?_, by simp [hw, become, Phase.atRest]⟩
  have hsession : h₂.session = ⟨h.locks.put key (h.cell a).mutex.handOver,
      Function.update h.session.call i .over, h.log ++ [.unlocked i key]⟩ := by
    rw [session_become_self (h := h₁.setRefs a _) (by
      show _ = (h₁.phase i).call; rw [hp₁]; rfl), session_setRefs]
    exact session_operate hs ha _ _ _
  have hlocks : h₂.locks = h.locks.put key (h.cell a).mutex.handOver := congrArg Session.locks hsession
  have hmutex : (h₂.cell a).mutex = (h.cell a).mutex.handOver := by
    show ((h₁.setRefs a _).cell a).mutex = _
    rw [mutex_setRefs]
    simp [h₁, note, Heap.become, setMutex]
  have hrest : ∀ j, (h₂.phase j).ref? = some (key, a) → (h₂.phase j).atRest = true := by
    intro j hj
    by_cases hji : j = i
    · rw [hji, hp₂] at hj
      cases hj
    · have hphase : h₂.phase j = h.phase j := by simp [h₂, h₁, note, Heap.become, setMutex, setRefs, hji]
      rw [hphase]
      exact hr j
  have hrefs : (h₂.cell a).refs = (h.cell a).mutex.queue.length + 1 := by
    rw [refs_eq hs₂ ha hrest, hmutex, Mutex.line_handOver]
  have hcall : h.session.call i = .guard key := by simp [session, hi, Phase.call]
  have hover : (Phase.over).call = (h₂.phase i).call := by rw [hp₂]; rfl
  rw [hw, Session.dropped, hs.fits.drop_guard hcall]
  show _ = Session.mk (h.locks.release key) _ _
  rw [release_of_lookup (hs.lookup_stored href), evict, show h₂.entries.lookup key = some a from ha]
  simp only [hrefs]
  cases hq : (h.cell a).mutex.queue with
  | nil =>
    have hremove : ((h₂.setRefs a 0).remove key).locks = h.locks.erase key := by
      rw [show ((h₂.setRefs a 0).remove key).locks = (h₂.remove key).locks from
        (h₂.remove key).locks_setRefs a 0, hs₂.locks_remove, hlocks,
        (sorted_locks hs.sorted).erase_put]
    rw [if_pos (show ([] : List ι).length + 1 = 1 from rfl),
      session_become_self (h := (h₂.setRefs a 0).remove key) hover]
    exact congrArg₂ (fun l (s : Session ι) => Session.mk l s.call s.log) hremove hsession
  | cons j rest =>
    rw [if_neg (by simp), session_become_self hover, hsession]
    rfl

end Operations

/-- Starting a call, and dropping one that was not polled, are single operations. -/
theorem whole_become {h : Heap ι} {m : Move ι} {p : Phase} (hw : h.step m = h.become m.subject p)
    (hp : p.atRest = true) :
    (h.whole m).session = h.session.become m.subject p.call ∧
      ((h.whole m).phase m.subject).atRest = true := by
  have hrest : ((h.become m.subject p).phase m.subject).atRest = true := by simp [become, hp]
  rw [whole, hw, settle_of_atRest hrest, session_become]
  exact ⟨rfl, hrest⟩

theorem whole_self {h : Heap ι} {m : Move ι} (hw : h.step m = h)
    (hr : (h.phase m.subject).atRest = true) (hs : h.session.step m = h.session) :
    (h.whole m).session = h.session.step m ∧ ((h.whole m).phase m.subject).atRest = true := by
  rw [whole, hw, settle_of_atRest hr, hs]
  exact ⟨rfl, hr⟩

/-- Moves as a whole are the moves of a session. -/
theorem whole_spec {h : Heap ι} (hs : h.Sound) (hr : h.AtRest) (m : Move ι) :
    (h.whole m).session = h.session.step m ∧ ((h.whole m).phase m.subject).atRest = true := by
  have hcall : ∀ i, h.session.call i = (h.phase i).call := fun _ => rfl
  have hi := hr m.subject
  cases m with
  | start i key =>
    cases hp : h.phase i with
    | unknown =>
      rw [Session.step, hcall, hp]
      exact whole_become (p := .started key) (by simp only [step, hp, Move.subject]) rfl
    | entering | detached | evicting => simp [Move.subject, hp, Phase.atRest] at hi
    | _ => exact whole_self (by simp only [step, hp]) hi (by simp only [Session.step, hcall, hp, Phase.call])
  | poll i =>
    cases hp : h.phase i with
    | started key =>
      rw [Session.step, hcall, hp]
      exact whole_firstPoll hs hp
    | waiting key a =>
      rw [Session.step, hcall, hp]
      exact whole_poll hs hp
    | entering | detached | evicting => simp [Move.subject, hp, Phase.atRest] at hi
    | _ => exact whole_self (by simp only [step, hp]) hi (by simp only [Session.step, hcall, hp, Phase.call])
  | drop i =>
    cases hp : h.phase i with
    | started key =>
      rw [Session.step, hcall, hp]
      exact whole_become (p := .over) (by simp only [step, hp, Move.subject]) rfl
    | waiting key a =>
      rw [Session.step, hcall, hp]
      exact whole_cancel hs hp
    | guard key a =>
      rw [Session.step, hcall, hp]
      exact whole_unlock hs hr hp
    | entering | detached | evicting => simp [Move.subject, hp, Phase.atRest] at hi
    | _ => exact whole_self (by simp only [step, hp]) hi (by simp only [Session.step, hcall, hp, Phase.call])

/-- An operation changes no other call. -/
theorem phase_step (h : Heap ι) (m : Move ι) {j : ι} (hj : j ≠ m.subject) :
    (h.step m).phase j = h.phase j := by
  have hbecome : ∀ (h' : Heap ι) i p, j ≠ i → (h'.become i p).phase j = h'.phase j :=
    fun h' i p hji => by simp [become, hji]
  cases m with
  | start i key =>
    simp only [step]
    split
    · exact hbecome _ _ _ hj
    · rfl
  | poll i =>
    simp only [step]
    split
    · unfold find
      split <;> exact hbecome _ _ _ hj
    · unfold polled
      split <;> exact hbecome _ _ _ hj
    · unfold polled
      split <;> exact hbecome _ _ _ hj
    · rfl
  | drop i =>
    simp only [step]
    split
    · exact hbecome _ _ _ hj
    · exact hbecome _ _ _ hj
    · exact hbecome _ _ _ hj
    · exact hbecome _ _ _ hj
    next key _ =>
      rw [hbecome _ i _ hj]
      unfold evict
      split
      · split <;> rfl
      · rfl
    · rfl

theorem phase_settle (m : Move ι) {j : ι} (hj : j ≠ m.subject) (n : Nat) (h : Heap ι) :
    (settle m n h).phase j = h.phase j := by
  induction n generalizing h with
  | zero => rfl
  | succ n ih =>
    rw [settle]
    split
    · rfl
    · rw [ih, phase_step h m hj]

theorem sound_runWhole (moves : List (Move ι)) : (runWhole moves).Sound := by
  obtain ⟨moves', hm⟩ := exists_run_of_whole moves
  exact hm ▸ sound_run moves'

theorem runWhole_spec (moves : List (Move ι)) :
    (runWhole moves).session = Session.run moves ∧ (runWhole moves).AtRest := by
  induction moves using List.reverseRecOn with
  | nil => exact ⟨rfl, fun _ => rfl⟩
  | append_singleton moves m ih =>
    obtain ⟨hsession, hrest⟩ := ih
    obtain ⟨hw, hi⟩ := whole_spec (sound_runWhole moves) hrest m
    rw [runWhole_concat, Session.run_concat, hw, hsession]
    refine ⟨rfl, fun j => ?_⟩
    by_cases hj : j = m.subject
    · exact hj ▸ hi
    · rw [whole, phase_settle m hj, phase_step _ m hj]
      exact hrest j

/-- The map that a session computes is the map of mutexes, as long as no move is cut in pieces. -/
theorem session_runWhole (moves : List (Move ι)) : (runWhole moves).session = Session.run moves :=
  (runWhole_spec moves).1

/-! ### Mutual exclusion -/

/-- No two guards for a key, and one mutex for all that have to do with it, the one in the map. -/
structure Exclusive (h : Heap ι) : Prop where
  guard_unique : ∀ key i j a b, h.phase i = .guard key a → h.phase j = .guard key b → i = j
  guard_stored : ∀ key i a, h.phase i = .guard key a → h.entries.lookup key = some a
  waiting_stored : ∀ key i a, h.phase i = .waiting key a → h.entries.lookup key = some a

theorem Sound.exclusive {h : Heap ι} (hs : h.Sound) : h.Exclusive where
  guard_unique key i j a b hi hj := by
    have hfits : h.session.locks.Fits fun i => (h.phase i).call.use := hs.fits
    have hu : ∀ k c, h.phase k = .guard key c → (h.phase k).call.use = .holding key := by
      intro k c hk
      rw [hk]
      rfl
    exact hfits.holder_unique (hu i a hi) (hu j b hj)
  guard_stored key i a hi := hs.stored i key a (by rw [hi]; rfl)
  waiting_stored key i a hi := hs.stored i key a (by rw [hi]; rfl)

/-- Locks by key are exclusive after every run, whichever operations of other calls come between
those of a move; and when none do, the map that is looked at is the one that a session computes. -/
theorem exclusive_of_run (moves : List (Move ι)) :
    (run moves).Exclusive ∧ (runWhole moves).Exclusive ∧
      (runWhole moves).session = Session.run moves :=
  ⟨(sound_run moves).exclusive, (sound_runWhole moves).exclusive, session_runWhole moves⟩

end Heap

end Oncall.KeyedLocks
