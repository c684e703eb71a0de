import Oncall.Proofs.KeyedLocks.Turns
import Oncall.Proofs.KeyedLocks.Whole

/-! Single operations, one after another, look like whole moves. Whichever operations of other calls
come between those of a move, the calls, the log and the lock of each key are those of a session: a
first poll happens when the mutex is asked, and a drop when the mutex is left or unlocked. The two may
differ in which keys with a free lock they still know, and no call ever sees that. Main statement:
after every run a lock is never left lying and goes to its calls in turn. -/

namespace Oncall.KeyedLocks

variable {ι : Type} [DecidableEq ι]

namespace Session

/-- Two sessions with the same calls, logs and locks, but for keys known with a free lock. -/
structure Alike (s t : Session ι) : Prop where
  call : s.call = t.call
  log : s.log = t.log
  entry : ∀ key, s.locks.entry key = t.locks.entry key

omit [DecidableEq ι] in
theorem Alike.refl (s : Session ι) : s.Alike s := ⟨rfl, rfl, fun _ => rfl⟩

namespace Alike

variable {s t u : Session ι} {i : ι} {key : String} {l l' : KeyedLocks ι}

omit [DecidableEq ι] in
theorem trans (h : s.Alike t) (h' : t.Alike u) : s.Alike u :=
  ⟨h.call.trans h'.call, h.log.trans h'.log, fun key => (h.entry key).trans (h'.entry key)⟩

theorem become (h : s.Alike t) (i : ι) (c : Call) : (s.become i c).Alike (t.become i c) :=
  ⟨by simp only [Session.become, h.call], h.log, h.entry⟩

theorem polled (h : s.Alike t) (i : ι) (key : String) (hl : ∀ k, l.entry k = l'.entry k)
    (es : List (Event ι)) : (s.polled i key l es).Alike (t.polled i key l' es) := by
  have hholds : l.holds i key = l'.holds i key := by
    rw [Bool.eq_iff_iff, holds_entry, holds_entry, hl]
  unfold Session.polled
  rw [hholds, h.call, h.log]
  split <;> exact ⟨rfl, rfl, hl⟩

theorem entry_drop (h : s.Alike t) (i : ι) (key k : String) :
    (s.locks.drop i key).entry k = (t.locks.drop i key).entry k := by
  have hholds : s.locks.holds i key = t.locks.holds i key := by
    rw [Bool.eq_iff_iff, holds_entry, holds_entry, h.entry]
  unfold drop
  rw [hholds]
  split
  · rw [entry_release, entry_release, h.entry, h.entry]
  · rw [entry_abandon, entry_abandon, h.entry, h.entry]

theorem dropped (h : s.Alike t) (i : ι) (key : String) (e : Event ι) :
    (s.dropped i key e).Alike (t.dropped i key e) :=
  ⟨by simp only [Session.dropped, h.call], congrArg (· ++ [e]) h.log, h.entry_drop i key⟩

theorem step (h : s.Alike t) (m : Move ι) : (s.step m).Alike (t.step m) := by
  cases m with
  | start i key =>
    simp only [Session.step, h.call]
    split
    · exact h.become i _
    · exact h
  | poll i =>
    simp only [Session.step, h.call]
    split
    · exact h.polled i _ (fun k => by rw [entry_lock, entry_lock, h.entry, h.entry]) _
    · exact h.polled i _ (fun k => by rw [entry_poll, entry_poll, h.entry, h.entry]) _
    · exact h
  | drop i =>
    simp only [Session.step, h.call]
    split
    · exact h.become i _
    · exact h.dropped i _ _
    · exact h.dropped i _ _
    · exact h

omit [DecidableEq ι] in
theorem joined (h : s.Alike t) (key : String) : s.joined key = t.joined key := by
  rw [Session.joined, h.log, Session.joined]

omit [DecidableEq ι] in
theorem granted_iff (h : s.Alike t) (key : String) (i : ι) :
    s.Granted key i ↔ t.Granted key i := by
  rw [Granted, h.call, h.entry, Granted]

/-- What looks like a fair session is fair. -/
theorem fair (h : s.Alike t) {next next' : ι → Session ι} (ht : t.Fair next')
    (hnext : ∀ i key, t.Granted key i → (next i).call i = (next' i).call i) : s.Fair next where
  handed_over key := by
    simp only [h.call, h.granted_iff]
    intro hw
    refine (ht.handed_over key hw).imp_right fun ⟨i, hi, hn⟩ => ⟨i, hi, ?_⟩
    rw [hnext i key ((hi i).2 rfl), hn]
  joined_once key := by
    rw [h.joined]
    exact ht.joined_once key
  in_turn key := by
    rw [remained, locked, h.joined, h.log, h.call]
    exact ht.in_turn key

end Alike

end Session

namespace Heap

variable {h : Heap ι} {i : ι} {key : String} {a : Nat}

/-- A poll of a waiting call is a single operation. -/
theorem session_poll (hs : h.Sound) (hi : h.session.call i = .waiting key) :
    (h.step (.poll i)).session = h.session.step (.poll i) := by
  obtain ⟨a, hp⟩ := Phase.call_eq_waiting.1 hi
  have href : (h.phase i).ref? = some (key, a) := by rw [hp]; rfl
  rw [Session.step, hi, step, hp]
  simp only
  rw [session_polled hs (hs.stored i key a href), ← poll_of_lookup (hs.lookup_stored href)]
  rfl

/-- Finding the mutex of a key is not seen, whether it is made or not. -/
theorem find_alike (hs : h.Sound) (hi : h.phase i = .started key) :
    (h.find i key).session.Alike h.session := by
  have hcall : ∀ a, (Phase.entering key a).call = (h.phase i).call := by rw [hi]; exact fun _ => rfl
  unfold find
  split
  next a ha =>
    rw [session_become_self (h := h.setRefs a _) (hcall a), session_setRefs]
    exact .refl _
  next ha =>
    rw [session_become_self (h := h.insert key) (hcall h.made)]
    refine ⟨rfl, rfl, fun k => ?_⟩
    show (h.insert key).locks.entry k = h.locks.entry k
    rw [hs.locks_insert, entry_put]
    split
    next hk => rw [← hk, entry_locks, ha]; rfl
    next => rfl

/-- Forgetting a key that has a free lock is not seen. -/
theorem evict_alike (hs : h.Sound) (key : String) : (h.evict key).session.Alike h.session := by
  unfold evict
  split
  next a ha =>
    split
    next hr =>
      refine ⟨rfl, rfl, fun k => ?_⟩
      rw [show ((h.setRefs a 0).remove key).session.locks = (h.remove key).locks from
        (h.remove key).locks_setRefs a 0, hs.locks_remove, entry_erase]
      split
      next hk =>
        show _ = h.locks.entry k
        rw [← hk, entry_locks, ha, Option.map_some, (hs.mutex_of_refs ha hr).1]
        rfl
      next => rfl
    next => exact .refl _
  next => exact .refl _

/-- An operation looks like a move of its call, or like nothing at all. -/
theorem step_alike (hs : h.Sound) (m : Move ι) :
    (h.step m).session.Alike h.session ∨ (h.step m).session.Alike (h.session.step m) := by
  have hcall : ∀ i, h.session.call i = (h.phase i).call := fun _ => rfl
  have hsame : ∀ s s' : Session ι, s = s' → s.Alike s' := fun s s' e => e ▸ .refl s
  cases m with
  | start i key =>
    cases hp : h.phase i with
    | unknown =>
      simp only [step, Session.step, hcall, hp, Phase.call]
      exact .inr (hsame _ _ (session_become h i (.started key)))
    | _ => simp only [step, hp]; exact .inl (.refl _)
  | poll i =>
    cases hp : h.phase i with
    | started key => simp only [step, hp]; exact .inl (find_alike hs hp)
    | entering key a =>
      have href : (h.phase i).ref? = some (key, a) := by rw [hp]; rfl
      have hlock : h.locks.put key ((h.cell a).mutex.enter i) = h.locks.lock i key := by
        rw [lock, hs.lookup_stored href]
        rfl
      simp only [step, Session.step, hcall, hp, Phase.call]
      refine .inr (hsame _ _ ?_)
      rw [session_polled hs (hs.stored i key a href), hlock]
      rfl
    | waiting key a =>
      have hc : h.session.call i = .waiting key := by rw [hcall, hp]; rfl
      exact .inr (hsame _ _ (session_poll hs hc))
    | _ => simp only [step, hp]; exact .inl (.refl _)
  | drop i =>
    cases hp : h.phase i with
    | started key =>
      simp only [step, Session.step, hcall, hp, Phase.call]
      exact .inr (hsame _ _ (session_become h i .over))
    | waiting key a =>
      have href : (h.phase i).ref? = some (key, a) := by rw [hp]; rfl
      have hc : h.session.call i = .waiting key := by rw [hcall, hp]; rfl
      have hdrop := hs.fits.drop_waiting hc
      simp only [step, Session.step, hcall, hp, Phase.call]
      refine .inr (hsame _ _ ?_)
      rw [session_operate hs (hs.stored i key a href), Session.dropped, hdrop,
        show h.session.locks = h.locks from rfl, abandon_of_lookup (hs.lookup_stored href)]
      rfl
    | guard key a =>
      have href : (h.phase i).ref? = some (key, a) := by rw [hp]; rfl
      have hc : h.session.call i = .guard key := by rw [hcall, hp]; rfl
      have hdrop := hs.fits.drop_guard hc
      simp only [step, Session.step, hcall, hp, Phase.call]
      rw [session_operate hs (hs.stored i key a href), Session.dropped, hdrop]
      -- the key is not forgotten yet, which no call sees
      refine .inr ⟨rfl, rfl, fun k => ?_⟩
      show entry (h.locks.put key _) k = (h.locks.release key).entry k
      rw [entry_put, entry_release, entry_of_lookup (hs.lookup_stored href)]
    | detached key a evicts =>
      simp only [step, hp]
      refine .inl (hsame _ _ ?_)
      rw [session_become_self (h := h.setRefs a _), session_setRefs]
      show _ = (h.phase i).call
      rw [hp]
      cases evicts <;> rfl
    | evicting key =>
      have hphase : (h.evict key).phase i = h.phase i := by
        unfold evict
        split
        · split <;> rfl
        · rfl
      simp only [step, hp]
      rw [session_become_self (by rw [hphase, hp]; rfl)]
      exact .inl (evict_alike hs key)
    | _ => simp only [step, hp]; exact .inl (.refl _)

/-- Whatever comes between the operations of a move, a run looks like a run of whole moves. -/
theorem exists_session_run (moves : List (Move ι)) :
    ∃ moves', (run moves).session.Alike (Session.run moves') := by
  induction moves using List.reverseRecOn with
  | nil => exact ⟨[], .refl _⟩
  | append_singleton moves m ih =>
    obtain ⟨moves', hm⟩ := ih
    rw [run_concat]
    rcases step_alike (sound_run moves) m with h | h
    · exact ⟨moves', h.trans hm⟩
    · refine ⟨moves' ++ [m], ?_⟩
      rw [Session.run_concat]
      exact h.trans (hm.step m)

/-- Locks by key are fair after every run, whichever operations of other calls come between those of
a move: a lock is never left lying, and it goes to the calls of its key in the order of their first
polls. -/
theorem fair_of_run (moves : List (Move ι)) :
    (run moves).session.Fair (fun i => ((run moves).step (.poll i)).session) ∧
      (Session.run moves).Fair fun i => (Session.run moves).step (.poll i) := by
  refine ⟨?_, (Session.ordered_run moves).fair⟩
  obtain ⟨moves', hm⟩ := exists_session_run moves
  refine hm.fair (Session.ordered_run moves').fair fun i key hg => ?_
  have hw := ((hm.granted_iff key i).2 hg).1
  rw [session_poll (sound_run moves) hw]
  exact congrFun (hm.step (.poll i)).call i

end Heap

end Oncall.KeyedLocks
