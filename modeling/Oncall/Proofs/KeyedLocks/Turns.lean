import Oncall.Proofs.KeyedLocks.Session
import Mathlib.Data.List.Induction

/-! Who gets a lock next. A lock is never left lying: as long as a call waits for a key, there is a
guard for it, or the lock was handed to one waiting call that gets it at its next poll. And the calls
of a key get its lock in the order of their first polls, those left out that were dropped while they
waited: at any time they are the calls that got it and then the pending ones, in the order of the
queue. -/

namespace Oncall

variable {ι : Type} [DecidableEq ι]

namespace Mutex

/-- Those who wait for a lock, first the one that was handed it. -/
def pending (m : Mutex ι) : List ι :=
  match m.permit with
  | .granted i => i :: m.queue
  | _ => m.queue

omit [DecidableEq ι] in
theorem line_eq_pending (m : Mutex ι) :
    ((∀ i, m.permit ≠ .held i) ∧ m.line = m.pending) ∨
      ∃ i, m.permit = .held i ∧ m.line = i :: m.pending := by
  obtain ⟨p, q⟩ := m
  cases p with
  | free => exact .inl ⟨nofun, rfl⟩
  | granted i => exact .inl ⟨nofun, rfl⟩
  | held i => exact .inr ⟨i, rfl, rfl⟩

omit [DecidableEq ι] in
theorem pending_of_held {m : Mutex ι} {i : ι} (h : m.permit = .held i) : m.pending = m.queue := by
  rw [pending, h]

omit [DecidableEq ι] in
@[simp] theorem pending_handOver (m : Mutex ι) : m.handOver.pending = m.queue := by
  obtain ⟨p, q⟩ := m
  cases q <;> rfl

/-- A call that joins waits last, unless it gets the lock at once, and then nobody waits. -/
theorem pending_enter {m : Mutex ι} (h : m.Sound) {i : ι} (hi : m.permit ≠ .held i) :
    m.pending ++ [i] =
      (if (m.enter i).permit = .held i then [i] else []) ++ (m.enter i).pending := by
  obtain ⟨p, q⟩ := m
  cases p with
  | free => simp [enter, pending, show q = [] from h rfl]
  | granted j => simp [enter, pending]
  | held j =>
    have hj : j ≠ i := fun e => hi (by rw [e])
    simp [enter, pending, hj]

/-- The first who waits is the one that may get the lock at a poll. -/
theorem pending_poll {m : Mutex ι} {i : ι} (hi : m.permit ≠ .held i) :
    m.pending = (if (m.poll i).permit = .held i then [i] else []) ++ (m.poll i).pending := by
  unfold poll
  by_cases hg : m.permit = .granted i
  · simp [hg, pending]
  · simp [hg, hi]

theorem pending_leave {m : Mutex ι} (hn : m.line.Nodup) (i : ι) :
    (m.leave i).pending = m.pending.filter (· ≠ i) := by
  obtain ⟨p, q⟩ := m
  cases p with
  | free => simp [leave, pending]
  | held j => simp [leave, pending]
  | granted j =>
    by_cases hj : j = i
    · subst hj
      have hjq : j ∉ q := (List.nodup_cons.1 hn).1
      have hq : q.filter (· ≠ j) = q :=
        List.filter_eq_self.2 fun k hk => by simpa using fun e : k = j => hjq (e ▸ hk)
      have hl : (leave ⟨.granted j, q⟩ j).pending = q := by simp [leave]
      rw [hl, pending, List.filter_cons_of_neg (by simp), hq]
    · simp [leave, pending, hj]

end Mutex

namespace KeyedLocks

namespace Event

/-- The call that joined the line of a key, if that is what happened. -/
def joined? (key : String) : Event ι → Option ι
  | .joined i k => if k = key then some i else none
  | _ => none

/-- The call that got the lock of a key, if that is what happened. -/
def locked? (key : String) : Event ι → Option ι
  | .locked i k => if k = key then some i else none
  | _ => none

omit [DecidableEq ι] in
theorem joined?_eq_some {key : String} {e : Event ι} {i : ι} :
    e.joined? key = some i ↔ e = .joined i key := by
  cases e <;> simp [joined?, and_comm]

omit [DecidableEq ι] in
theorem joined?_of_ne {key : String} {e : Event ι} (h : e.key ≠ key) : e.joined? key = none := by
  cases e <;> simp_all [joined?, Event.key]

omit [DecidableEq ι] in
theorem locked?_of_ne {key : String} {e : Event ι} (h : e.key ≠ key) : e.locked? key = none := by
  cases e <;> simp_all [locked?, Event.key]

end Event

namespace Session

/-- The calls of a key in the order of their first polls. -/
def joined (s : Session ι) (key : String) : List ι := s.log.filterMap (Event.joined? key)

/-- The calls of a key in the order in which they got its lock. -/
def locked (s : Session ι) (key : String) : List ι := s.log.filterMap (Event.locked? key)

/-- The calls of a key that were not dropped while they waited, in the order of their first polls. -/
def remained (s : Session ι) (key : String) : List ι :=
  (s.joined key).filter fun i => .cancelled i key ∉ s.log

/-- A waiting call that was handed the lock. -/
def Granted (s : Session ι) (key : String) (i : ι) : Prop :=
  s.call i = .waiting key ∧ (s.locks.entry key).permit = .granted i

/-- A lock is never left lying, and goes to the calls in turn. `next i` is the session after one more
poll of `i`. -/
structure Fair (s : Session ι) (next : ι → Session ι) : Prop where
  handed_over : ∀ key, (∃ i, s.call i = .waiting key) →
    (∃ i, s.call i = .guard key) ∨
      ∃ i, (∀ j, s.Granted key j ↔ j = i) ∧ (next i).call i = .guard key
  joined_once : ∀ key, (s.joined key).Nodup
  in_turn : ∀ key, ∃ pending, s.remained key = s.locked key ++ pending ∧
    ∀ i, i ∈ pending ↔ s.call i = .waiting key

section Log

variable {s s' : Session ι} {es : List (Event ι)} {key other : String}

omit [DecidableEq ι] in
theorem filterMap_joined (is : List ι) (key other : String) :
    (is.map (.joined · key)).filterMap (Event.joined? other) = if key = other then is else [] := by
  rw [List.filterMap_map]
  split <;> simp_all [Event.joined?]

omit [DecidableEq ι] in
theorem filterMap_locked (is : List ι) (key other : String) :
    (is.map (.locked · key)).filterMap (Event.locked? other) = if key = other then is else [] := by
  rw [List.filterMap_map]
  split <;> simp_all [Event.locked?]

omit [DecidableEq ι] in
theorem filterMap_joined_locked (is : List ι) (key other : String) :
    (is.map (.locked · key)).filterMap (Event.joined? other) = [] := by
  simp [List.filterMap_map, Function.comp_def, Event.joined?]

omit [DecidableEq ι] in
theorem filterMap_locked_joined (is : List ι) (key other : String) :
    (is.map (.joined · key)).filterMap (Event.locked? other) = [] := by
  simp [List.filterMap_map, Function.comp_def, Event.locked?]

omit [DecidableEq ι] in
theorem mem_joined {i : ι} : i ∈ s.joined key ↔ .joined i key ∈ s.log := by
  simp [joined, List.mem_filterMap, Event.joined?_eq_some]

omit [DecidableEq ι] in
theorem joined_of_log (hl : s'.log = s.log ++ es) (key : String) :
    s'.joined key = s.joined key ++ es.filterMap (Event.joined? key) := by
  rw [joined, hl, List.filterMap_append, joined]

omit [DecidableEq ι] in
theorem locked_of_log (hl : s'.log = s.log ++ es) (key : String) :
    s'.locked key = s.locked key ++ es.filterMap (Event.locked? key) := by
  rw [locked, hl, List.filterMap_append, locked]

theorem remained_of_log (hl : s'.log = s.log ++ es) (hc : ∀ i, .cancelled i key ∉ es) :
    s'.remained key = s.remained key ++
      (es.filterMap (Event.joined? key)).filter fun i => .cancelled i key ∉ s.log := by
  rw [remained, joined_of_log hl, List.filter_append, remained]
  simp [hl, hc]

omit [DecidableEq ι] in
theorem filterMap_joined_other (he : ∀ e ∈ es, e.key = key) (ho : key ≠ other) :
    es.filterMap (Event.joined? other) = [] :=
  List.filterMap_eq_nil_iff.2 fun e hm => Event.joined?_of_ne fun h => ho ((he e hm).symm.trans h)

omit [DecidableEq ι] in
theorem filterMap_locked_other (he : ∀ e ∈ es, e.key = key) (ho : key ≠ other) :
    es.filterMap (Event.locked? other) = [] :=
  List.filterMap_eq_nil_iff.2 fun e hm => Event.locked?_of_ne fun h => ho ((he e hm).symm.trans h)

end Log

/-! ### Hand-over -/

section HandOver

variable {s : Session ι} {key : String}

theorem Fits.mem_pending (h : s.Fits) (i : ι) (key : String) :
    i ∈ (s.locks.entry key).pending ↔ s.call i = .waiting key := by
  have hline := h.mem_line_iff i key
  have hguard : s.call i = .guard key ↔ (s.locks.entry key).permit = .held i := by
    rw [← holds_entry, h.holds_iff]
    cases s.call i <;> simp [Call.use]
  rw [← line_entry] at hline
  rcases (s.locks.entry key).line_eq_pending with ⟨hnot, hl⟩ | ⟨j, hp, hl⟩
  · rw [← hl, hline, hguard, or_iff_left (hnot i)]
  · have hn := h.nodup key
    rw [← line_entry, hl, List.nodup_cons] at hn
    rw [hl, List.mem_cons, hguard, hp, Permit.held.injEq] at hline
    constructor
    · intro hi
      exact (hline.1 (.inr hi)).resolve_right fun e => hn.1 (e ▸ hi)
    · intro hi
      refine (hline.2 (.inl hi)).resolve_left fun e => ?_
      have hi' := hguard.2 (by rw [hp, e])
      rw [hi] at hi'
      cases hi'

/-- A call that was handed the lock has it after one more poll. -/
theorem call_poll_of_granted {i : ι} (hg : s.Granted key i) :
    (s.step (.poll i)).call i = .guard key := by
  obtain ⟨hi, hp⟩ := hg
  have hholds : (s.locks.poll i key).holds i key = true := by
    rw [holds_entry, entry_poll, if_pos rfl, Mutex.poll_held]
    exact .inr ⟨rfl, hp⟩
  simp only [step, hi, polled, hholds, if_true, Function.update_self]

theorem Fits.handed_over (h : s.Fits) (hw : ∃ i, s.call i = .waiting key) :
    (∃ i, s.call i = .guard key) ∨ ∃ i, ∀ j, s.Granted key j ↔ j = i := by
  obtain ⟨i, hi⟩ := hw
  have hmem := (h.mem_pending i key).2 hi
  cases hp : (s.locks.entry key).permit with
  | free =>
    have hq := h.sound.entry key hp
    rw [Mutex.pending, hp, hq] at hmem
    cases hmem
  | held j =>
    have hj := (h.holds_iff j key).1 ((holds_entry s.locks j key).2 hp)
    refine .inl ⟨j, ?_⟩
    cases hc : s.call j <;> simp_all [Call.use]
  | granted j =>
    have hj : s.call j = .waiting key := (h.mem_pending j key).1 (by simp [Mutex.pending, hp])
    refine .inr ⟨j, fun k => ?_⟩
    rw [Granted, hp, Permit.granted.injEq]
    exact ⟨fun hk => hk.2.symm, fun hk => ⟨hk ▸ hj, hk.symm⟩⟩

end HandOver

/-! ### Turns -/

/-- What every run keeps: the calls of a key that remained are those that got its lock and then the
pending ones, and only a call that has come that far has left its mark in the log. -/
structure Ordered (s : Session ι) : Prop where
  fits : s.Fits
  order : ∀ key, s.remained key = s.locked key ++ (s.locks.entry key).pending
  nodup : ∀ key, (s.joined key).Nodup
  past_joined : ∀ i key, .joined i key ∈ s.log →
    (s.call i).use.key? = some key ∨ s.call i = .over
  past_cancelled : ∀ i key, .cancelled i key ∈ s.log → s.call i = .over

theorem ordered_empty : (empty : Session ι).Ordered where
  fits := fits_empty
  order key := by simp [empty, remained, joined, locked, entry, KeyedLocks.empty, Mutex.fresh,
    Mutex.pending]
  nodup key := by simp [empty, joined]
  past_joined i key h := by simp [empty] at h
  past_cancelled i key h := by simp [empty] at h

namespace Ordered

variable {s s' : Session ι} {i : ι} {key : String} {es : List (Event ι)}

/-- A step on one key keeps the order of the others. -/
private theorem order_of_key (h : s.Ordered) (hl : s'.log = s.log ++ es)
    (hes : ∀ e ∈ es, e.key = key)
    (hentry : ∀ other, key ≠ other → s'.locks.entry other = s.locks.entry other)
    (hkey : s'.remained key = s'.locked key ++ (s'.locks.entry key).pending) (other : String) :
    s'.remained other = s'.locked other ++ (s'.locks.entry other).pending := by
  by_cases hk : key = other
  · exact hk ▸ hkey
  · have hc : ∀ j, .cancelled j other ∉ es := fun j hm => hk (hes _ hm).symm
    rw [remained_of_log hl hc, locked_of_log hl, filterMap_joined_other hes hk,
      filterMap_locked_other hes hk, hentry other hk, List.filter_nil, List.append_nil,
      List.append_nil]
    exact h.order other

/-- A call that stands in no line and was not dropped has left no mark. -/
theorem not_joined (h : s.Ordered) (hi : (s.call i).use = .idle) (hne : s.call i ≠ .over)
    (key : String) : .joined i key ∉ s.log := by
  intro hm
  rcases h.past_joined i key hm with hk | ho
  · rw [hi] at hk
    cases hk
  · exact hne ho

theorem become (h : s.Ordered) {c : Call} (hi : (s.call i).use = .idle) (hne : s.call i ≠ .over)
    (hc : c.use = .idle) : (s.become i c).Ordered where
  fits := h.fits.become hi hc
  order := h.order
  nodup := h.nodup
  past_joined j k hm := by
    have hj : j ≠ i := fun e => h.not_joined hi hne k (e ▸ hm)
    rw [show (s.become i c).call j = s.call j from Function.update_of_ne hj ..]
    exact h.past_joined j k hm
  past_cancelled j k hm := by
    have ho := h.past_cancelled j k hm
    have hj : j ≠ i := fun e => hne (e ▸ ho)
    rw [show (s.become i c).call j = s.call j from Function.update_of_ne hj ..]
    exact ho

/-- A poll by a call that is not over, and that joins the line if it is `new`. -/
private theorem of_polled (h : s.Ordered) {l : KeyedLocks ι} (new : List ι)
    (hne : s.call i ≠ .over) (hpast : ∀ k, .joined i k ∈ s.log → k = key)
    (hnew : ∀ j ∈ new, j = i) (hnodup : (s.joined key ++ new).Nodup)
    (hfits : (s.polled i key l (new.map (.joined · key))).Fits)
    (hentry : ∀ other, key ≠ other → l.entry other = s.locks.entry other)
    (hturn : (s.locks.entry key).pending ++ new = won l i key ++ (l.entry key).pending) :
    (s.polled i key l (new.map (.joined · key))).Ordered := by
  obtain ⟨hlog, c, hc, hcall⟩ := polled_spec s i key l (new.map (.joined · key))
  have hlocks : (s.polled i key l (new.map (.joined · key))).locks = l := locks_polled ..
  set s' := s.polled i key l (new.map (.joined · key))
  have hnot : ∀ k, .cancelled i k ∉ s.log := fun k hm => hne (h.past_cancelled i k hm)
  have hwon : ∀ j ∈ won l i key, j = i := fun j hj => by
    unfold won at hj
    split at hj
    · exact List.mem_singleton.1 hj
    · cases hj
  have hjoined : ∀ k, s'.joined k = s.joined k ++ if key = k then new else [] := by
    intro k
    rw [joined_of_log hlog, List.filterMap_append, filterMap_joined, filterMap_joined_locked,
      List.append_nil]
  refine ⟨hfits, ?_, fun k => ?_, fun j k hm => ?_, fun j k hm => ?_⟩
  · refine h.order_of_key hlog ?_ (fun other hk => by rw [hlocks, hentry other hk]) ?_
    · simp [Event.key, or_imp, forall_and]
    -- a call that joins was not dropped, so it counts among those that remain
    have hstay : new.filter (fun j => .cancelled j key ∉ s.log) = new :=
      List.filter_eq_self.2 fun j hj => by simpa [hnew j hj] using hnot key
    rw [remained_of_log hlog (by simp), locked_of_log hlog, List.filterMap_append,
      List.filterMap_append, filterMap_joined, filterMap_joined_locked, filterMap_locked,
      filterMap_locked_joined, if_pos rfl, if_pos rfl, List.append_nil, List.nil_append, hstay,
      hlocks, h.order, List.append_assoc, List.append_assoc, hturn]
  · rw [hjoined]
    split
    next hk => exact hk ▸ hnodup
    next => rw [List.append_nil]; exact h.nodup k
  · have hm' : .joined j k ∈ s.log ∨ j ∈ new ∧ key = k := by simpa [hlog] using hm
    by_cases hj : j = i
    · subst hj
      have hk : k = key := hm'.elim (hpast k) fun hm => hm.2.symm
      rw [hcall, Function.update_self, hk]
      exact .inl hc
    · rw [hcall, Function.update_of_ne hj]
      exact h.past_joined j k (hm'.resolve_right fun hm => hj (hnew j hm.1))
  · have hm' : .cancelled j k ∈ s.log := by simpa [hlog] using hm
    have hj : j ≠ i := fun e => hnot k (e ▸ hm')
    rw [hcall, Function.update_of_ne hj]
    exact h.past_cancelled j k hm'

theorem lift (h : s.Ordered) (hi : s.call i = .started key) :
    (s.polled i key (s.locks.lock i key) [.joined i key]).Ordered := by
  have hidle : (s.call i).use = .idle := by rw [hi]; rfl
  have hne : s.call i ≠ .over := by rw [hi]; exact nofun
  have hnot := h.not_joined hidle hne
  have hheld : (s.locks.entry key).permit ≠ .held i := by
    rw [Ne, ← holds_entry, h.fits.holds_iff, hidle]
    exact nofun
  refine h.of_polled [i] hne (fun k hm => absurd hm (hnot k))
    (fun j hj => List.mem_singleton.1 hj) ?_ (h.fits.joined hi _)
    (fun other hk => by rw [entry_lock, if_neg hk]) ?_
  · refine List.nodup_append.2 ⟨h.nodup key, List.nodup_singleton i, fun a ha b hb e => ?_⟩
    rw [List.mem_singleton.1 hb] at e
    exact hnot key (mem_joined.1 (e ▸ ha))
  · rw [won, entry_lock, if_pos rfl]
    exact Mutex.pending_enter (h.fits.sound.entry key) hheld

theorem polled (h : s.Ordered) (hi : s.call i = .waiting key) :
    (s.polled i key (s.locks.poll i key) []).Ordered := by
  have hne : s.call i ≠ .over := by rw [hi]; exact nofun
  have hheld : (s.locks.entry key).permit ≠ .held i := by
    rw [Ne, ← holds_entry]
    exact h.fits.not_holds hi
  refine h.of_polled [] hne (fun k hm => ?_) nofun
    (by rw [List.append_nil]; exact h.nodup key) (h.fits.polled hi _)
    (fun other hk => by rw [entry_poll, if_neg hk]) ?_
  · have hk := (h.past_joined i k hm).resolve_right hne
    rw [hi] at hk
    exact (Option.some.inj hk).symm
  · rw [List.append_nil, won, entry_poll, if_pos rfl]
    exact Mutex.pending_poll hheld

/-- Dropping a call or a guard, which leaves one mark that is none of joining. -/
private theorem of_dropped (h : s.Ordered) {e : Event ι} (he : ∀ j k, e ≠ .joined j k)
    (hkey : e.key = key) (hcancel : ∀ j k, e = .cancelled j k → j = i)
    (hfits : (s.dropped i key e).Fits)
    (hentry : ∀ other, key ≠ other → (s.locks.drop i key).entry other = s.locks.entry other)
    (horder : (s.dropped i key e).remained key =
      (s.dropped i key e).locked key ++ ((s.locks.drop i key).entry key).pending) :
    (s.dropped i key e).Ordered where
  fits := hfits
  order := h.order_of_key (log_dropped s i key e) (fun e' he' => by rw [List.mem_singleton.1 he', hkey])
    hentry horder
  nodup k := by
    have hnil : [e].filterMap (Event.joined? k) = [] :=
      List.filterMap_eq_nil_iff.2 fun e' he' => by
        rw [List.mem_singleton.1 he', Option.eq_none_iff_forall_ne_some]
        exact fun j hj => he j k (Event.joined?_eq_some.1 hj)
    rw [joined_of_log (log_dropped s i key e), hnil, List.append_nil]
    exact h.nodup k
  past_joined j k hm := by
    have hm : .joined j k ∈ s.log := (List.mem_append.1 hm).resolve_right fun hm =>
      he j k (List.mem_singleton.1 hm).symm
    by_cases hj : j = i
    · exact .inr (by simp [dropped, hj])
    · rw [show (s.dropped i key e).call j = s.call j from Function.update_of_ne hj ..]
      exact h.past_joined j k hm
  past_cancelled j k hm := by
    by_cases hj : j = i
    · simp [dropped, hj]
    · have hm : .cancelled j k ∈ s.log := (List.mem_append.1 hm).resolve_right fun hm =>
        hj (hcancel j k (List.mem_singleton.1 hm).symm)
      rw [show (s.dropped i key e).call j = s.call j from Function.update_of_ne hj ..]
      exact h.past_cancelled j k hm

theorem cancelled (h : s.Ordered) (hi : s.call i = .waiting key) :
    (s.dropped i key (.cancelled i key)).Ordered := by
  have hdrop := h.fits.drop_waiting hi
  refine h.of_dropped nofun rfl (fun j k he => by cases he; rfl) (h.fits.cancelled hi _)
    (fun other hk => by rw [hdrop, entry_abandon, if_neg hk]) ?_
  have hline : (s.locks.entry key).line.Nodup := by rw [line_entry]; exact h.fits.nodup key
  have hremained : (s.dropped i key (.cancelled i key)).remained key =
      (s.remained key).filter (· ≠ i) := by
    have hjoined : (s.dropped i key (.cancelled i key)).joined key = s.joined key :=
      (joined_of_log (log_dropped s i key _) key).trans (List.append_nil _)
    rw [remained, hjoined, remained, List.filter_filter]
    refine List.filter_congr fun j _ => ?_
    simp [dropped, Bool.and_comm]
  have hlocked : (s.dropped i key (.cancelled i key)).locked key = s.locked key := by
    rw [locked_of_log (log_dropped s i key _)]
    exact List.append_nil _
  -- a pending call has not got the lock before
  have hnot : i ∉ s.locked key := by
    have hn : (s.remained key).Nodup := (h.nodup key).filter _
    rw [h.order, List.nodup_append] at hn
    exact fun hm => hn.2.2 i hm i ((h.fits.mem_pending i key).2 hi) rfl
  rw [hremained, h.order, List.filter_append, hlocked, hdrop, entry_abandon, if_pos rfl,
    Mutex.pending_leave hline]
  congr 1
  exact List.filter_eq_self.2 fun j hj => by simpa using fun e : j = i => hnot (e ▸ hj)

theorem unlocked (h : s.Ordered) (hi : s.call i = .guard key) :
    (s.dropped i key (.unlocked i key)).Ordered := by
  have hdrop := h.fits.drop_guard hi
  refine h.of_dropped nofun rfl nofun (h.fits.unlocked hi _)
    (fun other hk => by rw [hdrop, entry_release, if_neg hk]) ?_
  have hheld : (s.locks.entry key).permit = .held i :=
    (holds_entry s.locks i key).1 (h.fits.holds hi)
  have hlog := log_dropped s i key (.unlocked i key)
  have hjoined : [Event.unlocked i key].filterMap (Event.joined? key) = [] := rfl
  have hlocked : [Event.unlocked i key].filterMap (Event.locked? key) = [] := rfl
  rw [remained_of_log hlog (by simp), locked_of_log hlog, hjoined, hlocked, hdrop, entry_release,
    if_pos rfl, Mutex.pending_handOver, ← Mutex.pending_of_held hheld, List.filter_nil,
    List.append_nil, List.append_nil]
  exact h.order key

theorem step (h : s.Ordered) (m : Move ι) : (s.step m).Ordered := by
  rcases s.step_cases m with he | ⟨i, c, hi, hne, hc, he⟩ | ⟨i, key, hi, he⟩ | ⟨i, key, hi, he⟩ |
    ⟨i, key, hi, he⟩ | ⟨i, key, hi, he⟩ <;> rw [he]
  · exact h
  · exact h.become hi hne hc
  · exact h.lift hi
  · exact h.polled hi
  · exact h.cancelled hi
  · exact h.unlocked hi

theorem fair (h : s.Ordered) : s.Fair fun i => s.step (.poll i) where
  handed_over _ hw := (h.fits.handed_over hw).imp_right fun ⟨i, hi⟩ =>
    ⟨i, hi, call_poll_of_granted ((hi i).2 rfl)⟩
  joined_once := h.nodup
  in_turn key := ⟨(s.locks.entry key).pending, h.order key, fun i => h.fits.mem_pending i key⟩

end Ordered

theorem ordered_run (moves : List (Move ι)) : (run moves).Ordered := by
  induction moves using List.reverseRecOn with
  | nil => exact ordered_empty
  | append_singleton moves m ih => rw [run_concat]; exact ih.step m

end Session

end KeyedLocks

end Oncall
