import Oncall.Proofs.KeyedLocks.Line
import Mathlib.Logic.Function.Basic

/-! What the calls on a lock map do with it: nothing, wait for a key, or hold one. A lock map fits
its calls when the line of each key lists exactly the calls that wait for it or hold it, and the
holders are the ones that hold. Each operation keeps the fit, with the call that makes it in its new
use, so mutual exclusion and hand-over are facts about any run. -/

namespace Oncall.KeyedLocks

variable {ι : Type} [DecidableEq ι]

inductive Use where
  | idle
  | waiting (key : String)
  | holding (key : String)
  deriving DecidableEq

/-- The key that a call waits for or holds. -/
def Use.key? : Use → Option String
  | .idle => none
  | .waiting key | .holding key => some key

@[simp] theorem Use.key?_idle : Use.idle.key? = none := rfl

@[simp] theorem Use.key?_waiting (key : String) : (Use.waiting key).key? = some key := rfl

@[simp] theorem Use.key?_holding (key : String) : (Use.holding key).key? = some key := rfl

structure Fits (l : KeyedLocks ι) (use : ι → Use) : Prop where
  sound : l.Sound
  nodup : ∀ key, (l.line key).Nodup
  mem_line : ∀ i key, i ∈ l.line key ↔ (use i).key? = some key
  holds_iff : ∀ i key, l.holds i key = true ↔ use i = .holding key

theorem fits_empty : Fits (empty : KeyedLocks ι) fun _ => .idle where
  sound key m h := by simp [empty] at h
  nodup key := by simp [empty, line]
  mem_line i key := by simp [empty, line]
  holds_iff i key := by simp [empty, holds]

omit [DecidableEq ι] in
theorem sound_of_entry {l : KeyedLocks ι} (h : ∀ key, (l.entry key).Sound) : l.Sound := by
  intro key m hm
  have he := h key
  rwa [entry, hm] at he

namespace Fits

variable {l : KeyedLocks ι} {use : ι → Use}

/-- A key with a free lock fits like one that is not known. -/
theorem of_entry (h : Fits l use) {l' : KeyedLocks ι} (he : ∀ key, l'.entry key = l.entry key) :
    Fits l' use := by
  have hline : ∀ key, l'.line key = l.line key := fun key => by
    rw [← line_entry, he, line_entry]
  refine ⟨sound_of_entry fun key => he key ▸ h.sound.entry key, fun key => hline key ▸ h.nodup key,
    fun i key => by rw [hline, h.mem_line], fun i key => ?_⟩
  rw [← h.holds_iff, holds_entry, holds_entry, he]

/-- The use of a call that has just been polled for a key. -/
def polled (l : KeyedLocks ι) (i : ι) (key : String) : Use :=
  if l.holds i key = true then .holding key else .waiting key

theorem polled_key (l : KeyedLocks ι) (i : ι) (key : String) :
    (polled l i key).key? = some key := by
  unfold polled
  split <;> rfl

/-- Two calls never hold the same key. -/
theorem holder_unique (h : Fits l use) {i j : ι} {key : String} (hi : use i = .holding key)
    (hj : use j = .holding key) : i = j := by
  obtain ⟨r, hr⟩ := line_of_holds ((h.holds_iff i key).2 hi)
  obtain ⟨s, hs⟩ := line_of_holds ((h.holds_iff j key).2 hj)
  rw [hr] at hs
  exact (List.cons.inj hs).1

/-- A call that holds a key is at the head of its line. -/
theorem line_of_holding (h : Fits l use) {i : ι} {key : String} (hi : use i = .holding key) :
    ∃ rest, l.line key = i :: rest :=
  line_of_holds ((h.holds_iff i key).2 hi)

theorem not_mem_of_idle (h : Fits l use) {i : ι} (hi : use i = .idle) (key : String) :
    i ∉ l.line key := by
  rw [h.mem_line, hi]
  exact nofun

/-- Where a call other than `i` has to be in the line of a key for the fit with a new use of `i`. -/
private theorem of_update {l' : KeyedLocks ι} {i : ι} {u : Use} (hs : l'.Sound)
    (hn : ∀ key, (l'.line key).Nodup)
    (hi : ∀ key, (i ∈ l'.line key ↔ u.key? = some key) ∧ (l'.holds i key = true ↔ u = .holding key))
    (hj : ∀ j key, j ≠ i → (j ∈ l'.line key ↔ (use j).key? = some key) ∧
      (l'.holds j key = true ↔ use j = .holding key)) :
    Fits l' (Function.update use i u) where
  sound := hs
  nodup := hn
  mem_line j key := by
    by_cases h : j = i
    · subst h; rw [Function.update_self]; exact (hi key).1
    · rw [Function.update_of_ne h]; exact (hj j key h).1
  holds_iff j key := by
    by_cases h : j = i
    · subst h; rw [Function.update_self]; exact (hi key).2
    · rw [Function.update_of_ne h]; exact (hj j key h).2

private theorem polled_holds {l' : KeyedLocks ι} {i : ι} {key : String}
    (ho : ∀ other, key ≠ other → ¬ l'.holds i other = true) (other : String) :
    l'.holds i other = true ↔ polled l' i key = .holding other := by
  unfold polled
  by_cases hk : key = other
  · subst hk
    split <;> simp_all
  · have := ho other hk
    split <;> simp_all

/-- A first poll. -/
theorem lock (h : Fits l use) {i : ι} (hi : use i = .idle) (key : String) :
    Fits (l.lock i key) (Function.update use i (polled (l.lock i key) i key)) := by
  have hl := line_lock h.sound i key
  have hh := holds_lock h.sound i
  have hnot := h.not_mem_of_idle hi
  have hni : ∀ other, ¬ l.holds i other = true := by
    intro other ho
    rw [h.holds_iff, hi] at ho
    cases ho
  apply of_update (lock_sound h.sound i key)
  · intro other
    rw [hl]
    split
    · exact List.nodup_append.2 ⟨h.nodup key, List.nodup_singleton i, by
        intro a ha b hb e
        rw [List.mem_singleton] at hb
        exact hnot key (hb ▸ e ▸ ha)⟩
    · exact h.nodup other
  · intro other
    refine ⟨?_, polled_holds ?_ other⟩
    · rw [hl, polled_key]
      split
      next hk => simp [hk]
      next hk => simp [hnot other, hk]
    · intro other hk ho
      rcases (hh i key other).1 ho with ho | ⟨-, hk', -⟩
      · exact hni other ho
      · exact hk hk'
  · intro j other hj
    refine ⟨?_, ?_⟩
    · rw [hl, ← h.mem_line]
      split
      next hk => simp [hk, hj]
      next => rfl
    · rw [hh, ← h.holds_iff]
      simp [hj]

/-- A key that nobody waits for or holds is locked by the first poll. -/
theorem holds_lock_of_free (h : Fits l use) {key : String}
    (hfree : ∀ j, (use j).key? ≠ some key) (i : ι) : (l.lock i key).holds i key = true := by
  have hline : l.line key = [] := by
    refine List.eq_nil_iff_forall_not_mem.2 fun j hj => ?_
    exact hfree j ((h.mem_line j key).1 hj)
  exact (holds_lock h.sound i i key key).2 (Or.inr ⟨rfl, rfl, hline⟩)

/-- A later poll of a waiting call. -/
theorem poll (h : Fits l use) {i : ι} {key : String} (hi : use i = .waiting key) :
    Fits (l.poll i key) (Function.update use i (polled (l.poll i key) i key)) := by
  have hl := line_poll l i key
  have hh := holds_poll h.sound i
  have hni : ∀ other, ¬ l.holds i other = true := by
    intro other ho
    rw [h.holds_iff, hi] at ho
    cases ho
  apply of_update (poll_sound h.sound i key)
  · intro other
    rw [hl]
    exact h.nodup other
  · intro other
    refine ⟨?_, polled_holds ?_ other⟩
    · rw [hl, polled_key, h.mem_line, hi, Use.key?_waiting]
    · intro other hk ho
      rcases (hh i key other).1 ho with ho | ⟨-, hk', -⟩
      · exact hni other ho
      · exact hk hk'
  · intro j other hj
    refine ⟨by rw [hl, h.mem_line], ?_⟩
    rw [hh, ← h.holds_iff]
    simp [hj]

/-- A dropped guard. -/
theorem release (h : Fits l use) {i : ι} {key : String} (hi : use i = .holding key) :
    Fits (l.release key) (Function.update use i .idle) := by
  have hhi := (h.holds_iff i key).2 hi
  have hl := line_release hhi
  have hh := holds_release l key
  obtain ⟨rest, hr⟩ := h.line_of_holding hi
  have hn := h.nodup key
  rw [hr, List.nodup_cons] at hn
  have hik : ∀ other, (use i).key? = some other ↔ key = other := by simp [hi]
  apply of_update (release_sound h.sound key)
  · intro other
    rw [hl]
    split
    · exact (h.nodup key).tail
    · exact h.nodup other
  · intro other
    refine ⟨?_, ?_⟩
    · rw [hl]
      split
      next hk => simp [hr, hn.1]
      next hk => simp [h.mem_line, hik, hk]
    · rw [hh, h.holds_iff, hi]
      simp
  · intro j other hj
    refine ⟨?_, ?_⟩
    · rw [hl, ← h.mem_line]
      split
      next hk => rw [← hk, hr]; simp [hj]
      next => rfl
    · rw [hh, h.holds_iff]
      refine ⟨And.left, fun ho => ⟨ho, ?_⟩⟩
      rintro rfl
      exact hj (h.holder_unique ho hi)

/-- A waiting call that is dropped. -/
theorem abandon (h : Fits l use) {i : ι} {key : String} (hi : use i = .waiting key) :
    Fits (l.abandon i key) (Function.update use i .idle) := by
  have hni : ¬ l.holds i key = true := by
    rw [h.holds_iff, hi]
    exact nofun
  have hl := line_abandon (h.nodup key) hni
  have hh := holds_abandon l i
  apply of_update (abandon_sound h.sound i key)
  · intro other
    rw [hl]
    split
    · exact (h.nodup key).filter _
    · exact h.nodup other
  · intro other
    refine ⟨?_, ?_⟩
    · rw [hl]
      split
      next hk => simp [Use.key?]
      next hk => simp [h.mem_line, hi, Use.key?, hk]
    · rw [hh, h.holds_iff, hi]
      simp
  · intro j other hj
    refine ⟨?_, by rw [hh, h.holds_iff]⟩
    rw [hl, ← h.mem_line]
    split
    next hk => rw [← hk]; simp [hj]
    next => rfl

/-- The head of a line holds its key, or will when it is polled. -/
theorem holds_poll_head (h : Fits l use) {i : ι} {key : String} {rest : List ι}
    (hl : l.line key = i :: rest) (hi : use i = .waiting key) :
    (l.poll i key).holds i key = true := by
  rw [holds_poll h.sound]
  refine Or.inr ⟨rfl, rfl, by simp [hl], fun k hk => ?_⟩
  obtain ⟨s, hs⟩ := line_of_holds hk
  have hki : k = i := by rw [hl] at hs; exact (List.cons.inj hs).1.symm
  rw [h.holds_iff, hki, hi] at hk
  cases hk

end Fits

end Oncall.KeyedLocks
