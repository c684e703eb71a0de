import Oncall.Proofs.KeyedLocks.Use
import Oncall.Proofs.Pool.Schedule

/-! The locks of a pool fit its jobs: whoever waits for a key stands in its line, and whoever has
made a call that is not over holds its key. Every action keeps this, so in any run, with jobs dropped
at any point, the calls of two jobs with one key never overlap, and nobody waits for a lock that
nobody has. -/

namespace Oncall

open KeyedLocks (Use)

variable {C : Type} {R : C → Type} {σ α W : Type}

/-- What a job does with the locks. -/
def Stage.use : Stage C R σ α → Use
  | .queued key _ _ => .waiting key
  | .calling key _ _ _ _ => .holding key
  | _ => .idle

theorem Stage.eq_calling_of_use {st : Stage C R σ α} {key : String} (h : st.use = .holding key) :
    ∃ seen left c next, st = .calling key seen left c next := by
  cases st with
  | calling k seen left c next => cases h; exact ⟨seen, left, c, next, rfl⟩
  | _ => simp [use] at h

/-- A job that holds its lock goes on and holds it still, or is finished and has given it up. -/
theorem Workflow.goOn_fits (v : Service C R W) (i : Nat) (key : String) (use : Nat → Use)
    (body : Workflow C R σ α) (s : Shared C W)
    (h : s.locks.Fits (Function.update use i (.holding key))) :
    (body.goOn v i key s).2.locks.Fits (Function.update use i (body.goOn v i key s).1.use) := by
  refine goOn_keeps v i key (K := fun _ s => s.locks.Fits (Function.update use i (.holding key)))
    (J := fun st s => s.locks.Fits (Function.update use i st.use)) ?_ ?_ ?_ body s h
  · intro a s hs
    have hr := hs.release (i := i) (Function.update_self ..)
    rwa [Function.update_idem] at hr
  · intro seen c next left s _ hs
    exact hs
  · intro seen c next s _ hs
    exact hs

namespace Stage

variable {use : Nat → Use} {i : Nat} {s : Shared C W}

theorem poll_fits (v : Service C R W) (st : Stage C R σ α) (hi : use i = st.use)
    (h : s.locks.Fits use) :
    (st.poll v i s).2.locks.Fits (Function.update use i (st.poll v i s).1.use) := by
  have hself : ∀ st' : Stage C R σ α, st'.use = use i →
      s.locks.Fits (Function.update use i st'.use) := by
    intro st' he
    rw [he, Function.update_eq_self]
    exact h
  cases st with
  | fresh job =>
    cases job with
    | settled a => exact hself _ hi.symm
    | locked key seen body =>
      have hl := h.lock (i := i) hi key
      simp only [poll]
      split
      next hh =>
        rw [KeyedLocks.Fits.polled, if_pos hh] at hl
        exact body.goOn_fits v i key use _ hl
      next hh => rwa [KeyedLocks.Fits.polled, if_neg hh] at hl
  | queued key seen body =>
    have hl := h.poll (i := i) hi
    simp only [poll]
    split
    next hh =>
      rw [KeyedLocks.Fits.polled, if_pos hh] at hl
      exact body.goOn_fits v i key use _ hl
    next hh => rwa [KeyedLocks.Fits.polled, if_neg hh] at hl
  | calling key seen left c next =>
    have hk : s.locks.Fits (Function.update use i (.holding key)) := hself (calling key seen left c next) hi.symm
    simp only [poll]
    split
    · exact (next _).goOn_fits v i key use _ hk
    · exact hk
  | finished a => exact hself _ hi.symm
  | dropped seen => exact hself _ hi.symm

theorem drop_fits (st : Stage C R σ α) (hi : use i = st.use) (h : s.locks.Fits use) :
    (st.drop i s).2.locks.Fits (Function.update use i (st.drop i s).1.use) := by
  have hself : ∀ st' : Stage C R σ α, st'.use = use i →
      s.locks.Fits (Function.update use i st'.use) := by
    intro st' he
    rw [he, Function.update_eq_self]
    exact h
  cases st with
  | fresh job => cases job <;> exact hself _ hi.symm
  | queued key seen body => exact h.abandon hi
  | calling key seen left c next => exact h.release hi
  | finished a => exact hself _ hi.symm
  | dropped seen => exact hself _ hi.symm

end Stage

namespace Stage

/-- The key that a job has to hold for its calls. -/
def needs : Stage C R σ α → Option String
  | .fresh (.locked key _ _) | .queued key _ _ | .calling key _ _ _ _ => some key
  | _ => none

/-- While another job holds its key, a poll of a job changes nothing but the locks. -/
theorem poll_of_held (v : Service C R W) (st : Stage C R σ α) {use : Nat → Use} {i j : Nat}
    {s : Shared C W} (hi : use i = st.use) (h : s.locks.Fits use) (hij : i ≠ j) {key : String}
    (hj : use j = .holding key) (hst : st.needs = some key) :
    (st.poll v i s).2.world = s.world ∧ (st.poll v i s).2.log = s.log := by
  have hnot : ∀ {l : KeyedLocks Nat}, l.Fits (Function.update use i (KeyedLocks.Fits.polled l i key)) →
      ¬ l.holds i key = true := by
    intro l hl hh
    refine hij (hl.holder_unique ((hl.holds_iff i key).1 hh) ?_)
    rw [Function.update_of_ne hij.symm, hj]
  cases st with
  | fresh job =>
    cases job with
    | settled a => cases hst
    | locked k seen body =>
      cases hst
      simp only [poll]
      rw [if_neg (hnot (h.lock hi key))]
      exact ⟨rfl, rfl⟩
  | queued k seen body =>
    cases hst
    simp only [poll]
    rw [if_neg (hnot (h.poll hi))]
    exact ⟨rfl, rfl⟩
  | calling k seen left c next =>
    cases hst
    exact absurd (h.holder_unique hi hj) hij
  | finished a => cases hst
  | dropped seen => cases hst

end Stage

namespace Pool

def use (p : Pool C R σ α W) (i : Nat) : Use := (p.stages[i]?.map Stage.use).getD .idle

def Fits (p : Pool C R σ α W) : Prop := p.shared.locks.Fits p.use

theorem use_of_get {p : Pool C R σ α W} {i : Nat} {st : Stage C R σ α}
    (h : p.stages[i]? = some st) : p.use i = st.use := by
  simp [use, h]

theorem exists_get_of_use {p : Pool C R σ α W} {i : Nat} (h : p.use i ≠ .idle) :
    ∃ st, p.stages[i]? = some st ∧ st.use = p.use i := by
  cases hi : p.stages[i]? with
  | none => exact absurd (by simp [use, hi]) h
  | some st => exact ⟨st, rfl, (use_of_get hi).symm⟩

theorem use_set {p : Pool C R σ α W} {i : Nat} {st : Stage C R σ α} (h : p.stages[i]? = some st)
    (st' : Stage C R σ α) (s' : Shared C W) :
    use ⟨p.stages.set i st', s'⟩ = Function.update p.use i st'.use := by
  have hi : i < p.stages.length := (List.getElem?_eq_some_iff.1 h).1
  funext j
  by_cases hj : j = i
  · subst hj
    simp [use, hi]
  · rw [Function.update_of_ne hj]
    simp [use, List.getElem?_set_ne (Ne.symm hj)]

theorem use_start (jobs : List (Job C R σ α)) (w : W) : use (start jobs w) = fun _ => .idle := by
  funext i
  simp only [use, start, List.getElem?_map]
  cases jobs[i]? <;> rfl

theorem fits_start (jobs : List (Job C R σ α)) (w : W) : Fits (start jobs w) := by
  rw [Fits, use_start]
  exact KeyedLocks.fits_empty

theorem Fits.act {p : Pool C R σ α W} (h : p.Fits) (v : Service C R W) (a : Action) :
    (p.act v a).Fits := by
  cases a with
  | mark n => exact h
  | poll i =>
    refine onJob_keeps (fun st hst => ?_) h
    rw [Fits, use_set hst]
    exact st.poll_fits v (use_of_get hst) h
  | drop i =>
    refine onJob_keeps (fun st hst => ?_) h
    rw [Fits, use_set hst]
    exact st.drop_fits (use_of_get hst) h

theorem Fits.run {p : Pool C R σ α W} (h : p.Fits) (v : Service C R W) (as : List Action) :
    (run v as p).Fits :=
  run_keeps v (fun _ a _ hq => hq.act v a) h

/-- Two jobs that have begun a call and hold the same key are one job. -/
theorem Fits.caller_unique {p : Pool C R σ α W} (h : p.Fits) {i j : Nat} {st st' : Stage C R σ α}
    {key : String} (hi : p.stages[i]? = some st) (hj : p.stages[j]? = some st')
    (hst : st.use = .holding key) (hst' : st'.use = .holding key) : i = j :=
  KeyedLocks.Fits.holder_unique h ((use_of_get hi).trans hst) ((use_of_get hj).trans hst')

end Pool

/-! ### Calls that take no time -/

/-- A job that has its lock and whose calls take no time runs to its end at once. -/
theorem Workflow.goOn_of_no_delay {v : Service C R W} (hv : ∀ c, v.delay c = 0) (i : Nat)
    (key : String) (body : Workflow C R σ α) (s : Shared C W) :
    ∃ log, body.goOn v i key s = (.finished (body.run v.answer s.world).1,
      ⟨s.locks.release key, (body.run v.answer s.world).2, log⟩) := by
  induction body generalizing s with
  | done a => exact ⟨s.log, rfl⟩
  | call seen c next ih =>
    unfold Workflow.goOn
    rw [hv c]
    exact ih _ _

/-- So does a job whose lock nobody wants, when it is polled first. -/
theorem Pool.poll_of_no_delay {v : Service C R W} (hv : ∀ c, v.delay c = 0) {p : Pool C R σ α W}
    (hfits : p.Fits) {i : Nat} {key : String} {seen : σ} {body : Workflow C R σ α}
    (hst : p.stages[i]? = some (.fresh (.locked key seen body)))
    (hfree : ∀ j, (p.use j).key? ≠ some key) :
    ∃ locks log, p.act v (.poll i) =
      ⟨p.stages.set i (.finished (body.run v.answer p.shared.world).1),
        locks, (body.run v.answer p.shared.world).2, log⟩ := by
  obtain ⟨log, hgo⟩ :=
    body.goOn_of_no_delay hv i key { p.shared with locks := p.shared.locks.lock i key }
  have hholds := KeyedLocks.Fits.holds_lock_of_free hfits hfree i
  refine ⟨(p.shared.locks.lock i key).release key, log, ?_⟩
  rw [act, onJob_of_get hst, Stage.poll, if_pos hholds, hgo]

end Oncall
