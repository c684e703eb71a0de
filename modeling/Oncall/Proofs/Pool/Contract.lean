import Oncall.Proofs.Pool.Guarantee
import Oncall.Proofs.Pool.Log
import Oncall.Proofs.Pool.Notes

/-! Locks that guard something. A contract says, for each key, what holds of the world while nobody has
the key: a job that gets it may rely on that, may break it between its calls, and has to restore it
before it gives the key back. A contract also says what a job promises of its result. If the bodies of
all jobs honour the contract, every run does, each job with a service of its own: what belongs to a key
that nobody has is in order, and every promise is kept. -/

namespace Oncall

open KeyedLocks (Use)
open Relation (ReflTransGen)

variable {C : Type} {R : C → Type} {σ α W : Type}

/-- What jobs agree on. Moves under one key leave what belongs to the others, and all promises. -/
structure Contract (α W : Type) where
  inv : W → Prop
  /-- What holds while nobody has the key. -/
  free : String → W → Prop
  /-- What one call of a job with the key may do. -/
  own : String → W → W → Prop
  /-- What a job with this number promises of its result. -/
  result : Nat → α → W → Prop
  free_of_own : ∀ {key other : String} {w w' : W}, other ≠ key → own other w w' → free key w →
    free key w'
  result_of_own : ∀ {key : String} {i : Nat} {a : α} {w w' : W}, own key w w' → result i a w →
    result i a w'

namespace Contract

variable {K : Contract α W} {w w' : W}

theorem free_of_moves {key other : String} (hne : other ≠ key)
    (h : ReflTransGen (K.own other) w w') (hw : K.free key w) : K.free key w' := by
  induction h with
  | refl => exact hw
  | tail _ hstep ih => exact K.free_of_own hne hstep ih

theorem result_of_moves {key : String} {i : Nat} {a : α} (h : ReflTransGen (K.own key) w w')
    (hw : K.result i a w) : K.result i a w' := by
  induction h with
  | refl => exact hw
  | tail _ hstep ih => exact K.result_of_own hstep ih

end Contract

/-- What is left of a job that has the key restores what belongs to it, and keeps its promise. -/
def Workflow.Honours (v : Service C R W) (K : Contract α W) (i : Nat) (key : String)
    (body : Workflow C R σ α) (w : W) : Prop :=
  body.Safe v.answer K.inv (Others K.own key) (K.own key)
    (fun a w => K.free key w ∧ K.result i a w) w

namespace Stage

variable (v : Service C R W) (K : Contract α W) (i : Nat)

/-- What is left of a job honours the contract: from here if it has its lock, from wherever it may get
it if not. A job that is finished keeps its promise. -/
def Honours (w : W) : Stage C R σ α → Prop
  | .fresh (.settled a) | .finished a => K.result i a w
  | .fresh (.locked key _ body) | .queued key _ body =>
    ∀ w, K.inv w → K.free key w → body.Honours v K i key w
  | .calling key seen _ c next => (Workflow.call seen c next).Honours v K i key w
  | .dropped _ => True

variable {v K i} {w w' : W}

/-- Moves under other keys than its own leave a job in order. -/
theorem Honours.of_moves {st : Stage C R σ α} (h : st.Honours v K i w) {other : String}
    (hw : ReflTransGen (K.own other) w w') (hne : st.use ≠ .holding other) :
    st.Honours v K i w' := by
  cases st with
  | fresh job =>
    cases job with
    | settled a => exact K.result_of_moves hw h
    | locked key seen body => exact h
  | queued key seen body => exact h
  | calling key seen left c next =>
    have hle : K.own other ≤ Others K.own key := fun w w' hm => ⟨other, fun e => hne (e ▸ rfl), hm⟩
    exact Workflow.Safe.of_others seen h (ReflTransGen.mono hle _ _ hw)
  | finished a => exact K.result_of_moves hw h
  | dropped seen => trivial

theorem needs_of_holding {st : Stage C R σ α} {key : String} (h : st.use = .holding key) :
    st.needs = some key := by
  obtain ⟨seen, left, c, next, rfl⟩ := eq_calling_of_use h
  rfl

private theorem honours_goOn {key : String} {body : Workflow C R σ α} {s : Shared C W}
    (hI : K.inv s.world) (hb : body.Honours v K i key s.world)
    (hw : ReflTransGen (K.own key) w s.world) :
    K.inv (body.goOn v i key s).2.world ∧
      (body.goOn v i key s).1.Honours v K i (body.goOn v i key s).2.world ∧
      ReflTransGen (K.own key) w (body.goOn v i key s).2.world ∧
      ((body.goOn v i key s).1.use ≠ .holding key →
        K.free key (body.goOn v i key s).2.world) := by
  refine Workflow.goOn_keeps v i key
    (K := fun b s => K.inv s.world ∧ b.Honours v K i key s.world ∧
      ReflTransGen (K.own key) w s.world)
    (J := fun st s => K.inv s.world ∧ st.Honours v K i s.world ∧
      ReflTransGen (K.own key) w s.world ∧ (st.use ≠ .holding key → K.free key s.world))
    ?_ ?_ ?_ body s ⟨hI, hb, hw⟩
  · rintro a s ⟨hI, hb, hw⟩
    exact ⟨hI, hb.2, hw, fun _ => hb.1⟩
  · rintro seen c next left s - ⟨hI, hb, hw⟩
    exact ⟨hI, hb, hw, fun hne => absurd rfl hne⟩
  · rintro seen c next s - ⟨hI, hb, hw⟩
    obtain ⟨hI', hown, hnext⟩ := hb s.world .refl hI
    exact ⟨hI', hnext, hw.tail hown⟩

/-- What a poll of a job does: nothing to the world, and the job has the locks it had; or moves of its
key, which is in order if the job does not have it then. -/
inductive Polls (K : Contract α W) (i : Nat) (st st' : Stage C R σ α) (w w' : W) : Prop where
  | waits (hw : w' = w) (huse : ∀ key, st.use = .holding key → st'.use = .holding key)
  | moves (key : String) (hkey : st.needs = some key) (hw : ReflTransGen (K.own key) w w')
      (hfree : st'.use ≠ .holding key → K.free key w')

/-- A poll of a job that honours the contract leaves it so. -/
theorem honours_poll {st : Stage C R σ α} {s : Shared C W} {use : Nat → Use} (hi : use i = st.use)
    (hfits : s.locks.Fits use) (hI : K.inv s.world)
    (hfree : ∀ key, (∀ j, use j ≠ .holding key) → K.free key s.world)
    (h : st.Honours v K i s.world) :
    K.inv (st.poll v i s).2.world ∧ (st.poll v i s).1.Honours v K i (st.poll v i s).2.world ∧
      Polls K i st (st.poll v i s).1 s.world (st.poll v i s).2.world := by
  -- whoever gets a lock gets it while nobody has it
  have hgot : ∀ (l : KeyedLocks Nat) (key : String), (∀ k, use i ≠ .holding k) →
      l.Fits (Function.update use i (.holding key)) → K.free key s.world := by
    intro l key hnot hl
    refine hfree key fun j hj => ?_
    by_cases hji : j = i
    · exact hnot key (hji ▸ hj)
    · refine hji (hl.holder_unique ?_ (Function.update_self i (Use.holding key) use))
      rw [Function.update_of_ne hji, hj]
  have hgo : ∀ (key : String) (body : Workflow C R σ α) (s' : Shared C W), st.needs = some key →
      K.inv s'.world → body.Honours v K i key s'.world → ReflTransGen (K.own key) s.world s'.world →
      K.inv (body.goOn v i key s').2.world ∧
        (body.goOn v i key s').1.Honours v K i (body.goOn v i key s').2.world ∧
        Polls K i st (body.goOn v i key s').1 s.world (body.goOn v i key s').2.world := by
    intro key body s' hk hI' hb hw
    obtain ⟨h1, h2, h3, h4⟩ := honours_goOn hI' hb hw
    exact ⟨h1, h2, .moves key hk h3 h4⟩
  cases st with
  | fresh job =>
    cases job with
    | settled a => exact ⟨hI, h, .waits rfl fun _ hk => by cases hk⟩
    | locked key seen body =>
      have hl := hfits.lock (i := i) hi key
      simp only [poll]
      split
      next hh =>
        rw [KeyedLocks.Fits.polled, if_pos hh] at hl
        have hw := hgot _ key (fun k hk => by rw [hi] at hk; cases hk) hl
        exact hgo key body _ rfl hI (h _ hI hw) .refl
      next => exact ⟨hI, h, .waits rfl fun _ hk => by cases hk⟩
  | queued key seen body =>
    have hl := hfits.poll (i := i) hi
    simp only [poll]
    split
    next hh =>
      rw [KeyedLocks.Fits.polled, if_pos hh] at hl
      have hw := hgot _ key (fun k hk => by rw [hi] at hk; cases hk) hl
      exact hgo key body _ rfl hI (h _ hI hw) .refl
    next => exact ⟨hI, h, .waits rfl fun _ hk => by cases hk⟩
  | calling key seen left c next =>
    simp only [poll]
    split
    · obtain ⟨hI', hown, hnext⟩ := h s.world .refl hI
      exact hgo key _ (s.act v i c).2 rfl hI' hnext (.single hown)
    · exact ⟨hI, h, .waits rfl fun _ => id⟩
  | finished a => exact ⟨hI, h, .waits rfl fun _ => id⟩
  | dropped seen => exact ⟨hI, h, .waits rfl fun _ => id⟩

theorem honours_drop (v : Service C R W) (st : Stage C R σ α) (s : Shared C W)
    (h : st.Honours v K i w) : (st.drop i s).1.Honours v K i w := by
  cases st with
  | fresh job =>
    cases job with
    | settled a => exact h
    | locked key seen body => trivial
  | finished a => exact h
  | _ => trivial

end Stage

namespace Pool

/-- A pool that honours a contract, each job with a service of its own. -/
structure Honours (v : Nat → Service C R W) (K : Contract α W) (p : Pool C R σ α W) : Prop where
  fits : p.Fits
  inv : K.inv p.shared.world
  free : ∀ key, (∀ i, p.use i ≠ .holding key) → K.free key p.shared.world
  job : ∀ (i : Nat) (st : Stage C R σ α), p.stages[i]? = some st →
    st.Honours (v i) K i p.shared.world

variable {v : Nat → Service C R W} {K : Contract α W}

theorem Honours.poll {p : Pool C R σ α W} (h : p.Honours v K) (i : Nat) :
    (p.act (v i) (.poll i)).Honours v K := by
  refine ⟨h.fits.act (v i) (.poll i), ?_, ?_, ?_⟩
  · refine onJob_keeps (I := fun q => K.inv q.shared.world) (fun st hst => ?_) h.inv
    exact (Stage.honours_poll (use_of_get hst) h.fits h.inv h.free (h.job i st hst)).1
  · refine onJob_keeps (I := fun q => ∀ key, (∀ j, q.use j ≠ .holding key) →
      K.free key q.shared.world) (fun st hst key hfree => ?_) h.free
    obtain ⟨-, -, hpolls⟩ :=
      Stage.honours_poll (use_of_get hst) h.fits h.inv h.free (h.job i st hst)
    rw [use_set hst] at hfree
    have hself := hfree i
    rw [Function.update_self] at hself
    -- who has a key besides the job had it before
    have hothers : st.use ≠ .holding key → K.free key p.shared.world := by
      refine fun hst' => h.free key fun j hj => ?_
      by_cases hji : j = i
      · subst hji
        exact hst' ((use_of_get hst).symm.trans hj)
      · exact hfree j (by rw [Function.update_of_ne hji, hj])
    cases hpolls with
    | waits hw huse =>
      rw [hw]
      exact hothers fun hk => hself (huse key hk)
    | moves other hother hw hback =>
      by_cases hkey : other = key
      · subst hkey
        exact hback hself
      · refine K.free_of_moves hkey hw (hothers fun hk => hkey ?_)
        rw [Stage.needs_of_holding hk] at hother
        exact (Option.some.inj hother).symm
  · refine onJob_keeps (I := fun q => ∀ (j : Nat) (st : Stage C R σ α), q.stages[j]? = some st →
      st.Honours (v j) K j q.shared.world) (fun st hst => ?_) h.job
    obtain ⟨-, hjob, hpolls⟩ :=
      Stage.honours_poll (use_of_get hst) h.fits h.inv h.free (h.job i st hst)
    intro j u hu
    rcases get_set_cases hu with ⟨rfl, rfl⟩ | ⟨hji, hu⟩
    · exact hjob
    · cases hpolls with
      | waits hw _ =>
        rw [hw]
        exact h.job j u hu
      | moves key hkey hw _ =>
        by_cases hheld : u.use = .holding key
        · -- the other job has the key, so this poll was for nothing
          rw [(st.poll_of_held (v i) (use_of_get hst) h.fits (Ne.symm hji)
            ((use_of_get hu).trans hheld) hkey).1]
          exact h.job j u hu
        · exact (h.job j u hu).of_moves hw hheld

/-- A job may be dropped if what belongs to a key is always in order. -/
theorem Honours.drop {p : Pool C R σ α W} (h : p.Honours v K)
    (hfree : ∀ key w, K.inv w → K.free key w) (i : Nat) (u : Service C R W) :
    (p.act u (.drop i)).Honours v K := by
  have hworld : (p.act u (.drop i)).shared.world = p.shared.world := by
    refine onJob_keeps (I := fun q => q.shared.world = p.shared.world) (fun st _ => ?_) rfl
    exact st.world_drop i p.shared
  refine ⟨h.fits.act u (.drop i), hworld ▸ h.inv, fun key _ => hfree key _ (hworld ▸ h.inv), ?_⟩
  rw [hworld]
  refine onJob_keeps (I := fun q => ∀ (j : Nat) (st : Stage C R σ α), q.stages[j]? = some st →
    st.Honours (v j) K j p.shared.world) (fun st hst => ?_) h.job
  intro j x hx
  rcases get_set_cases hx with ⟨rfl, rfl⟩ | ⟨-, hx⟩
  · exact Stage.honours_drop (v j) st p.shared (h.job j st hst)
  · exact h.job j x hx

/-- Every run honours the contract that the jobs honour. -/
theorem Honours.runEach {p : Pool C R σ α W} (h : p.Honours v K) (as : List Action)
    (hdrop : (∀ i, .drop i ∉ as) ∨ ∀ key w, K.inv w → K.free key w) :
    (runEach v as p).Honours v K := by
  refine runEach_keeps v (fun q a ha hq => ?_) h
  cases a with
  | mark n => exact ⟨hq.fits.act _ (.mark n), hq.inv, hq.free, hq.job⟩
  | poll i => exact hq.poll i
  | drop i => exact hq.drop (hdrop.resolve_left fun hno => hno i ha) i _

theorem honours_start {jobs : List (Job C R σ α)} {w : W} (hI : K.inv w)
    (hfree : ∀ key, K.free key w)
    (hjobs : ∀ (i : Nat) (job : Job C R σ α), jobs[i]? = some job →
      (Stage.fresh job).Honours (v i) K i w) : (start jobs w).Honours v K where
  fits := fits_start jobs w
  inv := hI
  free key _ := hfree key
  job i st hst := by
    simp only [start, List.getElem?_map, Option.map_eq_some_iff] at hst
    obtain ⟨job, hjob, rfl⟩ := hst
    exact hjobs i job hjob

end Pool

end Oncall
