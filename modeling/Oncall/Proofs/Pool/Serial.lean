import Oncall.Proofs.Pool.Log

/-! Jobs with one key are run one after another. If the first polls of the jobs come in their order,
the line of the key keeps that order, so a job makes its calls when all jobs before it are over. The
world then is what the jobs make of it when each runs in turn, and a job that was dropped has made a
prefix of its calls. The invariant gives every job the world that it found and the world that it has
come to; the jobs after one that is not over have not touched the world yet. -/

namespace Oncall

open KeyedLocks (Use)

variable {C : Type} {R : C → Type} {σ α W : Type}

namespace Workflow

/-- Runs for a number of calls at most. If more calls are left, what is seen of the workflow there is
returned in place of a result. -/
def upTo (answer : (c : C) → W → R c × W) :
    Workflow C R σ α → Option Nat → W → (σ ⊕ α) × W
  | .done a, _, w => (.inr a, w)
  | .call seen _ _, some 0, w => (.inl seen, w)
  | .call _ c next, some (n + 1), w => (next (answer c w).1).upTo answer (some n) (answer c w).2
  | .call _ c next, none, w => (next (answer c w).1).upTo answer none (answer c w).2

/-- Without a limit a workflow runs to its end. -/
theorem upTo_none (answer : (c : C) → W → R c × W) (body : Workflow C R σ α) (w : W) :
    body.upTo answer none w = (.inr (body.run answer w).1, (body.run answer w).2) := by
  induction body generalizing w with
  | done a => rfl
  | call seen c next ih => exact ih _ _

/-- With some calls a workflow comes from a world to what is left of it in another. -/
def Comes (answer : (c : C) → W → R c × W) (body : Workflow C R σ α) (w : W)
    (rest : Workflow C R σ α) (w' : W) : Prop :=
  ∃ n, ∀ cut, body.upTo answer (cut.map (· + n)) w = rest.upTo answer cut w'

theorem Comes.refl (answer : (c : C) → W → R c × W) (body : Workflow C R σ α) (w : W) :
    body.Comes answer w body w :=
  ⟨0, fun cut => by cases cut <;> rfl⟩

theorem Comes.call {answer : (c : C) → W → R c × W} {body : Workflow C R σ α} {w w' : W} {seen : σ}
    {c : C} {next : R c → Workflow C R σ α} (h : body.Comes answer w (.call seen c next) w') :
    body.Comes answer w (next (answer c w').1) (answer c w').2 := by
  obtain ⟨n, hn⟩ := h
  refine ⟨n + 1, fun cut => ?_⟩
  have hcut : cut.map (· + (n + 1)) = (cut.map (· + 1)).map (· + n) := by
    cases cut with
    | none => rfl
    | some m => exact congrArg some (show m + (n + 1) = m + 1 + n by omega)
  rw [hcut, hn]
  cases cut <;> rfl

end Workflow

/-- Runs jobs one after another, each up to a number of calls. -/
def serially (answer : (c : C) → W → R c × W) :
    List (Job C R σ α × Option Nat) → W → List (σ ⊕ α) × W
  | [], w => ([], w)
  | (job, cut) :: rest, w =>
    let r := job.body.upTo answer cut w
    let rs := serially answer rest r.2
    (r.1 :: rs.1, rs.2)

/-- What a job that is over leaves: its result, or what was seen of it when it was dropped. -/
def Stage.outcome? : Stage C R σ α → Option (σ ⊕ α)
  | .finished a => some (.inr a)
  | .dropped seen => some (.inl seen)
  | _ => none

/-- A job that is settled, or needs this key for a workflow that is seen in the same way before its
first call as while it waits. -/
def Job.Waits (key : String) : Job C R σ α → Prop
  | .settled _ => True
  | .locked k seen body => k = key ∧ ∃ c next, body = .call seen c next

/-- How far a job has brought the world: from one to another by the calls that it has made so far. -/
def Stage.Did (answer : (c : C) → W → R c × W) (job : Job C R σ α) :
    Stage C R σ α → W → W → Prop
  | .fresh job', w, w' => job' = job ∧ w' = w
  | .queued key seen body, w, w' => job = .locked key seen body ∧ w' = w
  | .calling _ seen _ c next, w, w' => job.body.Comes answer w (.call seen c next) w'
  | .finished a, w, w' => job.body.upTo answer none w = (.inr a, w')
  | .dropped seen, w, w' => ∃ n, job.body.upTo answer (some n) w = (.inl seen, w')

section Did

variable {v : Service C R W} {key : String} {job : Job C R σ α}

/-- A job that goes on makes its next calls. -/
theorem Workflow.goOn_did (i : Nat) {w : W} (body : Workflow C R σ α) (s : Shared C W)
    (h : job.body.Comes v.answer w body s.world) :
    (body.goOn v i key s).1.Did v.answer job w (body.goOn v i key s).2.world := by
  refine goOn_keeps v i key (K := fun b s => job.body.Comes v.answer w b s.world)
    (J := fun st s => st.Did v.answer job w s.world) ?_ ?_ ?_ body s h
  · rintro a s ⟨n, hn⟩
    exact hn none
  · exact fun seen c next left s _ hs => hs
  · exact fun seen c next s _ hs => hs.call

theorem upTo_zero_of_waits (hw : job.Waits key) {k : String} {seen : σ} {body : Workflow C R σ α}
    (hjob : job = .locked k seen body) (w : W) :
    job.body.upTo v.answer (some 0) w = (.inl seen, w) := by
  subst hjob
  obtain ⟨-, c, next, rfl⟩ := hw
  rfl

namespace Stage

theorem poll_did (i : Nat) {st : Stage C R σ α} {w : W} {s : Shared C W}
    (h : st.Did v.answer job w s.world) :
    (st.poll v i s).1.Did v.answer job w (st.poll v i s).2.world := by
  cases st with
  | fresh job' =>
    obtain ⟨rfl, hw⟩ := h
    cases job' with
    | settled a => simp only [poll, Did, Job.body, Workflow.upTo, hw]
    | locked k seen body =>
      simp only [poll]
      split
      · refine body.goOn_did i _ ?_
        rw [hw]
        exact .refl v.answer body w
      · exact ⟨rfl, hw⟩
  | queued k seen body =>
    obtain ⟨rfl, hw⟩ := h
    simp only [poll]
    split
    · refine body.goOn_did i _ ?_
      rw [hw]
      exact .refl v.answer body w
    · exact ⟨rfl, hw⟩
  | calling k seen left c next =>
    simp only [poll]
    split
    · exact (next _).goOn_did i _ (Workflow.Comes.call h)
    · exact h
  | finished a => exact h
  | dropped seen => exact h

theorem drop_did (hw : job.Waits key) (i : Nat) {st : Stage C R σ α} {w : W} {s : Shared C W}
    (h : st.Did v.answer job w s.world) :
    (st.drop i s).1.Did v.answer job w (st.drop i s).2.world := by
  cases st with
  | fresh job' =>
    obtain ⟨rfl, hs⟩ := h
    cases job' with
    | settled a => simp only [drop, Did, Job.body, Workflow.upTo, hs]
    | locked k seen body =>
      refine ⟨0, ?_⟩
      rw [upTo_zero_of_waits hw rfl]
      exact congrArg (Prod.mk (Sum.inl seen)) hs.symm
  | queued k seen body =>
    obtain ⟨hjob, hs⟩ := h
    refine ⟨0, ?_⟩
    rw [upTo_zero_of_waits hw hjob]
    exact congrArg (Prod.mk (Sum.inl seen)) hs.symm
  | calling k seen left c next =>
    obtain ⟨n, hn⟩ := h
    have hcut := hn (some 0)
    rw [Option.map_some, Nat.zero_add] at hcut
    exact ⟨n, hcut⟩
  | finished a => exact h
  | dropped seen => exact h

/-- A job that has not begun, or is over without a call, leaves every world as it is. -/
def Idle (answer : (c : C) → W → R c × W) (job : Job C R σ α) (st : Stage C R σ α) : Prop :=
  ∀ w, st.Did answer job w w

/-- Nothing was done yet, or a result was settled. -/
theorem idle_of_settled {a : α} (hjob : job = .settled a) :
    (Stage.finished a : Stage C R σ α).Idle v.answer job := by
  subst hjob
  exact fun w => rfl

theorem idle_of_dropped (hw : job.Waits key) {k : String} {seen : σ} {body : Workflow C R σ α}
    (hjob : job = .locked k seen body) : (Stage.dropped seen).Idle v.answer job :=
  fun w => ⟨0, upTo_zero_of_waits hw hjob w⟩

end Stage

end Did

/-! ### Behind another job in the line -/

namespace Stage

variable {v : Service C R W} {job : Job C R σ α} {use : Nat → Use} {i k : Nat} {key : String}
  {s : Shared C W}

/-- A job that goes on leaves the line or stays in it. -/
private theorem line_goOn_sublist (v : Service C R W) (body : Workflow C R σ α) {k : String}
    (hh : s.locks.holds i k = true) (key : String) :
    ((body.goOn v i k s).2.locks.line key).Sublist (s.locks.line key) := by
  refine Workflow.goOn_keeps v i k (K := fun _ t => t.locks = s.locks)
    (J := fun _ t => (t.locks.line key).Sublist (s.locks.line key)) ?_ ?_ ?_ body s rfl
  · intro a t ht
    rw [ht, KeyedLocks.line_release hh]
    split
    next hk =>
      rw [hk]
      exact List.tail_sublist _
    next => exact .refl _
  · intro seen c next left t _ ht
    rw [Shared.note_locks, ht]
  · intro seen c next t _ ht
    rwa [Shared.act_locks, Shared.note_locks]

/-- With a poll a job comes to the end of the line, if it was not polled before, or leaves it. -/
theorem line_poll_sublist (v : Service C R W) (st : Stage C R σ α) (hf : s.locks.Fits use)
    (hi : use i = st.use) (key : String) :
    ((st.poll v i s).2.locks.line key).Sublist
      (if st.isFresh = true then s.locks.line key ++ [i] else s.locks.line key) := by
  cases st with
  | fresh job =>
    cases job with
    | settled a => exact List.sublist_append_left _ _
    | locked k seen body =>
      have hline : ((s.locks.lock i k).line key).Sublist (s.locks.line key ++ [i]) := by
        rw [KeyedLocks.line_lock hf.sound]
        split
        next hk => rw [hk]
        next => exact List.sublist_append_left _ _
      simp only [poll]
      split
      next hh => exact (line_goOn_sublist v body hh key).trans hline
      next => exact hline
  | queued k seen body =>
    have hline : (s.locks.poll i k).line key = s.locks.line key := KeyedLocks.line_poll _ i k key
    simp only [poll]
    split
    next hh =>
      have hsub := line_goOn_sublist (s := { s with locks := s.locks.poll i k }) v body hh key
      rwa [hline] at hsub
    next => exact hline ▸ .refl _
  | calling k seen left c next =>
    simp only [poll]
    split
    · exact line_goOn_sublist (s := (s.act v i c).2) v _ ((hf.holds_iff i k).2 hi) key
    · exact .refl _
  | finished a => exact .refl _
  | dropped seen => exact .refl _

theorem line_drop_sublist (st : Stage C R σ α) (hf : s.locks.Fits use) (hi : use i = st.use)
    (key : String) : ((st.drop i s).2.locks.line key).Sublist (s.locks.line key) := by
  cases st with
  | fresh job => cases job <;> exact .refl _
  | queued k seen body =>
    have hni : ¬ s.locks.holds i k = true := by
      rw [hf.holds_iff, hi]
      exact nofun
    simp only [drop]
    rw [KeyedLocks.line_abandon (hf.nodup k) hni]
    split
    next hk =>
      rw [hk]
      exact List.filter_sublist
    next => exact .refl _
  | calling k seen left c next =>
    simp only [drop]
    rw [KeyedLocks.line_release ((hf.holds_iff i k).2 hi)]
    split
    next hk =>
      rw [hk]
      exact List.tail_sublist _
    next => exact .refl _
  | finished a => exact .refl _
  | dropped seen => exact .refl _

/-- A job behind another in a sorted line does not hold the key. -/
theorem use_ne_of_behind (hf : s.locks.Fits use) (hsorted : (s.locks.line key).Pairwise (· < ·))
    (hk : k ∈ s.locks.line key) (hki : k < i) : use i ≠ .holding key := by
  intro hi
  obtain ⟨rest, hrest⟩ := hf.line_of_holding hi
  rw [hrest] at hk hsorted
  rcases List.mem_cons.1 hk with rfl | hk
  · exact Nat.lt_irrefl k hki
  · exact absurd ((List.pairwise_cons.1 hsorted).1 k hk) (by omega)

/-- A poll of a job behind another in the line makes no calls. -/
theorem poll_behind {st : Stage C R σ α} (hf : s.locks.Fits use) (hi : use i = st.use)
    (hsorted : (s.locks.line key).Pairwise (· < ·)) (hk : k ∈ s.locks.line key) (hki : k < i)
    (hneeds : ∀ k', st.needs = some k' → some key = some k') (hover : st.isOver = false) {w : W}
    (hdid : st.Did v.answer job w s.world) :
    (st.poll v i s).2.world = s.world ∧ (st.poll v i s).1.Idle v.answer job := by
  cases st with
  | fresh job' =>
    obtain ⟨rfl, -⟩ := hdid
    cases job' with
    | settled a => exact ⟨rfl, idle_of_settled rfl⟩
    | locked k' seen body =>
      cases hneeds k' rfl
      have hnot : ¬ (s.locks.lock i key).holds i key = true := by
        rw [KeyedLocks.holds_lock hf.sound]
        rintro (hh | ⟨-, -, hnil⟩)
        · rw [hf.holds_iff, hi] at hh
          cases hh
        · rw [hnil] at hk
          cases hk
      simp only [poll]
      rw [if_neg hnot]
      exact ⟨rfl, fun w => ⟨rfl, rfl⟩⟩
  | queued k' seen body =>
    cases hneeds k' rfl
    have hnot : ¬ (s.locks.poll i key).holds i key = true := by
      intro hh
      have hfits := hf.poll hi
      have hpolled : KeyedLocks.Fits.polled (s.locks.poll i key) i key = .holding key := if_pos hh
      rw [hpolled] at hfits
      refine use_ne_of_behind (s := { s with locks := s.locks.poll i key }) hfits
        ?_ ?_ hki (Function.update_self ..)
      · rwa [KeyedLocks.line_poll]
      · rwa [KeyedLocks.line_poll]
    simp only [poll]
    rw [if_neg hnot]
    exact ⟨rfl, fun w => ⟨hdid.1, rfl⟩⟩
  | calling k' seen left c next =>
    cases hneeds k' rfl
    exact absurd hi (use_ne_of_behind hf hsorted hk hki)
  | finished a => cases hover
  | dropped seen => cases hover

/-- A job behind another in the line is dropped before it makes calls. -/
theorem drop_behind {st : Stage C R σ α} (hw : job.Waits key) (hf : s.locks.Fits use)
    (hi : use i = st.use) (hsorted : (s.locks.line key).Pairwise (· < ·))
    (hk : k ∈ s.locks.line key) (hki : k < i)
    (hneeds : ∀ k', st.needs = some k' → some key = some k') (hover : st.isOver = false) {w : W}
    (hdid : st.Did v.answer job w s.world) :
    (st.drop i s).2.world = s.world ∧ (st.drop i s).1.Idle v.answer job := by
  cases st with
  | fresh job' =>
    obtain ⟨rfl, -⟩ := hdid
    cases job' with
    | settled a => exact ⟨rfl, idle_of_settled rfl⟩
    | locked k' seen body => exact ⟨rfl, idle_of_dropped hw rfl⟩
  | queued k' seen body => exact ⟨rfl, idle_of_dropped hw hdid.1⟩
  | calling k' seen left c next =>
    cases hneeds k' rfl
    exact absurd hi (use_ne_of_behind hf hsorted hk hki)
  | finished a => cases hover
  | dropped seen => cases hover

end Stage

end Oncall
