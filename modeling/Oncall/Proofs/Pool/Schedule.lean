import Oncall.Rounds

/-! Concurrent jobs under any schedule. A pool is the stages of the jobs with all that they share, an
action marks a round or polls or drops one job, and a run is a list of actions. The rounds of the
polling loop are one such list, so what holds of every run holds of the loop. Rules for a single poll
stand beside it: what a job that holds its lock does until it has to wait is an induction over its
workflow, stated once. -/

namespace Oncall

variable {C : Type} {R : C → Type} {σ α W : Type}

namespace Shared

variable (v : Service C R W) (s : Shared C W) (i : Nat) (c : C) (e : Event C)

@[simp] theorem note_locks : (s.note e).locks = s.locks := rfl

@[simp] theorem note_world : (s.note e).world = s.world := rfl

@[simp] theorem note_log : (s.note e).log = s.log ++ [e] := rfl

@[simp] theorem act_reply : (s.act v i c).1 = (v.answer c s.world).1 := rfl

@[simp] theorem act_locks : (s.act v i c).2.locks = s.locks := rfl

@[simp] theorem act_world : (s.act v i c).2.world = (v.answer c s.world).2 := rfl

@[simp] theorem act_log : (s.act v i c).2.log = s.log ++ [.finish i c] := rfl

end Shared

/-- A workflow that runs alone keeps what each call keeps. -/
theorem Workflow.run_keeps {answer : (c : C) → W → R c × W} {I : W → Prop}
    (hcall : ∀ c w, I w → I (answer c w).2) (body : Workflow C R σ α) {w : W} (h : I w) :
    I (body.run answer w).2 := by
  induction body generalizing w with
  | done a => exact h
  | call seen c next ih => exact ih _ (hcall c w h)

/-- What a job with its lock does until it waits: `K` holds of what is left of its workflow and of
what is shared as long as it goes on, and `J` of the stage it comes to. -/
theorem Workflow.goOn_keeps (v : Service C R W) (i : Nat) (key : String)
    {K : Workflow C R σ α → Shared C W → Prop} {J : Stage C R σ α → Shared C W → Prop}
    (hdone : ∀ a s, K (.done a) s → J (.finished a) { s with locks := s.locks.release key })
    (hstart : ∀ seen c next left s, v.delay c = left + 1 → K (.call seen c next) s →
      J (.calling key seen (left + 1) c next) (s.note (.start i c)))
    (hcall : ∀ seen c next s, v.delay c = 0 → K (.call seen c next) s →
      K (next (v.answer c s.world).1) ((s.note (.start i c)).act v i c).2)
    (body : Workflow C R σ α) (s : Shared C W) (h : K body s) :
    J (body.goOn v i key s).1 (body.goOn v i key s).2 := by
  induction body generalizing s with
  | done a => exact hdone a s h
  | call seen c next ih =>
    unfold Workflow.goOn
    split
    next h0 => exact ih _ _ (hcall seen c next s h0 h)
    next left hl => exact hstart seen c next left s hl h

namespace Stage

theorem poll_of_isOver {st : Stage C R σ α} (h : st.isOver = true) (v : Service C R W) (i : Nat)
    (s : Shared C W) : st.poll v i s = (st, s) := by
  cases st with
  | finished a => rfl
  | dropped seen => rfl
  | _ => simp [isOver] at h

theorem drop_of_isOver {st : Stage C R σ α} (h : st.isOver = true) (i : Nat) (s : Shared C W) :
    st.drop i s = (st, s) := by
  cases st with
  | finished a => rfl
  | dropped seen => rfl
  | _ => simp [isOver] at h

end Stage

/-- The jobs and all that they share. -/
structure Pool (C : Type) (R : C → Type) (σ α W : Type) where
  stages : List (Stage C R σ α)
  shared : Shared C W

inductive Action where
  | mark (round : Nat)
  | poll (job : Nat)
  | drop (job : Nat)
  deriving DecidableEq, Repr

namespace Pool

/-- Changes the stage of one job along with what is shared; other numbers name no job. -/
def onJob (p : Pool C R σ α W) (i : Nat)
    (f : Stage C R σ α → Shared C W → Stage C R σ α × Shared C W) : Pool C R σ α W :=
  match p.stages[i]? with
  | some st => ⟨p.stages.set i (f st p.shared).1, (f st p.shared).2⟩
  | none => p

def act (v : Service C R W) (p : Pool C R σ α W) : Action → Pool C R σ α W
  | .mark n => { p with shared := p.shared.note (.round n) }
  | .poll i => p.onJob i (Stage.poll v i)
  | .drop i => p.onJob i (Stage.drop i)

def run (v : Service C R W) (as : List Action) (p : Pool C R σ α W) : Pool C R σ α W :=
  as.foldl (act v) p

def IsOver (p : Pool C R σ α W) : Prop := ∀ st ∈ p.stages, st.isOver = true

/-- Jobs that have not been polled yet. -/
def start (jobs : List (Job C R σ α)) (w : W) : Pool C R σ α W := ⟨jobs.map .fresh, ⟨[], w, []⟩⟩

@[simp] theorem run_nil (v : Service C R W) (p : Pool C R σ α W) : run v [] p = p := rfl

@[simp] theorem run_cons (v : Service C R W) (a : Action) (as : List Action)
    (p : Pool C R σ α W) : run v (a :: as) p = run v as (p.act v a) := rfl

theorem run_append (v : Service C R W) (as bs : List Action) (p : Pool C R σ α W) :
    run v (as ++ bs) p = run v bs (run v as p) := List.foldl_append

theorem onJob_of_get {p : Pool C R σ α W} {i : Nat} {st : Stage C R σ α}
    (h : p.stages[i]? = some st)
    (f : Stage C R σ α → Shared C W → Stage C R σ α × Shared C W) :
    p.onJob i f = ⟨p.stages.set i (f st p.shared).1, (f st p.shared).2⟩ := by
  simp [onJob, h]

theorem onJob_of_none {p : Pool C R σ α W} {i : Nat} (h : p.stages[i]? = none)
    (f : Stage C R σ α → Shared C W → Stage C R σ α × Shared C W) : p.onJob i f = p := by
  simp [onJob, h]

/-- After a change of one job, a stage is the new one or that of another job. -/
theorem get_set_cases {stages : List (Stage C R σ α)} {i j : Nat} {st u : Stage C R σ α}
    (h : (stages.set i st)[j]? = some u) : (j = i ∧ u = st) ∨ (j ≠ i ∧ stages[j]? = some u) := by
  by_cases hij : i = j
  · subst hij
    rw [List.getElem?_set] at h
    split at h
    · split at h
      · exact Or.inl ⟨rfl, (Option.some.inj h).symm⟩
      · cases h
    · exact absurd rfl ‹_›
  · rw [List.getElem?_set_ne hij] at h
    exact Or.inr ⟨Ne.symm hij, h⟩

/-- A change of one job keeps what the changes of its stage keep. -/
theorem onJob_keeps {I : Pool C R σ α W → Prop} {p : Pool C R σ α W} {i : Nat}
    {f : Stage C R σ α → Shared C W → Stage C R σ α × Shared C W}
    (hf : ∀ st, p.stages[i]? = some st → I ⟨p.stages.set i (f st p.shared).1, (f st p.shared).2⟩)
    (h : I p) : I (p.onJob i f) := by
  cases hi : p.stages[i]? with
  | none => rwa [onJob_of_none hi]
  | some st =>
    rw [onJob_of_get hi]
    exact hf st hi

theorem onJob_of_same {p : Pool C R σ α W} {i : Nat} {st : Stage C R σ α}
    (h : p.stages[i]? = some st) {f : Stage C R σ α → Shared C W → Stage C R σ α × Shared C W}
    (hf : f st p.shared = (st, p.shared)) : p.onJob i f = p := by
  obtain ⟨hi, rfl⟩ := List.getElem?_eq_some_iff.1 h
  rw [onJob_of_get h, hf, List.set_getElem_self hi]

/-- A run keeps what each of its actions keeps. -/
theorem run_keeps (v : Service C R W) {I : Pool C R σ α W → Prop} {as : List Action}
    (hact : ∀ p, ∀ a ∈ as, I p → I (p.act v a)) {p : Pool C R σ α W} (h : I p) :
    I (run v as p) := by
  induction as generalizing p with
  | nil => exact h
  | cons a as ih =>
    rw [run_cons]
    exact ih (fun q b hb => hact q b (List.mem_cons_of_mem a hb))
      (hact p a List.mem_cons_self h)

@[simp] theorem length_act (v : Service C R W) (p : Pool C R σ α W) (a : Action) :
    (p.act v a).stages.length = p.stages.length := by
  cases a with
  | mark n => rfl
  | poll i => exact onJob_keeps (I := fun q => q.stages.length = p.stages.length) (by simp) rfl
  | drop i => exact onJob_keeps (I := fun q => q.stages.length = p.stages.length) (by simp) rfl

theorem length_run (v : Service C R W) (as : List Action) (p : Pool C R σ α W) :
    (run v as p).stages.length = p.stages.length :=
  run_keeps v (I := fun q => q.stages.length = p.stages.length)
    (fun q a _ h => (length_act v q a).trans h) rfl

/-! ### The polling loop as a run -/

/-- The turns of round `n` for the jobs numbered from `i` on, each given by the round after whose
poll it is dropped. -/
def turnActions (n : Nat) : Nat → List (Option Nat) → List Action
  | _, [] => []
  | i, d :: ds =>
    (if d = some n then [.poll i, .drop i] else [.poll i]) ++ turnActions n (i + 1) ds

def roundActions (ds : List (Option Nat)) (n : Nat) : List Action := .mark n :: turnActions n 0 ds

/-- A number of rounds, counted from `n`. -/
def roundsActions (ds : List (Option Nat)) : Nat → Nat → List Action
  | _, 0 => []
  | n, k + 1 => roundActions ds n ++ roundsActions ds (n + 1) k

/-- The job of every action of a turn is one of those whose turn it is. -/
theorem job_of_mem_turnActions {n i : Nat} {ds : List (Option Nat)} {a : Action}
    (h : a ∈ turnActions n i ds) : ∃ j, (a = .poll j ∨ a = .drop j) ∧ i ≤ j ∧ j < i + ds.length := by
  induction ds generalizing i with
  | nil => simp [turnActions] at h
  | cons d ds ih =>
    rw [turnActions, List.mem_append] at h
    rcases h with h | h
    · refine ⟨i, ?_, Nat.le_refl i, by simp⟩
      split at h
      · simpa using h
      · exact Or.inl (by simpa using h)
    · obtain ⟨j, hj, h1, h2⟩ := ih h
      exact ⟨j, hj, by omega, by rw [List.length_cons]; omega⟩

/-- Every job has its poll in a round. -/
theorem poll_mem_turnActions {n i j : Nat} {ds : List (Option Nat)} (h1 : i ≤ j)
    (h2 : j < i + ds.length) : Action.poll j ∈ turnActions n i ds := by
  induction ds generalizing i with
  | nil => simp at h2; omega
  | cons d ds ih =>
    rw [turnActions, List.mem_append]
    by_cases h : i = j
    · left
      subst h
      split <;> simp
    · right
      exact ih (by omega) (by rw [List.length_cons] at h2; omega)

theorem drop_mem_turnActions {n i j : Nat} {ds : List (Option Nat)}
    (h : .drop j ∈ turnActions n i ds) : ∃ k, j = i + k ∧ ds[k]? = some (some n) := by
  induction ds generalizing i with
  | nil => cases h
  | cons d ds ih =>
    rw [turnActions, List.mem_append] at h
    rcases h with h | h
    · split at h
      next hd =>
        refine ⟨0, ?_, by rw [hd]; rfl⟩
        simpa using h
      next => simp at h
    · obtain ⟨k, rfl, hk⟩ := ih h
      exact ⟨k + 1, by omega, hk⟩

/-- Only a job that is to be dropped is dropped. -/
theorem drop_mem_roundsActions {n k j : Nat} {ds : List (Option Nat)}
    (h : .drop j ∈ roundsActions ds n k) : ∃ m, ds[j]? = some (some m) := by
  induction k generalizing n with
  | zero => cases h
  | succ k ih =>
    rw [roundsActions, roundActions, List.cons_append, List.mem_cons, List.mem_append] at h
    rcases h with h | h | h
    · cases h
    · obtain ⟨i, rfl, hi⟩ := drop_mem_turnActions h
      exact ⟨n, by rwa [Nat.zero_add]⟩
    · exact ih h

private theorem onJob_middle (before after : List (Stage C R σ α)) (st : Stage C R σ α)
    (s : Shared C W) (f : Stage C R σ α → Shared C W → Stage C R σ α × Shared C W) :
    onJob ⟨before ++ st :: after, s⟩ before.length f =
      ⟨before ++ (f st s).1 :: after, (f st s).2⟩ := by
  rw [onJob_of_get (show (before ++ st :: after)[before.length]? = some st by simp)]
  simp

private theorem run_turn (v : Service C R W) (n : Nat) (before after : List (Stage C R σ α))
    (m : Member C R σ α) (s : Shared C W) :
    run v (if m.dropAfter = some n then [.poll before.length, .drop before.length]
      else [.poll before.length]) ⟨before ++ m.stage :: after, s⟩ =
      ⟨before ++ (m.turn v n before.length s).1.stage :: after,
        (m.turn v n before.length s).2⟩ := by
  unfold Member.turn
  split
  · simp [act, onJob_middle]
  · simp [act, onJob_middle]

theorem map_dropAfter_turns (v : Service C R W) (n i : Nat) (ms : List (Member C R σ α))
    (s : Shared C W) :
    (turns v n i ms s).1.map Member.dropAfter = ms.map Member.dropAfter := by
  induction ms generalizing i s with
  | nil => rfl
  | cons m ms ih => simp only [turns, Member.turn, List.map_cons, ih]

/-- The turns of a round are a run. -/
theorem run_turnActions (v : Service C R W) (n : Nat) (before : List (Stage C R σ α))
    (ms : List (Member C R σ α)) (s : Shared C W) :
    run v (turnActions n before.length (ms.map Member.dropAfter))
        ⟨before ++ ms.map Member.stage, s⟩ =
      ⟨before ++ (turns v n before.length ms s).1.map Member.stage,
        (turns v n before.length ms s).2⟩ := by
  induction ms generalizing before s with
  | nil => rfl
  | cons m ms ih =>
    have hb := ih (before ++ [(m.turn v n before.length s).1.stage])
      (m.turn v n before.length s).2
    rw [List.length_append, List.length_singleton, List.append_assoc, List.append_assoc] at hb
    rw [List.map_cons, List.map_cons, turnActions, run_append, run_turn]
    exact hb

/-- The polling loop is a run of rounds, which stops when its fuel is spent or all jobs are over. -/
theorem rounds_eq_run (v : Service C R W) (fuel n : Nat) (ms : List (Member C R σ α))
    (s : Shared C W) :
    ∃ k ≤ fuel,
      run v (roundsActions (ms.map Member.dropAfter) n k) ⟨ms.map Member.stage, s⟩ =
        ⟨(rounds v fuel n ms s).1.map Member.stage, (rounds v fuel n ms s).2⟩ ∧
      (k = fuel ∨ IsOver (run v (roundsActions (ms.map Member.dropAfter) n k)
        ⟨ms.map Member.stage, s⟩)) := by
  induction fuel generalizing n ms s with
  | zero => exact ⟨0, Nat.le_refl 0, rfl, Or.inl rfl⟩
  | succ fuel ih =>
    unfold rounds
    split
    next hover =>
      refine ⟨0, Nat.zero_le _, rfl, Or.inr ?_⟩
      simpa [IsOver, roundsActions] using hover
    next =>
      obtain ⟨k, hk, hrun, hend⟩ := ih (n + 1) (turns v n 0 ms (s.note (.round n))).1
        (turns v n 0 ms (s.note (.round n))).2
      have hround : run v (roundActions (ms.map Member.dropAfter) n) ⟨ms.map Member.stage, s⟩ =
          ⟨(turns v n 0 ms (s.note (.round n))).1.map Member.stage,
            (turns v n 0 ms (s.note (.round n))).2⟩ :=
        run_turnActions v n [] ms (s.note (.round n))
      rw [map_dropAfter_turns] at hrun hend
      refine ⟨k + 1, Nat.succ_le_succ hk, ?_, ?_⟩
      · rw [roundsActions, run_append, hround]
        exact hrun
      · rw [roundsActions, run_append, hround]
        rcases hend with h | h
        · exact Or.inl (by rw [h])
        · exact Or.inr h

end Pool

end Oncall
