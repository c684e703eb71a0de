import Oncall.Proofs.Pool.Guarantee
import Oncall.Proofs.Pool.Log

/-! Notes of what the jobs of a run do. Each call may leave notes, which are kept beside the world under
the number of the job that made it. Taking notes changes nothing else, so what is proved of a world
with notes holds of the run without them; notes are only added, and only by jobs that have had their
lock. -/

namespace Oncall

variable {C : Type} {R : C → Type} {σ α W D : Type}

/-- A world with notes of who did what in it, first come first. -/
abbrev Noted (W D : Type) := W × List (Nat × D)

/-- What a call notes, given its reply and the world it was made in. -/
abbrev Noting (C : Type) (R : C → Type) (W D : Type) := (c : C) → R c → W → List D

/-- Answers the calls of a job and takes notes. -/
def Service.noting (v : Service C R W) (note : Noting C R W D) (job : Nat) :
    Service C R (Noted W D) where
  answer c s := ((v.answer c s.1).1, (v.answer c s.1).2,
    s.2 ++ (note c (v.answer c s.1).1 s.1).map (job, ·))
  delay := v.delay

/-- The job that an action is about; a mark is about none and its number does not matter. -/
def Action.job : Action → Nat
  | .mark _ => 0
  | .poll i | .drop i => i

/-- What is shared without the notes. -/
def Shared.plain (s : Shared C (Noted W D)) : Shared C W := ⟨s.locks, s.world.1, s.log⟩

namespace Pool

/-- A run in which each job has a service of its own. -/
def runEach (v : Nat → Service C R W) (as : List Action) (p : Pool C R σ α W) : Pool C R σ α W :=
  as.foldl (fun p a => p.act (v a.job) a) p

@[simp] theorem runEach_cons (v : Nat → Service C R W) (a : Action) (as : List Action)
    (p : Pool C R σ α W) : runEach v (a :: as) p = runEach v as (p.act (v a.job) a) := rfl

theorem runEach_append (v : Nat → Service C R W) (as bs : List Action) (p : Pool C R σ α W) :
    runEach v (as ++ bs) p = runEach v bs (runEach v as p) := List.foldl_append

/-- Such a run keeps what each of its actions keeps. -/
theorem runEach_keeps (v : Nat → Service C R W) {I : Pool C R σ α W → Prop} {as : List Action}
    (hact : ∀ p, ∀ a ∈ as, I p → I (p.act (v a.job) a)) {p : Pool C R σ α W} (h : I p) :
    I (runEach v as p) := by
  induction as generalizing p with
  | nil => exact h
  | cons a as ih =>
    exact ih (fun q b hb => hact q b (List.mem_cons_of_mem a hb)) (hact p a List.mem_cons_self h)

def plain (p : Pool C R σ α (Noted W D)) : Pool C R σ α W := ⟨p.stages, p.shared.plain⟩

/-- The pool with an empty list of notes. -/
def unnoted (p : Pool C R σ α W) : Pool C R σ α (Noted W D) :=
  ⟨p.stages, p.shared.locks, (p.shared.world, []), p.shared.log⟩

/-- The notes of a run. -/
def notes (v : Service C R W) (note : Noting C R W D) (as : List Action) (p : Pool C R σ α W) :
    List (Nat × D) :=
  (runEach (v.noting note) as p.unnoted).shared.world.2

end Pool

/-! ### Notes are not seen -/

section Plain

variable (v : Service C R W) (note : Noting C R W D) (i : Nat)

theorem Workflow.goOn_plain (key : String) (body : Workflow C R σ α) (s : Shared C (Noted W D)) :
    (body.goOn (v.noting note i) i key s).map id Shared.plain = body.goOn v i key s.plain := by
  induction body generalizing s with
  | done a => rfl
  | call seen c next ih =>
    unfold Workflow.goOn
    have hdelay : (v.noting note i).delay c = v.delay c := rfl
    rw [hdelay]
    cases v.delay c with
    | zero => exact ih _ _
    | succ left => rfl

theorem Stage.poll_plain (st : Stage C R σ α) (s : Shared C (Noted W D)) :
    (st.poll (v.noting note i) i s).map id Shared.plain = st.poll v i s.plain := by
  cases st with
  | fresh job =>
    cases job with
    | settled a => rfl
    | locked key seen body =>
      have hbody := body.goOn_plain v note i key { s with locks := s.locks.lock i key }
      simp only [poll, Shared.plain] at hbody ⊢
      by_cases hh : (s.locks.lock i key).holds i key = true
      · simpa only [hh, if_true] using hbody
      · simp only [hh]
        rfl
  | queued key seen body =>
    have hbody := body.goOn_plain v note i key { s with locks := s.locks.poll i key }
    simp only [poll, Shared.plain] at hbody ⊢
    by_cases hh : (s.locks.poll i key).holds i key = true
    · simpa only [hh, if_true] using hbody
    · simp only [hh]
      rfl
  | calling key seen left c next =>
    simp only [poll]
    split
    · exact (next _).goOn_plain v note i key _
    · rfl
  | finished a => rfl
  | dropped seen => rfl

theorem Stage.drop_plain (st : Stage C R σ α) (s : Shared C (Noted W D)) :
    (st.drop i s).map id Shared.plain = st.drop i s.plain := by
  cases st with
  | fresh job => cases job <;> rfl
  | _ => rfl

end Plain

namespace Pool

variable (v : Service C R W) (note : Noting C R W D)

theorem onJob_plain (p : Pool C R σ α (Noted W D)) (i : Nat)
    {f : Stage C R σ α → Shared C (Noted W D) → Stage C R σ α × Shared C (Noted W D)}
    {g : Stage C R σ α → Shared C W → Stage C R σ α × Shared C W}
    (h : ∀ st, (f st p.shared).map id Shared.plain = g st p.shared.plain) :
    (p.onJob i f).plain = p.plain.onJob i g := by
  cases hi : p.stages[i]? with
  | none => rw [onJob_of_none hi, onJob_of_none (p := p.plain) hi]
  | some st =>
    rw [onJob_of_get hi, onJob_of_get (p := p.plain) hi]
    show _ = Pool.mk (p.stages.set i (g st p.shared.plain).1) (g st p.shared.plain).2
    rw [← h st]
    rfl

theorem act_plain (p : Pool C R σ α (Noted W D)) (a : Action) :
    (p.act (v.noting note a.job) a).plain = p.plain.act v a := by
  cases a with
  | mark n => rfl
  | poll i => exact onJob_plain p i fun st => st.poll_plain v note i p.shared
  | drop i => exact onJob_plain p i fun st => st.drop_plain i p.shared

/-- Without its notes, a run with notes is the run. -/
theorem runEach_plain (as : List Action) (p : Pool C R σ α (Noted W D)) :
    (runEach (v.noting note) as p).plain = run v as p.plain := by
  induction as generalizing p with
  | nil => rfl
  | cons a as ih => rw [runEach_cons, run_cons, ih, act_plain]

/-- Jobs come as far with notes as without. -/
theorem stages_noting (as : List Action) (p : Pool C R σ α W) :
    (runEach (v.noting note) as p.unnoted).stages = (run v as p).stages :=
  congrArg Pool.stages (runEach_plain v note as p.unnoted)

theorem world_noting (as : List Action) (p : Pool C R σ α W) :
    (runEach (v.noting note) as p.unnoted).shared.world.1 = (run v as p).shared.world :=
  congrArg (fun q : Pool C R σ α W => q.shared.world) (runEach_plain v note as p.unnoted)

end Pool

/-! ### Notes are only added -/

/-- A job has added notes of its own. -/
def Adds (i : Nat) (notes notes' : List (Nat × D)) : Prop :=
  ∃ new, notes' = notes ++ new ∧ ∀ x ∈ new, x.1 = i

theorem Adds.refl (i : Nat) (notes : List (Nat × D)) : Adds i notes notes :=
  ⟨[], (List.append_nil notes).symm, fun _ h => absurd h List.not_mem_nil⟩

section Adds

variable (v : Service C R W) (note : Noting C R W D) (i : Nat) {notes : List (Nat × D)}

theorem Adds.answer {s : Noted W D} (h : Adds i notes s.2) (c : C) :
    Adds i notes ((v.noting note i).answer c s).2.2 := by
  obtain ⟨new, hs, hnew⟩ := h
  refine ⟨new ++ (note c (v.answer c s.1).1 s.1).map (i, ·), ?_, fun x hx => ?_⟩
  · rw [← List.append_assoc, ← hs]
    rfl
  · rcases List.mem_append.1 hx with hx | hx
    · exact hnew x hx
    · obtain ⟨d, -, rfl⟩ := List.mem_map.1 hx
      rfl

theorem Workflow.goOn_adds (key : String) (body : Workflow C R σ α) (s : Shared C (Noted W D))
    (h : Adds i notes s.world.2) :
    Adds i notes (body.goOn (v.noting note i) i key s).2.world.2 :=
  goOn_keeps (v.noting note i) i key (K := fun _ s => Adds i notes s.world.2)
    (J := fun _ s => Adds i notes s.world.2) (fun _ _ hs => hs) (fun _ _ _ _ _ _ hs => hs)
    (fun _ c _ _ _ hs => hs.answer v note i c) body s h

/-- A poll adds notes of its own job, and none unless the job has begun. -/
theorem Stage.poll_adds (st : Stage C R σ α) (s : Shared C (Noted W D)) :
    Adds i s.world.2 (st.poll (v.noting note i) i s).2.world.2 ∧
      ((st.poll (v.noting note i) i s).2.world = s.world ∨
        (st.poll (v.noting note i) i s).1.begun = true) := by
  have hsame : Adds i s.world.2 s.world.2 := .refl i s.world.2
  cases st with
  | fresh job =>
    cases job with
    | settled a => exact ⟨hsame, .inl rfl⟩
    | locked key seen body =>
      simp only [poll]
      split
      · exact ⟨body.goOn_adds v note i key _ hsame, .inr (body.goOn_logs _ i key _ (.refl i _)).2⟩
      · exact ⟨hsame, .inl rfl⟩
  | queued key seen body =>
    simp only [poll]
    split
    · exact ⟨body.goOn_adds v note i key _ hsame, .inr (body.goOn_logs _ i key _ (.refl i _)).2⟩
    · exact ⟨hsame, .inl rfl⟩
  | calling key seen left c next =>
    refine ⟨?_, .inr (begun_poll rfl _ i s)⟩
    simp only [poll]
    split
    · exact (next _).goOn_adds v note i key _ (hsame.answer v note i c)
    · exact hsame
  | finished a => exact ⟨hsame, .inl rfl⟩
  | dropped seen => exact ⟨hsame, .inl rfl⟩

end Adds

namespace Pool

variable {v : Service C R W} {note : Noting C R W D}

theorem notes_act (p : Pool C R σ α (Noted W D)) (a : Action) :
    p.shared.world.2 <+: (p.act (v.noting note a.job) a).shared.world.2 := by
  have hkeeps : ∀ {i : Nat} {f : Stage C R σ α → Shared C (Noted W D) →
      Stage C R σ α × Shared C (Noted W D)},
      (∀ st, p.shared.world.2 <+: (f st p.shared).2.world.2) →
      p.shared.world.2 <+: (p.onJob i f).shared.world.2 := fun h =>
    onJob_keeps (I := fun q : Pool C R σ α (Noted W D) => p.shared.world.2 <+: q.shared.world.2)
      (fun st _ => h st) (List.prefix_refl _)
  cases a with
  | mark n => exact List.prefix_refl _
  | poll i =>
    refine hkeeps fun st => ?_
    obtain ⟨⟨new, hnew, -⟩, -⟩ := st.poll_adds v note i p.shared
    exact ⟨new, hnew.symm⟩
  | drop i => exact hkeeps fun st => ⟨[], by rw [st.world_drop, List.append_nil]⟩

/-- A longer run has taken the notes of the shorter one first. -/
theorem notes_mono (as bs : List Action) (p : Pool C R σ α W) :
    notes v note as p <+: notes v note (as ++ bs) p := by
  rw [notes, notes, runEach_append]
  exact runEach_keeps (v.noting note)
    (I := fun q => (runEach (v.noting note) as p.unnoted).shared.world.2 <+: q.shared.world.2)
    (fun q a _ h => h.trans (notes_act q a)) (List.prefix_refl _)

/-- The notes of a job are those of a job that has begun. -/
def Begins (p : Pool C R σ α (Noted W D)) : Prop :=
  ∀ (i : Nat) (st : Stage C R σ α), p.stages[i]? = some st → ∀ x ∈ p.shared.world.2, x.1 = i →
    st.begun = true

theorem Begins.act {p : Pool C R σ α (Noted W D)} (h : p.Begins) (a : Action) :
    (p.act (v.noting note a.job) a).Begins := by
  cases a with
  | mark n => exact h
  | poll i =>
    refine onJob_keeps (fun st hst => ?_) h
    obtain ⟨⟨new, hnotes, hnew⟩, hbegun⟩ := st.poll_adds v note i p.shared
    intro j u hu x hx hj
    rcases get_set_cases hu with ⟨rfl, rfl⟩ | ⟨hji, hu⟩
    · rcases hbegun with hsame | hbegun
      · simp only [Action.job, hsame] at hx
        exact Stage.begun_poll (h j st hst x hx hj) _ j p.shared
      · exact hbegun
    · simp only [Action.job, hnotes] at hx
      rcases List.mem_append.1 hx with hx | hx
      · exact h j u hu x hx hj
      · exact absurd (hj.symm.trans (hnew x hx)) hji
  | drop i =>
    refine onJob_keeps (fun st hst => ?_) h
    intro j u hu x hx hj
    rcases get_set_cases hu with ⟨rfl, rfl⟩ | ⟨-, hu⟩
    · exact st.begun_drop j p.shared
    · rw [st.world_drop] at hx
      exact h j u hu x hx hj

/-- A job that has not had its lock has left no note. -/
theorem begins_run (as : List Action) (jobs : List (Job C R σ α)) (w : W) {i : Nat}
    {st : Stage C R σ α} (hst : (run v as (start jobs w)).stages[i]? = some st)
    {x : Nat × D} (hx : x ∈ notes v note as (start jobs w)) (hi : x.1 = i) : st.begun = true := by
  have hbegins : (runEach (v.noting note) as (start jobs w).unnoted).Begins :=
    runEach_keeps (v.noting note) (fun _ a _ h => h.act a) fun _ _ _ _ hx => by cases hx
  exact hbegins i st ((congrArg (·[i]?) (stages_noting v note as (start jobs w))).trans hst) x hx hi

end Pool

end Oncall
