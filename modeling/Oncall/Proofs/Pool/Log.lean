import Oncall.Proofs.Pool.Exclusion

/-! What the log shows of the jobs. A poll logs events of its own job only, and only a job that holds
its lock logs any. So among jobs with one key, from the first call that a job begins until it is over,
no action logs an event of another job, in any run and whoever is dropped. -/

namespace Oncall

open KeyedLocks (Use)

variable {C : Type} {R : C → Type} {σ α W : Type}

/-- The job that an event is about. -/
def Event.job? : Event C → Option Nat
  | .round _ => none
  | .start i _ | .finish i _ => some i

/-- Whether a job has had its lock, or needs none. -/
def Stage.begun : Stage C R σ α → Bool
  | .fresh _ | .queued _ _ _ => false
  | _ => true

def Stage.isFresh : Stage C R σ α → Bool
  | .fresh _ => true
  | _ => false

theorem Stage.isFresh_of_begun {st : Stage C R σ α} (h : st.begun = true) : st.isFresh = false := by
  cases st with
  | fresh job => cases h
  | _ => rfl

theorem Stage.use_of_begun {st : Stage C R σ α} (h : st.begun = true) (ho : st.isOver = false) :
    ∃ key, st.use = .holding key ∧ st.needs = some key := by
  cases st with
  | fresh job => simp [begun] at h
  | queued key seen body => simp [begun] at h
  | calling key seen left c next => exact ⟨key, rfl, rfl⟩
  | finished a => simp [isOver] at ho
  | dropped seen => simp [isOver] at ho

/-- The log has grown by events of one job. -/
def Logs (i : Nat) (log log' : List (Event C)) : Prop :=
  ∃ new, log' = log ++ new ∧ ∀ e ∈ new, e.job? = some i

theorem Logs.refl (i : Nat) (log : List (Event C)) : Logs i log log :=
  ⟨[], (List.append_nil log).symm, fun _ h => absurd h List.not_mem_nil⟩

theorem Logs.concat {i : Nat} {log log' : List (Event C)} (h : Logs i log log') {e : Event C}
    (he : e.job? = some i) : Logs i log (log' ++ [e]) := by
  obtain ⟨new, rfl, hnew⟩ := h
  refine ⟨new ++ [e], List.append_assoc .., fun x hx => ?_⟩
  rcases List.mem_append.1 hx with hx | hx
  · exact hnew x hx
  · rw [List.mem_singleton.1 hx]
    exact he

/-- A job that goes on logs events of its own, and has begun. -/
theorem Workflow.goOn_logs (v : Service C R W) (i : Nat) (key : String) {log : List (Event C)}
    (body : Workflow C R σ α) (s : Shared C W) (h : Logs i log s.log) :
    Logs i log (body.goOn v i key s).2.log ∧ (body.goOn v i key s).1.begun = true := by
  refine goOn_keeps v i key (K := fun _ s => Logs i log s.log)
    (J := fun st s => Logs i log s.log ∧ st.begun = true) ?_ ?_ ?_ body s h
  · exact fun a s hs => ⟨hs, rfl⟩
  · exact fun seen c next left s _ hs => ⟨hs.concat rfl, rfl⟩
  · exact fun seen c next s _ hs => (hs.concat rfl).concat rfl

namespace Stage

/-- A poll logs events of its own job, and none unless the job has begun. -/
theorem poll_logs (v : Service C R W) (i : Nat) (st : Stage C R σ α) (s : Shared C W) :
    Logs i s.log (st.poll v i s).2.log ∧
      ((st.poll v i s).2.log = s.log ∨ (st.poll v i s).1.begun = true) := by
  have hsame : Logs i s.log s.log := .refl i s.log
  cases st with
  | fresh job =>
    cases job with
    | settled a => exact ⟨hsame, Or.inl rfl⟩
    | locked key seen body =>
      simp only [poll]
      split
      · obtain ⟨hlogs, hbegun⟩ := body.goOn_logs v i key { s with locks := s.locks.lock i key } hsame
        exact ⟨hlogs, Or.inr hbegun⟩
      · exact ⟨hsame, Or.inl rfl⟩
  | queued key seen body =>
    simp only [poll]
    split
    · obtain ⟨hlogs, hbegun⟩ := body.goOn_logs v i key { s with locks := s.locks.poll i key } hsame
      exact ⟨hlogs, Or.inr hbegun⟩
    · exact ⟨hsame, Or.inl rfl⟩
  | calling key seen left c next =>
    simp only [poll]
    split
    · obtain ⟨hlogs, hbegun⟩ := (next (s.act v i c).1).goOn_logs v i key (s.act v i c).2
        (hsame.concat rfl)
      exact ⟨hlogs, Or.inr hbegun⟩
    · exact ⟨hsame, Or.inl rfl⟩
  | finished a => exact ⟨hsame, Or.inl rfl⟩
  | dropped seen => exact ⟨hsame, Or.inl rfl⟩

theorem begun_poll {st : Stage C R σ α} (h : st.begun = true) (v : Service C R W) (i : Nat)
    (s : Shared C W) : (st.poll v i s).1.begun = true := by
  cases st with
  | fresh job => simp [begun] at h
  | queued key seen body => simp [begun] at h
  | calling key seen left c next =>
    simp only [poll]
    split
    · exact ((next _).goOn_logs v i key _ (.refl i _)).2
    · rfl
  | finished a => rfl
  | dropped seen => rfl

/-- A job that was polled is fresh no more. -/
theorem isFresh_poll (v : Service C R W) (i : Nat) (st : Stage C R σ α) (s : Shared C W) :
    (st.poll v i s).1.isFresh = false := by
  cases st with
  | fresh job =>
    cases job with
    | settled a => rfl
    | locked key seen body =>
      simp only [poll]
      split
      · exact isFresh_of_begun (body.goOn_logs v i key _ (.refl i _)).2
      · rfl
  | queued key seen body =>
    simp only [poll]
    split
    · exact isFresh_of_begun (body.goOn_logs v i key _ (.refl i _)).2
    · rfl
  | calling key seen left c next => exact isFresh_of_begun (begun_poll rfl v i s)
  | finished a => rfl
  | dropped seen => rfl

/-- A poll of a job that needs no key makes no calls. -/
theorem log_poll_of_needs (st : Stage C R σ α) (h : st.needs = none) :
    (st.poll v i s).2.log = s.log := by
  cases st with
  | fresh job =>
    cases job with
    | settled a => rfl
    | locked key seen body => cases h
  | queued key seen body => cases h
  | calling key seen left c next => cases h
  | finished a => rfl
  | dropped seen => rfl

theorem log_drop (st : Stage C R σ α) (i : Nat) (s : Shared C W) :
    (st.drop i s).2.log = s.log := by
  cases st with
  | fresh job => cases job <;> rfl
  | _ => rfl

theorem begun_drop (st : Stage C R σ α) (i : Nat) (s : Shared C W) :
    (st.drop i s).1.begun = true := by
  cases st with
  | fresh job => cases job <;> rfl
  | _ => rfl

/-- A job never comes to need another key. -/
theorem needs_poll {v : Service C R W} {i : Nat} {st : Stage C R σ α} {s : Shared C W}
    {key : String} (h : (st.poll v i s).1.needs = some key) : st.needs = some key := by
  have hgo : ∀ (k : String) (body : Workflow C R σ α) (s' : Shared C W),
      (body.goOn v i k s').1.needs = some key → k = key := by
    intro k body s'
    refine Workflow.goOn_keeps v i k (K := fun _ _ => True)
      (J := fun st' _ => st'.needs = some key → k = key) ?_ ?_ ?_ body s' trivial
    · exact fun a s _ => nofun
    · exact fun seen c next left s _ _ => Option.some.inj
    · exact fun seen c next s _ _ => trivial
  cases st with
  | fresh job =>
    cases job with
    | settled a => cases h
    | locked k seen body =>
      simp only [poll] at h
      split at h
      · rw [needs, hgo k body _ h]
      · exact h
  | queued k seen body =>
    simp only [poll] at h
    split at h
    · rw [needs, hgo k body _ h]
    · exact h
  | calling k seen left c next =>
    simp only [poll] at h
    split at h
    · rw [needs, hgo k _ _ h]
    · exact h
  | finished a => cases h
  | dropped seen => cases h

/-- A poll drops nothing. -/
theorem eq_dropped_of_poll {v : Service C R W} {i : Nat} {st : Stage C R σ α} {s : Shared C W}
    {seen : σ} (h : (st.poll v i s).1 = .dropped seen) : st = .dropped seen := by
  have hgo : ∀ (k : String) (body : Workflow C R σ α) (s' : Shared C W),
      (body.goOn v i k s').1 ≠ .dropped seen := by
    intro k body s'
    refine Workflow.goOn_keeps v i k (K := fun _ _ => True) (J := fun st' _ => st' ≠ .dropped seen)
      ?_ ?_ ?_ body s' trivial
    · exact fun a s _ => nofun
    · exact fun seen c next left s _ _ => nofun
    · exact fun seen c next s _ _ => trivial
  cases st with
  | fresh job =>
    cases job with
    | settled a => cases h
    | locked k seen body =>
      simp only [poll] at h
      split at h
      · exact absurd h (hgo k body _)
      · cases h
  | queued k seen body =>
    simp only [poll] at h
    split at h
    · exact absurd h (hgo k body _)
    · cases h
  | calling k seen left c next =>
    simp only [poll] at h
    split at h
    · exact absurd h (hgo k _ _)
    · cases h
  | finished a => cases h
  | dropped seen => exact h

theorem needs_drop (st : Stage C R σ α) (i : Nat) (s : Shared C W) :
    (st.drop i s).1.needs = none := by
  cases st with
  | fresh job => cases job <;> rfl
  | _ => rfl

end Stage

namespace Pool

/-- Every job needs its key, if any, only. -/
def Keyed (keys : Nat → Option String) (p : Pool C R σ α W) : Prop :=
  ∀ (i : Nat) (st : Stage C R σ α), p.stages[i]? = some st → ∀ key, st.needs = some key →
    keys i = some key

/-- The events of a job in the log are those of a job that has begun. -/
def Logged (p : Pool C R σ α W) : Prop :=
  ∀ (i : Nat) (st : Stage C R σ α), p.stages[i]? = some st → ∀ e ∈ p.shared.log,
    e.job? = some i → st.begun = true

theorem Keyed.act {keys : Nat → Option String} {p : Pool C R σ α W} (h : p.Keyed keys)
    (v : Service C R W) (a : Action) : (p.act v a).Keyed keys := by
  have hset : ∀ {i : Nat} {st st' : Stage C R σ α} {s' : Shared C W}, p.stages[i]? = some st →
      (∀ key, st'.needs = some key → st.needs = some key) →
      Keyed keys ⟨p.stages.set i st', s'⟩ := by
    intro i st st' s' hst hneeds j u hu key hkey
    rcases get_set_cases hu with ⟨rfl, rfl⟩ | ⟨-, hu⟩
    · exact h j st hst key (hneeds key hkey)
    · exact h j u hu key hkey
  cases a with
  | mark n => exact h
  | poll i => exact onJob_keeps (fun st hst => hset hst fun key => Stage.needs_poll) h
  | drop i =>
    refine onJob_keeps (fun st hst => hset hst fun key hkey => ?_) h
    rw [st.needs_drop] at hkey
    cases hkey

theorem Keyed.run {keys : Nat → Option String} {p : Pool C R σ α W} (h : p.Keyed keys)
    (v : Service C R W) (as : List Action) : (run v as p).Keyed keys :=
  run_keeps v (fun _ a _ hq => hq.act v a) h

theorem keyed_start (jobs : List (Job C R σ α)) (w : W) :
    (start jobs w).Keyed fun i => jobs[i]?.bind fun job => (Stage.fresh job).needs := by
  intro i st hst key hkey
  simp only [start, List.getElem?_map, Option.map_eq_some_iff] at hst
  obtain ⟨job, hjob, rfl⟩ := hst
  simpa [hjob] using hkey

theorem Logged.act {p : Pool C R σ α W} (h : p.Logged) (v : Service C R W) (a : Action) :
    (p.act v a).Logged := by
  cases a with
  | mark n =>
    intro i st hst e he hi
    rcases List.mem_append.1 he with he | he
    · exact h i st hst e he hi
    · rw [List.mem_singleton.1 he] at hi
      cases hi
  | poll i =>
    refine onJob_keeps (fun st hst => ?_) h
    obtain ⟨⟨new, hlog, hnew⟩, hbegun⟩ := st.poll_logs v i p.shared
    intro j u hu e he hj
    rcases get_set_cases hu with ⟨rfl, rfl⟩ | ⟨hji, hu⟩
    · rcases hbegun with hsame | hbegun
      · rw [hsame] at he
        exact Stage.begun_poll (h j st hst e he hj) v j p.shared
      · exact hbegun
    · rw [hlog] at he
      rcases List.mem_append.1 he with he | he
      · exact h j u hu e he hj
      · rw [hnew e he] at hj
        exact absurd (Option.some.inj hj).symm hji
  | drop i =>
    refine onJob_keeps (fun st hst => ?_) h
    intro j u hu e he hj
    rcases get_set_cases hu with ⟨rfl, rfl⟩ | ⟨-, hu⟩
    · exact st.begun_drop j p.shared
    · rw [st.log_drop] at he
      exact h j u hu e he hj

theorem Logged.run {p : Pool C R σ α W} (h : p.Logged) (v : Service C R W) (as : List Action) :
    (run v as p).Logged :=
  run_keeps v (fun _ a _ hq => hq.act v a) h

theorem logged_start (jobs : List (Job C R σ α)) (w : W) : (start jobs w).Logged :=
  fun _ _ _ _ he => absurd he List.not_mem_nil

/-- Only jobs that these actions drop are dropped. -/
def DroppedIn (as : List Action) (p : Pool C R σ α W) : Prop :=
  ∀ (i : Nat) (seen : σ), p.stages[i]? = some (.dropped seen) → .drop i ∈ as

theorem DroppedIn.act {as : List Action} {p : Pool C R σ α W} (h : p.DroppedIn as)
    (v : Service C R W) {a : Action} (ha : a ∈ as) : (p.act v a).DroppedIn as := by
  cases a with
  | mark n => exact h
  | poll j =>
    refine onJob_keeps (I := DroppedIn as) (fun st hst i seen hi => ?_) h
    rcases get_set_cases hi with ⟨rfl, hd⟩ | ⟨-, hi⟩
    · rw [Stage.eq_dropped_of_poll hd.symm] at hst
      exact h i seen hst
    · exact h i seen hi
  | drop j =>
    refine onJob_keeps (I := DroppedIn as) (fun st hst i seen hi => ?_) h
    rcases get_set_cases hi with ⟨rfl, -⟩ | ⟨-, hi⟩
    · exact ha
    · exact h i seen hi

theorem droppedIn_run (v : Service C R W) (as : List Action) (jobs : List (Job C R σ α)) (w : W) :
    (run v as (start jobs w)).DroppedIn as := by
  refine run_keeps v (fun _ _ ha h => h.act v ha) fun i seen hi => ?_
  simp [start] at hi

/-- A job that is over and that no action dropped has finished. -/
theorem DroppedIn.finished {as : List Action} {p : Pool C R σ α W} (h : p.DroppedIn as) {i : Nat}
    {st : Stage C R σ α} (hst : p.stages[i]? = some st) (hover : st.isOver = true)
    (hkeep : .drop i ∉ as) : st.result?.isSome = true := by
  cases st with
  | finished a => rfl
  | dropped seen => exact absurd (h i seen hst) hkeep
  | _ => cases hover

/-- When all jobs are over and none was dropped, all have finished. -/
theorem finished_of_isOver {v : Service C R W} {as : List Action} {jobs : List (Job C R σ α)} {w : W}
    (hdrop : ∀ i, .drop i ∉ as) (hover : (run v as (start jobs w)).IsOver) {i : Nat}
    (hi : i < jobs.length) : ∃ a, (run v as (start jobs w)).stages[i]? = some (.finished a) := by
  have hlt : i < (run v as (start jobs w)).stages.length := by
    rw [length_run, start, List.length_map]
    exact hi
  obtain ⟨st, hst⟩ : ∃ st, (run v as (start jobs w)).stages[i]? = some st :=
    ⟨_, List.getElem?_eq_getElem hlt⟩
  have hresult := (droppedIn_run v as jobs w).finished hst (hover st (List.mem_of_getElem? hst))
    (hdrop i)
  cases st with
  | finished a => exact ⟨a, hst⟩
  | _ => cases hresult

/-- Who is over neither waits for a lock nor has one. -/
theorem use_of_isOver {p : Pool C R σ α W} (h : p.IsOver) (i : Nat) : p.use i = .idle := by
  cases hst : p.stages[i]? with
  | none => simp [use, hst]
  | some st =>
    have hover := h st (List.mem_of_getElem? hst)
    rw [use_of_get hst]
    cases st with
    | finished a => rfl
    | dropped seen => rfl
    | _ => cases hover

/-- A job that has begun a call and is neither finished nor dropped. -/
def UnderWay (p : Pool C R σ α W) (i : Nat) : Prop :=
  (∃ e ∈ p.shared.log, e.job? = some i) ∧
    ∃ st, p.stages[i]? = some st ∧ st.isOver = false

/-- While a job is under way, no action begins or ends a call of another job with its key. -/
theorem logs_of_underWay {p : Pool C R σ α W} (hf : p.Fits) (hl : p.Logged) {key : String}
    (hk : p.Keyed fun _ => some key) {i : Nat} (hi : p.UnderWay i) (v : Service C R W)
    (a : Action) : ∃ new, (p.act v a).shared.log = p.shared.log ++ new ∧
      ∀ e ∈ new, e.job? = none ∨ e.job? = some i := by
  obtain ⟨⟨e, he, hei⟩, st, hst, hover⟩ := hi
  obtain ⟨k, huse, hneeds⟩ := Stage.use_of_begun (hl i st hst e he hei) hover
  have hkey : key = k := Option.some.inj (hk i st hst k hneeds)
  subst hkey
  have hnone : ∃ new, p.shared.log = p.shared.log ++ new ∧
      ∀ e ∈ new, e.job? = none ∨ e.job? = some i :=
    ⟨[], (List.append_nil _).symm, fun _ h => absurd h List.not_mem_nil⟩
  cases a with
  | mark n =>
    refine ⟨[.round n], rfl, fun x hx => Or.inl ?_⟩
    rw [List.mem_singleton.1 hx]
    rfl
  | drop j =>
    refine onJob_keeps (I := fun q => ∃ new, q.shared.log = p.shared.log ++ new ∧
      ∀ e ∈ new, e.job? = none ∨ e.job? = some i) (fun u _ => ?_) hnone
    rw [u.log_drop]
    exact hnone
  | poll j =>
    refine onJob_keeps (I := fun q => ∃ new, q.shared.log = p.shared.log ++ new ∧
      ∀ e ∈ new, e.job? = none ∨ e.job? = some i) (fun u hu => ?_) hnone
    by_cases hji : j = i
    · subst hji
      obtain ⟨⟨new, hlog, hnew⟩, -⟩ := u.poll_logs v j p.shared
      exact ⟨new, hlog, fun x hx => Or.inr (hnew x hx)⟩
    · cases hn : u.needs with
      | some k =>
        have hkk : key = k := Option.some.inj (hk j u hu k hn)
        subst hkk
        rw [(u.poll_of_held v (use_of_get hu) hf hji ((use_of_get hst).trans huse) hn).2]
        exact hnone
      | none =>
        rw [u.log_poll_of_needs hn]
        exact hnone

end Pool

end Oncall
