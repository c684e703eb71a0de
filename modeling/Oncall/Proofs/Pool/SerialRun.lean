import Oncall.Proofs.Pool.Serial

/-! A run with first polls in order is serial. The invariant gives the worlds between the jobs, and
every action keeps it: a job that acts has all jobs before it over and all jobs after it idle, so the
world moves in its own place of the sequence only. The rounds of the polling loop are such runs. -/

namespace Oncall.Pool

open KeyedLocks (Use)

variable {C : Type} {R : C → Type} {σ α W : Type}

/-- `t` jobs were polled, in order, and `worlds i` is what job `i` found. -/
structure Serial (answer : (c : C) → W → R c × W) (key : String) (jobs : List (Job C R σ α)) (w₀ : W)
    (t : Nat) (p : Pool C R σ α W) (worlds : Nat → W) : Prop where
  fits : p.Fits
  keyed : p.Keyed fun _ => some key
  sorted : (p.shared.locks.line key).Pairwise (· < ·)
  length : p.stages.length = jobs.length
  fresh_iff : ∀ (i : Nat) (st : Stage C R σ α), p.stages[i]? = some st →
    (st.isFresh = true ↔ t ≤ i)
  first : worlds 0 = w₀
  last : worlds jobs.length = p.shared.world
  did : ∀ (i : Nat) (st : Stage C R σ α) (job : Job C R σ α), p.stages[i]? = some st →
    jobs[i]? = some job → st.Did answer job (worlds i) (worlds (i + 1))
  after : ∀ (i : Nat) (st : Stage C R σ α), p.stages[i]? = some st → st.isOver = false →
    (∀ j, i < j → j ≤ jobs.length → worlds j = p.shared.world) ∧
    ∀ (j : Nat) (u : Stage C R σ α) (job : Job C R σ α), i < j → p.stages[j]? = some u →
      jobs[j]? = some job → u.Idle answer job

variable {v : Service C R W} {key : String} {jobs : List (Job C R σ α)} {w₀ : W} {t : Nat}
  {p : Pool C R σ α W} {worlds : Nat → W}

theorem serial_start (hwaits : ∀ job ∈ jobs, job.Waits key) :
    Serial v.answer key jobs w₀ 0 (start jobs w₀) fun _ => w₀ := by
  have hget : ∀ {i : Nat} {st : Stage C R σ α}, (start jobs w₀).stages[i]? = some st →
      ∃ job, jobs[i]? = some job ∧ st = .fresh job := by
    intro i st hst
    simp only [start, List.getElem?_map, Option.map_eq_some_iff] at hst
    obtain ⟨job, hjob, rfl⟩ := hst
    exact ⟨job, hjob, rfl⟩
  have hidle : ∀ (i : Nat) (st : Stage C R σ α) (job : Job C R σ α),
      (start jobs w₀).stages[i]? = some st → jobs[i]? = some job → st.Idle v.answer job := by
    intro i st job hst hjob w
    obtain ⟨job', hjob', rfl⟩ := hget hst
    rw [hjob] at hjob'
    cases hjob'
    exact ⟨rfl, rfl⟩
  refine ⟨fits_start jobs w₀, ?_, ?_, by simp [start], ?_, rfl, rfl, ?_, ?_⟩
  · intro i st hst k hk
    obtain ⟨job, hjob, rfl⟩ := hget hst
    cases job with
    | settled a => cases hk
    | locked k' seen body =>
      cases hk
      rw [(hwaits _ (List.mem_of_getElem? hjob)).1]
  · simp [start, KeyedLocks.line]
  · intro i st hst
    obtain ⟨job, -, rfl⟩ := hget hst
    simp [Stage.isFresh]
  · exact fun i st job hst hjob => hidle i st job hst hjob w₀
  · exact fun i st _ _ => ⟨fun _ _ _ => rfl, fun j u job _ hu hjob => hidle j u job hu hjob⟩

namespace Serial

variable (h : Serial v.answer key jobs w₀ t p worlds) {i : Nat} {st : Stage C R σ α}
  {job : Job C R σ α}

include h

/-- A job that is not over has brought the world to where it is. -/
theorem did_world (hst : p.stages[i]? = some st) (hjob : jobs[i]? = some job)
    (hover : st.isOver = false) : st.Did v.answer job (worlds i) p.shared.world := by
  have hlt : i < jobs.length := (List.getElem?_eq_some_iff.1 hjob).1
  have hd := h.did i st job hst hjob
  rwa [(h.after i st hst hover).1 (i + 1) (Nat.lt_succ_self i) hlt] at hd

/-- A job that was polled and is not over stands in the line. -/
theorem mem_line (hst : p.stages[i]? = some st) (hit : i < t) (hover : st.isOver = false) :
    i ∈ p.shared.locks.line key := by
  have hfresh : st.isFresh = false := by
    rw [Bool.eq_false_iff, ne_eq, h.fresh_iff i st hst]
    omega
  have hkey : ∀ k, st.needs = some k → k = key := fun k hk =>
    (Option.some.inj (h.keyed i st hst k hk)).symm
  rw [h.fits.mem_line, use_of_get hst]
  cases st with
  | fresh job => cases hfresh
  | queued k seen body => rw [hkey k rfl]; rfl
  | calling k seen left c next => rw [hkey k rfl]; rfl
  | finished a => cases hover
  | dropped seen => cases hover

theorem lt_of_mem_line {j : Nat} (hj : j ∈ p.shared.locks.line key) : j < t := by
  rw [h.fits.mem_line] at hj
  obtain ⟨u, hu, huse⟩ := exists_get_of_use (p := p) (i := j) (by
    rintro hidle
    rw [hidle] at hj
    cases hj)
  rw [← huse] at hj
  by_contra hge
  have hfresh : u.isFresh = true := (h.fresh_iff j u hu).2 (by omega)
  cases u with
  | fresh job => cases hj
  | _ => cases hfresh

/-- The jobs before one that was polled are over, or one of them stands in the line. -/
theorem over_or_mem_line (hit : i ≤ t) :
    (∀ (k : Nat) (u : Stage C R σ α), k < i → p.stages[k]? = some u → u.isOver = true) ∨
      ∃ k < i, k ∈ p.shared.locks.line key := by
  by_cases hall : ∀ (k : Nat) (u : Stage C R σ α), k < i → p.stages[k]? = some u →
      u.isOver = true
  · exact Or.inl hall
  · simp only [not_forall] at hall
    obtain ⟨k, u, hki, hu, huover⟩ := hall
    exact Or.inr ⟨k, hki, h.mem_line hu (by omega) (by simpa using huover)⟩

/-- First polls in order put the jobs into the line in order. -/
theorem sorted_poll (hst : p.stages[i]? = some st) :
    ((st.poll v i p.shared).2.locks.line key).Pairwise (· < ·) := by
  refine List.Pairwise.sublist (st.line_poll_sublist v h.fits (use_of_get hst) key) ?_
  split
  next hfresh =>
    have hti : t ≤ i := (h.fresh_iff i st hst).1 hfresh
    refine List.pairwise_append.2 ⟨h.sorted, List.pairwise_singleton _ i, fun j hj k hk => ?_⟩
    rw [List.mem_singleton.1 hk]
    have hjt := h.lt_of_mem_line hj
    omega
  next => exact h.sorted

/-- One job changes: it has gone on from where it was, and the jobs before it are over unless it left
the world alone. -/
theorem set {st' : Stage C R σ α} {s' : Shared C W} (hst : p.stages[i]? = some st)
    (hjob : jobs[i]? = some job) (hover : st.isOver = false) (hit : i ≤ t)
    (hfits : Fits ⟨p.stages.set i st', s'⟩)
    (hkeyed : Keyed (fun _ => some key) ⟨p.stages.set i st', s'⟩)
    (hsorted : (s'.locks.line key).Pairwise (· < ·)) (hfresh : st'.isFresh = false)
    (hdid : st'.Did v.answer job (worlds i) s'.world)
    (hbefore : (∀ (k : Nat) (u : Stage C R σ α), k < i → p.stages[k]? = some u → u.isOver = true) ∨
      (s'.world = p.shared.world ∧ st'.Idle v.answer job)) :
    Serial v.answer key jobs w₀ (max t (i + 1)) ⟨p.stages.set i st', s'⟩
      fun j => if j ≤ i then worlds j else s'.world where
  fits := hfits
  keyed := hkeyed
  sorted := hsorted
  length := by rw [List.length_set]; exact h.length
  fresh_iff j u hu := by
    rcases get_set_cases hu with ⟨rfl, rfl⟩ | ⟨hji, hu⟩
    · rw [hfresh]
      refine ⟨nofun, fun hj => absurd hj ?_⟩
      omega
    · rw [h.fresh_iff j u hu]
      omega
  first := by rw [if_pos (Nat.zero_le i)]; exact h.first
  last := by
    have hlt : i < jobs.length := (List.getElem?_eq_some_iff.1 hjob).1
    exact if_neg (by omega)
  did j u job' hu hjob' := by
    rcases get_set_cases hu with ⟨rfl, rfl⟩ | ⟨hji, hu⟩
    · rw [hjob] at hjob'
      cases hjob'
      rw [if_pos (Nat.le_refl j), if_neg (by omega)]
      exact hdid
    · by_cases hlt : j < i
      · rw [if_pos (by omega), if_pos (by omega)]
        exact h.did j u job' hu hjob'
      · rw [if_neg (by omega), if_neg (by omega)]
        exact (h.after i st hst hover).2 j u job' (by omega) hu hjob' s'.world
  after k u hu huover := by
    have hidle : ∀ (j : Nat) (x : Stage C R σ α) (job' : Job C R σ α), i < j →
        (p.stages.set i st')[j]? = some x → jobs[j]? = some job' → x.Idle v.answer job' := by
      intro j x job' hij hx hjob'
      rw [List.getElem?_set_ne (by omega)] at hx
      exact (h.after i st hst hover).2 j x job' hij hx hjob'
    by_cases hki : k < i
    · rcases get_set_cases hu with ⟨rfl, -⟩ | ⟨-, hu⟩
      · exact absurd hki (Nat.lt_irrefl _)
      rcases hbefore with hall | ⟨hsame, hidle'⟩
      · rw [hall k u hki hu] at huover
        cases huover
      obtain ⟨hworlds, hlater⟩ := h.after k u hu huover
      refine ⟨fun j hkj hj => ?_, fun j x job' hkj hx hjob' => ?_⟩
      · split
        · exact (hworlds j hkj hj).trans hsame.symm
        · rfl
      · rcases get_set_cases hx with ⟨rfl, rfl⟩ | ⟨-, hx⟩
        · rw [hjob] at hjob'
          cases hjob'
          exact hidle'
        · exact hlater j x job' hkj hx hjob'
    · exact ⟨fun j hkj _ => if_neg (by omega),
        fun j x job' hkj hx hjob' => hidle j x job' (by omega) hx hjob'⟩

end Serial

/-- Some worlds make the run serial so far. -/
def IsSerial (answer : (c : C) → W → R c × W) (key : String) (jobs : List (Job C R σ α)) (w₀ : W)
    (t : Nat) (p : Pool C R σ α W) : Prop :=
  ∃ worlds, Serial answer key jobs w₀ t p worlds

theorem IsSerial.mark (h : IsSerial v.answer key jobs w₀ t p) (n : Nat) :
    IsSerial v.answer key jobs w₀ t (p.act v (.mark n)) := by
  obtain ⟨worlds, hs⟩ := h
  exact ⟨worlds, hs.fits, hs.keyed, hs.sorted, hs.length, hs.fresh_iff, hs.first, hs.last, hs.did,
    hs.after⟩

/-- The next first poll, or a later poll. -/
theorem IsSerial.poll (h : IsSerial v.answer key jobs w₀ t p) {i : Nat} (hit : i ≤ t)
    (hi : i < jobs.length) :
    IsSerial v.answer key jobs w₀ (max t (i + 1)) (p.act v (.poll i)) := by
  obtain ⟨worlds, hs⟩ := h
  have hlt : i < p.stages.length := hs.length ▸ hi
  have hst : p.stages[i]? = some p.stages[i] := List.getElem?_eq_getElem hlt
  have hjob : jobs[i]? = some jobs[i] := List.getElem?_eq_getElem hi
  generalize p.stages[i] = st at hst
  generalize jobs[i] = job at hjob
  have hact : p.act v (.poll i) =
      ⟨p.stages.set i (st.poll v i p.shared).1, (st.poll v i p.shared).2⟩ := onJob_of_get hst _
  cases hover : st.isOver with
  | true =>
    have hfresh : st.isFresh = false := by
      cases st with
      | fresh job => cases hover
      | _ => rfl
    have hti : i < t := by
      by_contra hge
      rw [(hs.fresh_iff i st hst).2 (by omega)] at hfresh
      cases hfresh
    have hsame : p.act v (.poll i) = p :=
      onJob_of_same hst (Stage.poll_of_isOver hover v i p.shared)
    rw [Nat.max_eq_left hti, hsame]
    exact ⟨worlds, hs⟩
  | false =>
    have hdid := hs.did_world hst hjob hover
    have hfits := hs.fits.act v (.poll i)
    have hkeyed := hs.keyed.act v (.poll i)
    rw [hact] at hfits hkeyed ⊢
    refine ⟨_, hs.set hst hjob hover hit hfits hkeyed (hs.sorted_poll hst)
      (st.isFresh_poll v i p.shared) (Stage.poll_did i hdid) ?_⟩
    rcases hs.over_or_mem_line hit with hall | ⟨k, hki, hk⟩
    · exact Or.inl hall
    · exact Or.inr (Stage.poll_behind hs.fits (use_of_get hst) hs.sorted hk hki
        (hs.keyed i st hst) hover hdid)

/-- A job that was polled is dropped. -/
theorem IsSerial.drop (hwaits : ∀ job ∈ jobs, job.Waits key)
    (h : IsSerial v.answer key jobs w₀ t p) {i : Nat} (hit : i < t) (hi : i < jobs.length) :
    IsSerial v.answer key jobs w₀ t (p.act v (.drop i)) := by
  obtain ⟨worlds, hs⟩ := h
  have hlt : i < p.stages.length := hs.length ▸ hi
  have hst : p.stages[i]? = some p.stages[i] := List.getElem?_eq_getElem hlt
  have hjob : jobs[i]? = some jobs[i] := List.getElem?_eq_getElem hi
  have hw : jobs[i].Waits key := hwaits _ (List.getElem_mem hi)
  generalize p.stages[i] = st at hst
  generalize jobs[i] = job at hjob hw
  have hact : p.act v (.drop i) =
      ⟨p.stages.set i (st.drop i p.shared).1, (st.drop i p.shared).2⟩ := onJob_of_get hst _
  cases hover : st.isOver with
  | true =>
    have hsame : p.act v (.drop i) = p := onJob_of_same hst (Stage.drop_of_isOver hover i p.shared)
    rw [hsame]
    exact ⟨worlds, hs⟩
  | false =>
    have hdid := hs.did_world hst hjob hover
    have hfits := hs.fits.act v (.drop i)
    have hkeyed := hs.keyed.act v (.drop i)
    rw [hact] at hfits hkeyed ⊢
    have hsorted := hs.sorted.sublist (st.line_drop_sublist hs.fits (use_of_get hst) key)
    have hmax : max t (i + 1) = t := Nat.max_eq_left hit
    rw [← hmax]
    refine ⟨_, hs.set hst hjob hover (Nat.le_of_lt hit) hfits hkeyed hsorted
      (Stage.isFresh_of_begun (st.begun_drop i p.shared)) (Stage.drop_did hw i hdid) ?_⟩
    rcases hs.over_or_mem_line (Nat.le_of_lt hit) with hall | ⟨k, hki, hk⟩
    · exact Or.inl hall
    · exact Or.inr (Stage.drop_behind hw hs.fits (use_of_get hst) hs.sorted hk hki
        (hs.keyed i st hst) hover hdid)

/-- The turns of the jobs from `i` on, of which those before were polled. -/
theorem IsSerial.turns (hwaits : ∀ job ∈ jobs, job.Waits key) (n : Nat) (ds : List (Option Nat))
    (h : IsSerial v.answer key jobs w₀ t p) {i : Nat} (hit : i ≤ t)
    (hlen : i + ds.length = jobs.length) :
    ∃ t', IsSerial v.answer key jobs w₀ t' (run v (turnActions n i ds) p) := by
  induction ds generalizing i t p with
  | nil => exact ⟨t, h⟩
  | cons d ds ih =>
    rw [List.length_cons] at hlen
    have hpoll := h.poll hit (show i < jobs.length by omega)
    rw [turnActions, run_append]
    split
    · exact ih (hpoll.drop hwaits (show i < max t (i + 1) by omega) (by omega))
        (Nat.le_max_right t (i + 1)) (by omega)
    · exact ih hpoll (Nat.le_max_right t (i + 1)) (by omega)

theorem IsSerial.rounds (hwaits : ∀ job ∈ jobs, job.Waits key) {ds : List (Option Nat)}
    (hlen : ds.length = jobs.length) (n k : Nat) (h : IsSerial v.answer key jobs w₀ t p) :
    ∃ t', IsSerial v.answer key jobs w₀ t' (run v (roundsActions ds n k) p) := by
  induction k generalizing n t p with
  | zero => exact ⟨t, h⟩
  | succ k ih =>
    obtain ⟨t', hround⟩ := (h.mark n).turns hwaits n ds (Nat.zero_le t) (by omega)
    rw [roundsActions, run_append]
    exact ih (n + 1) hround

/-- A job that is over was run to a cut, which there is if it was dropped. -/
theorem exists_cut {answer : (c : C) → W → R c × W} {st : Stage C R σ α} {job : Job C R σ α}
    {w w' : W} (h : st.Did answer job w w') (hover : st.isOver = true) :
    ∃ cut, (job.body.upTo answer cut w).2 = w' ∧
      st.outcome? = some (job.body.upTo answer cut w).1 ∧
      (cut = none ↔ st.result?.isSome = true) := by
  cases st with
  | finished a =>
    have hrun : job.body.upTo answer none w = (.inr a, w') := h
    refine ⟨none, ?_, ?_, by simp [Stage.result?]⟩
    · rw [hrun]
    · rw [hrun]
      rfl
  | dropped seen =>
    obtain ⟨n, hn⟩ := h
    refine ⟨some n, ?_, ?_, by simp [Stage.result?]⟩
    · rw [hn]
    · rw [hn]
      rfl
  | _ => cases hover

/-- Jobs that are over were run in turn, those that were dropped for some of their calls. -/
theorem serially_of_did {stages : List (Stage C R σ α)} {jobs : List (Job C R σ α)}
    (hlen : stages.length = jobs.length) {worlds : Nat → W}
    (hover : ∀ st ∈ stages, st.isOver = true)
    (hdid : ∀ (i : Nat) (st : Stage C R σ α) (job : Job C R σ α), stages[i]? = some st →
      jobs[i]? = some job → st.Did v.answer job (worlds i) (worlds (i + 1))) :
    ∃ cuts : List (Option Nat), cuts.length = jobs.length ∧
      stages.map Stage.outcome? = (serially v.answer (jobs.zip cuts) (worlds 0)).1.map some ∧
      (serially v.answer (jobs.zip cuts) (worlds 0)).2 = worlds jobs.length ∧
      ∀ (i : Nat) (st : Stage C R σ α), stages[i]? = some st →
        (cuts[i]? = some none ↔ st.result?.isSome = true) := by
  induction stages generalizing jobs worlds with
  | nil =>
    cases jobs with
    | nil => exact ⟨[], rfl, rfl, rfl, by simp⟩
    | cons job jobs => cases hlen
  | cons st stages ih =>
    cases jobs with
    | nil => cases hlen
    | cons job jobs =>
      have hdid' : ∀ (i : Nat) (u : Stage C R σ α) (job' : Job C R σ α), stages[i]? = some u →
          jobs[i]? = some job' → u.Did v.answer job' (worlds (i + 1)) (worlds (i + 1 + 1)) :=
        fun i u job' hu hjob' => hdid (i + 1) u job' hu hjob'
      obtain ⟨cuts, hcuts, hout, hworld, hnone⟩ := ih (Nat.succ.inj hlen)
        (fun u hu => hover u (List.mem_cons_of_mem st hu)) hdid'
      obtain ⟨cut, hw, ho, hc⟩ := exists_cut (hdid 0 st job rfl rfl) (hover st List.mem_cons_self)
      refine ⟨cut :: cuts, by simp [hcuts], ?_, ?_, ?_⟩
      · simp only [List.zip_cons_cons, serially, List.map_cons, hw, ho, hout]
      · simp only [List.zip_cons_cons, serially, hw]
        exact hworld
      · intro i u hu
        cases i with
        | zero =>
          cases hu
          simpa using hc
        | succ i => exact hnone i u hu

end Oncall.Pool
