import Oncall.Proofs.Pool.Guarantee
import Oncall.Proofs.Pool.Log
import Oncall.Proofs.Pool.Progress

/-! Jobs with different keys do not delay each other. A job among others is compared with a job of a
pool of its own: poll by poll both do the same, make their calls in the same rounds and end alike, if
their calls are alike in worlds that are the same for them, and if the moves of others leave the world
the same for them. What is the same, for worlds, calls and results, is left open. -/

namespace Oncall

open KeyedLocks (Use)
open Relation (ReflTransGen)

variable {C : Type} {R : C → Type} {σ α W : Type}

/-! ### Timelines -/

/-- Reads one event: the current round, and the events of one job so far, each with its round. -/
def readEvent (i : Nat) (t : Nat × List (Nat × Event C)) : Event C → Nat × List (Nat × Event C)
  | .round n => (n, t.2)
  | e => if e.job? = some i then (t.1, t.2 ++ [(t.1, e)]) else t

/-- The current round, and the events of one job, each with its round. -/
def timeline (i : Nat) (log : List (Event C)) : Nat × List (Nat × Event C) :=
  log.foldl (readEvent i) (0, [])

theorem timeline_concat (i : Nat) (log : List (Event C)) (e : Event C) :
    timeline i (log ++ [e]) = readEvent i (timeline i log) e := by
  rw [timeline, List.foldl_append]
  rfl

theorem timeline_own {i : Nat} {e : Event C} (he : e.job? = some i) (log : List (Event C)) :
    timeline i (log ++ [e]) =
      ((timeline i log).1, (timeline i log).2 ++ [((timeline i log).1, e)]) := by
  rw [timeline_concat]
  cases e with
  | round n => cases he
  | start j c => exact if_pos he
  | finish j c => exact if_pos he

theorem timeline_logs {i j : Nat} (hij : j ≠ i) {log log' : List (Event C)}
    (h : Logs j log log') : timeline i log' = timeline i log := by
  obtain ⟨new, rfl, hnew⟩ := h
  induction new generalizing log with
  | nil => rw [List.append_nil]
  | cons e new ih =>
    have he : e.job? = some j := hnew e List.mem_cons_self
    have hskip : timeline i (log ++ [e]) = timeline i log := by
      rw [timeline_concat]
      have hne : e.job? ≠ some i := by
        rw [he]
        exact fun h => hij (Option.some.inj h)
      cases e with
      | round n => cases he
      | start k c => exact if_neg hne
      | finish k c => exact if_neg hne
    rw [List.append_cons, ih fun x hx => hnew x (List.mem_cons_of_mem e hx), hskip]

/-! ### Two jobs that are alike -/

/-- How two runs are compared: an invariant of their worlds, and which worlds, calls and results are
the same. -/
structure Comparison (C α W : Type) where
  inv : W → Prop
  world : W → W → Prop
  call : C → C → Prop
  result : α → α → Prop

namespace Comparison

variable (K : Comparison C α W)

/-- The same event in the same round. -/
def Event : Nat × Event C → Nat × Event C → Prop
  | (n, .start _ c), (m, .start _ d) | (n, .finish _ c), (m, .finish _ d) => n = m ∧ K.call c d
  | _, _ => False

/-- Two jobs have done the same in the same rounds. -/
structure Timeline (t t' : Nat × List (Nat × Oncall.Event C)) : Prop where
  round : t.1 = t'.1
  events : List.Forall₂ K.Event t.2 t'.2

variable {K} {i i' : Nat} {log log' : List (Oncall.Event C)}

theorem Timeline.note (h : K.Timeline (timeline i log) (timeline i' log')) {e e' : Oncall.Event C}
    (he : e.job? = some i) (he' : e'.job? = some i') (hsame : ∀ n, K.Event (n, e) (n, e')) :
    K.Timeline (timeline i (log ++ [e])) (timeline i' (log' ++ [e'])) := by
  rw [timeline_own he, timeline_own he']
  refine ⟨h.round, List.rel_append h.events (List.Forall₂.cons ?_ .nil)⟩
  rw [h.round]
  exact hsame _

end Comparison

section Alike

variable (v : Service C R W) (others : W → W → Prop) (K : Comparison C α W)

/-- Two workflows make the same calls and end with the same result, the first among others. -/
def Workflow.Alike : Workflow C R σ α → Workflow C R σ α → W → W → Prop
  | .done a, .done b, _, _ => K.result a b
  | .call _ c next, .call _ d next', w, w' => K.call c d ∧
      ∀ w₂, ReflTransGen others w w₂ → K.inv w₂ → K.inv w' → K.world w₂ w' →
        K.inv (v.answer c w₂).2 ∧ K.inv (v.answer d w').2 ∧
          K.world (v.answer c w₂).2 (v.answer d w').2 ∧
            (next (v.answer c w₂).1).Alike (next' (v.answer d w').1) (v.answer c w₂).2
              (v.answer d w').2
  | _, _, _, _ => False

/-- Two jobs are equally far, and what is left of them is alike. -/
def Stage.Alike : Stage C R σ α → Stage C R σ α → W → W → Prop
  | .fresh (.settled a), .fresh (.settled b), _, _ => K.result a b
  | .fresh (.locked _ _ body), .fresh (.locked _ _ body'), _, _ =>
      ∀ w w', K.inv w → K.inv w' → K.world w w' → body.Alike v others K body' w w'
  | .calling _ seen left c next, .calling _ seen' left' d next', w, w' => left = left' ∧
      (Workflow.call seen c next).Alike v others K (.call seen' d next') w w'
  | .finished a, .finished b, _, _ => K.result a b
  | _, _, _, _ => False

/-- A job among others and a job alone: what they share with others is the same for them, they are
equally far and they have done the same. -/
structure Twin (i i' : Nat) (st st' : Stage C R σ α) (s s' : Shared C W) : Prop where
  inv : K.inv s.world
  inv' : K.inv s'.world
  world : K.world s.world s'.world
  stage : st.Alike v others K st' s.world s'.world
  log : K.Timeline (timeline i s.log) (timeline i' s'.log)

variable {v others K} {i i' : Nat} {s s' : Shared C W}

theorem Stage.Alike.of_others {st st' : Stage C R σ α} {w w₂ w' : W}
    (h : st.Alike v others K st' w w') (hw : ReflTransGen others w w₂) :
    st.Alike v others K st' w₂ w' := by
  cases st with
  | fresh job =>
    cases st' with
    | fresh job' => cases job <;> cases job' <;> exact h
    | _ => cases job <;> exact h
  | calling key seen left c next =>
    cases st' with
    | calling key' seen' left' d next' =>
      exact ⟨h.1, h.2.1, fun w₃ hw₃ => h.2.2 w₃ (hw.trans hw₃)⟩
    | fresh job' => cases job' <;> exact h
    | _ => exact h
  | finished a =>
    cases st' with
    | fresh job' => cases job' <;> exact h
    | _ => exact h
  | _ => exact h

/-- If one of two jobs that are alike is over, both have finished, with the same result. -/
theorem Stage.Alike.finished {st st' : Stage C R σ α} {w w' : W}
    (h : st.Alike v others K st' w w') (hst : st.isOver = true) :
    ∃ a b, st = .finished a ∧ st' = .finished b ∧ K.result a b := by
  cases st with
  | finished a =>
    cases st' with
    | finished b => exact ⟨a, b, rfl, rfl, h⟩
    | fresh job' => cases job' <;> exact h.elim
    | _ => exact h.elim
  | dropped seen => exact h.elim
  | _ => cases hst

/-- Alike workflows that go on begin and end the same calls, and come to alike stages. -/
theorem Workflow.goOn_alike (hdelay : ∀ c d, K.call c d → v.delay c = v.delay d)
    {key key' : String} {body body' : Workflow C R σ α}
    (h : body.Alike v others K body' s.world s'.world) (hI : K.inv s.world) (hI' : K.inv s'.world)
    (hw : K.world s.world s'.world) (hlog : K.Timeline (timeline i s.log) (timeline i' s'.log)) :
    Twin v others K i i' (body.goOn v i key s).1 (body'.goOn v i' key' s').1
      (body.goOn v i key s).2 (body'.goOn v i' key' s').2 := by
  induction body generalizing body' s s' with
  | done a =>
    cases body' with
    | done b => exact ⟨hI, hI', hw, h, hlog⟩
    | call seen' d next' => exact h.elim
  | call seen c next ih =>
    cases body' with
    | done b => exact h.elim
    | call seen' d next' =>
      obtain ⟨hcall, hnext⟩ := h
      have hstart : K.Timeline (timeline i (s.note (.start i c)).log)
          (timeline i' (s'.note (.start i' d)).log) := hlog.note rfl rfl fun n => ⟨rfl, hcall⟩
      have hsame := hdelay c d hcall
      unfold Workflow.goOn
      cases hd : v.delay d with
      | zero =>
        rw [hd] at hsame
        simp only [hsame]
        obtain ⟨h1, h2, h3, h4⟩ := hnext s.world .refl hI hI' hw
        exact ih _ h4 h1 h2 h3 (hstart.note rfl rfl fun n => ⟨rfl, hcall⟩)
      | succ left =>
        rw [hd] at hsame
        simp only [hsame]
        exact ⟨hI, hI', hw, ⟨rfl, hcall, hnext⟩, hstart⟩

namespace Twin

variable {st st' : Stage C R σ α}

/-- Jobs that find their locks free do the same when both are polled. -/
theorem poll (hdelay : ∀ c d, K.call c d → v.delay c = v.delay d)
    (h : Twin v others K i i' st st' s s')
    (hlock : ∀ key seen body, st = .fresh (.locked key seen body) →
      (s.locks.lock i key).holds i key = true)
    (hlock' : ∀ key seen body, st' = .fresh (.locked key seen body) →
      (s'.locks.lock i' key).holds i' key = true) :
    Twin v others K i i' (st.poll v i s).1 (st'.poll v i' s').1 (st.poll v i s).2
      (st'.poll v i' s').2 := by
  obtain ⟨hI, hI', hw, hstage, hlog⟩ := h
  cases st with
  | fresh job =>
    cases st' with
    | fresh job' =>
      cases job with
      | settled a =>
        cases job' with
        | settled b => exact ⟨hI, hI', hw, hstage, hlog⟩
        | locked key' seen' body' => exact hstage.elim
      | locked key seen body =>
        cases job' with
        | settled b => exact hstage.elim
        | locked key' seen' body' =>
          simp only [Stage.poll, hlock key seen body rfl, hlock' key' seen' body' rfl, if_true]
          exact Workflow.goOn_alike hdelay (hstage _ _ hI hI' hw) hI hI' hw hlog
    | _ => cases job <;> exact hstage.elim
  | queued key seen body => exact hstage.elim
  | calling key seen left c next =>
    cases st' with
    | calling key' seen' left' d next' =>
      obtain ⟨rfl, hcall, hnext⟩ := hstage
      simp only [Stage.poll]
      split
      · obtain ⟨h1, h2, h3, h4⟩ := hnext s.world .refl hI hI' hw
        exact Workflow.goOn_alike hdelay h4 h1 h2 h3 (hlog.note rfl rfl fun n => ⟨rfl, hcall⟩)
      · exact ⟨hI, hI', hw, ⟨rfl, hcall, hnext⟩, hlog⟩
    | fresh job' => cases job' <;> exact hstage.elim
    | _ => exact hstage.elim
  | finished a =>
    cases st' with
    | finished b => exact ⟨hI, hI', hw, hstage, hlog⟩
    | fresh job' => cases job' <;> exact hstage.elim
    | _ => exact hstage.elim
  | dropped seen => exact hstage.elim

theorem mark (h : Twin v others K i i' st st' s s') (n : Nat) :
    Twin v others K i i' st st' (s.note (.round n)) (s'.note (.round n)) := by
  refine ⟨h.inv, h.inv', h.world, h.stage, ?_⟩
  rw [Shared.note_log, Shared.note_log, timeline_concat, timeline_concat]
  exact ⟨rfl, h.log.events⟩

/-- What others do is nothing to twins. -/
theorem of_others (hsame : ∀ w w₂ w', others w w₂ → K.world w w' → K.world w₂ w')
    (h : Twin v others K i i' st st' s s') {s₂ : Shared C W} (hI : K.inv s₂.world)
    (hw : ReflTransGen others s.world s₂.world) {j : Nat} (hij : j ≠ i)
    (hlog : Logs j s.log s₂.log) : Twin v others K i i' st st' s₂ s' where
  inv := hI
  inv' := h.inv'
  world := by
    have hmoved : ∀ {w₂ : W}, ReflTransGen others s.world w₂ → K.world w₂ s'.world := by
      intro w₂ hmoves
      induction hmoves with
      | refl => exact h.world
      | tail _ hstep ih => exact hsame _ _ _ hstep ih
    exact hmoved hw
  stage := h.stage.of_others hw
  log := by
    rw [timeline_logs hij hlog]
    exact h.log

end Twin

end Alike

namespace Pool

section Apart

variable {v : Service C R W} {own : String → W → W → Prop} {K : Comparison C α W}
  {keys : Nat → Option String} {key : String} {i n : Nat} {p q : Pool C R σ α W}

/-- Job `i` of a pool, whose key nobody else needs, and the only job of another are twins. -/
structure Apart (v : Service C R W) (own : String → W → W → Prop) (K : Comparison C α W)
    (keys : Nat → Option String) (key : String) (i : Nat) (p q : Pool C R σ α W) : Prop where
  guarded : p.Guarded v K.inv own fun _ _ => True
  keyed : p.Keyed keys
  fits : q.Fits
  twin : ∃ st st', p.stages[i]? = some st ∧ q.stages = [st'] ∧
    Twin v (Others own key) K i 0 st st' p.shared q.shared

theorem needs_of_use {st : Stage C R σ α} {k : String} (h : st.use.key? = some k) :
    st.needs = some k := by
  cases st with
  | queued key seen body => exact h
  | calling key seen left c next => exact h
  | _ => cases h

/-- The lock of a job is free if nobody else needs its key. -/
theorem use_ne_of_keyed (hkeyed : p.Keyed keys) (hother : ∀ j, j ≠ i → keys j ≠ some key)
    (hidle : p.use i = .idle) (j : Nat) : (p.use j).key? ≠ some key := by
  intro hj
  obtain ⟨st, hst, huse⟩ := exists_get_of_use (p := p) (i := j) (by
    intro hidle
    rw [hidle] at hj
    cases hj)
  rw [← huse] at hj
  by_cases hij : j = i
  · subst hij
    rw [huse, hidle] at hj
    cases hj
  · exact hother j hij (hkeyed j st hst key (needs_of_use hj))

namespace Apart

theorem mark (h : Apart v own K keys key i p q) (n : Nat) :
    Apart v own K keys key i (p.act v (.mark n)) (q.act v (.mark n)) := by
  obtain ⟨st, st', hst, hst', htwin⟩ := h.twin
  exact ⟨h.guarded.act (.mark n), h.keyed.act v (.mark n), h.fits.act v (.mark n),
    st, st', hst, hst', htwin.mark n⟩

variable (hother : ∀ j, j ≠ i → keys j ≠ some key)
  (hsame : ∀ w w₂ w', Others own key w w₂ → K.world w w' → K.world w₂ w')
  (hdelay : ∀ c d, K.call c d → v.delay c = v.delay d) (hkey : ∀ k, keys i = some k → k = key)

include hother hsame in
omit hdelay hkey in
/-- A poll of another job. -/
theorem poll_other (h : Apart v own K keys key i p q) {j : Nat} (hij : j ≠ i) :
    Apart v own K keys key i (p.act v (.poll j)) q := by
  obtain ⟨st, st', hst, hst', htwin⟩ := h.twin
  refine ⟨h.guarded.act (.poll j), h.keyed.act v (.poll j), h.fits, st, st', ?_, hst', ?_⟩
  · refine onJob_keeps (I := fun q => q.stages[i]? = some st) (fun u _ => ?_) hst
    rw [List.getElem?_set_ne hij]
    exact hst
  · refine onJob_keeps (I := fun r => Twin v (Others own key) K i 0 st st' r.shared q.shared)
      (fun u hu => ?_) htwin
    obtain ⟨hI, -, hmoves⟩ := Stage.safe_poll j h.guarded.inv (h.guarded.safe j u hu)
    refine htwin.of_others hsame hI ?_ hij (u.poll_logs v j p.shared).1
    rcases hmoves with hworld | ⟨k, hk, hmoves⟩
    · rw [hworld]
    · have hne : k ≠ key := by
        rintro rfl
        exact hother j hij (h.keyed j u hu k hk)
      have hle : own k ≤ Others own key := fun w w' hw => ⟨k, hne, hw⟩
      exact ReflTransGen.mono hle _ _ hmoves

include hother hdelay hkey in
omit hsame in
/-- A poll of the job, here and there. -/
theorem poll_own (h : Apart v own K keys key i p q) :
    Apart v own K keys key i (p.act v (.poll i)) (q.act v (.poll 0)) := by
  obtain ⟨st, st', hst, hst', htwin⟩ := h.twin
  have hget : q.stages[0]? = some st' := by rw [hst']; rfl
  have hp : p.act v (.poll i) =
      ⟨p.stages.set i (st.poll v i p.shared).1, (st.poll v i p.shared).2⟩ := onJob_of_get hst _
  have hq : q.act v (.poll 0) =
      ⟨q.stages.set 0 (st'.poll v 0 q.shared).1, (st'.poll v 0 q.shared).2⟩ := onJob_of_get hget _
  have hguarded := h.guarded.act (.poll i)
  have hkeyed := h.keyed.act v (.poll i)
  have hfits := h.fits.act v (.poll 0)
  rw [hp] at hguarded hkeyed ⊢
  rw [hq] at hfits ⊢
  refine ⟨hguarded, hkeyed, hfits, _, _, ?_, ?_, htwin.poll hdelay ?_ ?_⟩
  · exact List.getElem?_set_self (List.getElem?_eq_some_iff.1 hst).1
  · rw [hst']
    rfl
  · rintro k seen body rfl
    have hk : k = key := hkey k (h.keyed i _ hst k rfl)
    subst hk
    exact KeyedLocks.Fits.holds_lock_of_free h.guarded.fits
      (use_ne_of_keyed h.keyed hother (use_of_get hst)) i
  · rintro k seen body rfl
    refine KeyedLocks.Fits.holds_lock_of_free h.fits (fun j hj => ?_) 0
    cases j with
    | zero =>
      rw [use_of_get hget] at hj
      cases hj
    | succ j =>
      have hnone : q.use (j + 1) = .idle := by
        rw [use, hst']
        rfl
      rw [hnone] at hj
      cases hj

include hother hsame in
omit hdelay hkey in
theorem turns_other (m : Nat) (h : Apart v own K keys key i p q) {j : Nat} (hij : i < j) :
    Apart v own K keys key i (run v (turnActions n j (List.replicate m none)) p) q := by
  induction m generalizing j p with
  | zero => exact h
  | succ m ih =>
    have hpoll : turnActions n j (List.replicate (m + 1) none) =
        .poll j :: turnActions n (j + 1) (List.replicate m none) := rfl
    rw [hpoll, run_cons]
    exact ih (h.poll_other hother hsame (Nat.ne_of_gt hij)) (Nat.lt_succ_of_lt hij)

include hother hsame hdelay hkey

/-- The turns of a round are a poll of the job alone. -/
theorem turns (m : Nat) (h : Apart v own K keys key i p q) {j : Nat} (hji : j ≤ i)
    (him : i < j + m) :
    Apart v own K keys key i (run v (turnActions n j (List.replicate m none)) p)
      (q.act v (.poll 0)) := by
  induction m generalizing j p with
  | zero => omega
  | succ m ih =>
    have hpoll : turnActions n j (List.replicate (m + 1) none) =
        .poll j :: turnActions n (j + 1) (List.replicate m none) := rfl
    rw [hpoll, run_cons]
    by_cases hij : j = i
    · subst hij
      exact (h.poll_own hother hdelay hkey).turns_other hother hsame m (Nat.lt_succ_self j)
    · exact ih (h.poll_other hother hsame hij) (by omega) (by omega)

/-- Round by round the job among others does what the job alone does. -/
theorem rounds {m : Nat} (him : i < m) (k : Nat) (h : Apart v own K keys key i p q) :
    Apart v own K keys key i (run v (roundsActions (List.replicate m none) n k) p)
      (run v (roundsActions [none] n k) q) := by
  induction k generalizing n p q with
  | zero => exact h
  | succ k ih =>
    have hround := (h.mark n).turns hother hsame hdelay hkey (n := n) m (Nat.zero_le i) (by omega)
    rw [roundsActions, roundsActions, run_append, run_append]
    exact ih hround

end Apart

end Apart

/-! ### Rounds after the end -/

theorem roundsActions_add (ds : List (Option Nat)) (n k j : Nat) :
    roundsActions ds n (k + j) = roundsActions ds n k ++ roundsActions ds (n + k) j := by
  induction k generalizing n with
  | zero => rw [Nat.zero_add, Nat.add_zero]; rfl
  | succ k ih =>
    have hadd : n + 1 + k = n + (k + 1) := by omega
    rw [Nat.add_right_comm k 1 j, roundsActions, ih, roundsActions, List.append_assoc, hadd]

/-- When all jobs are over, further rounds change neither stages nor worlds nor timelines. -/
theorem IsOver.rounds {v : Service C R W} {p : Pool C R σ α W} (h : p.IsOver)
    (ds : List (Option Nat)) (n k : Nat) :
    (Pool.run v (roundsActions ds n k) p).stages = p.stages ∧
      ∀ i, (timeline i (Pool.run v (roundsActions ds n k) p).shared.log).2 =
        (timeline i p.shared.log).2 := by
  induction k generalizing n p with
  | zero => exact ⟨rfl, fun _ => rfl⟩
  | succ k ih =>
    have hmark : (p.act v (.mark n)).IsOver := h
    have hturns : Pool.run v (turnActions n 0 ds) (p.act v (.mark n)) = p.act v (.mark n) := by
      refine run_keeps v (I := fun q => q = p.act v (.mark n)) (fun q a ha hq => ?_) rfl
      obtain ⟨j, rfl | rfl, -⟩ := job_of_mem_turnActions ha
      · rw [hq, hmark.poll]
      · rw [hq, hmark.drop]
    obtain ⟨hstages, htimes⟩ := ih (p := p.act v (.mark n)) hmark (n + 1)
    rw [roundsActions, roundActions, List.cons_append, run_cons, run_append, hturns]
    refine ⟨hstages, fun i => (htimes i).trans ?_⟩
    have hlog : (p.act v (.mark n)).shared.log = p.shared.log ++ [.round n] := rfl
    rw [hlog, timeline_concat]
    rfl

section Over

variable {v : Service C R W} {own : String → W → W → Prop} {K : Comparison C α W}
  {keys : Nat → Option String} {key : String} {i : Nat} {p q : Pool C R σ α W}

/-- A job among others ends as the job alone, and has made the same calls in the same rounds. -/
theorem Apart.finished (h : Apart v own K keys key i p q)
    (hother : ∀ j, j ≠ i → keys j ≠ some key)
    (hsame : ∀ w w₂ w', Others own key w w₂ → K.world w w' → K.world w₂ w')
    (hdelay : ∀ c d, K.call c d → v.delay c = v.delay d) (hkey : ∀ k, keys i = some k → k = key)
    {m : Nat} (him : i < m) {k l : Nat} {p' q' : Pool C R σ α W}
    (hp : run v (roundsActions (List.replicate m none) 1 k) p = p') (hover : p'.IsOver)
    (hq : run v (roundsActions [none] 1 l) q = q') (hover' : q'.IsOver) :
    ∃ a b, p'.stages[i]? = some (.finished a) ∧ q'.stages = [.finished b] ∧ K.result a b ∧
      List.Forall₂ K.Event (timeline i p'.shared.log).2 (timeline 0 q'.shared.log).2 := by
  -- both get the rounds of both; to the one that is over first they do nothing more
  have hrounds := h.rounds hother hsame hdelay hkey him (n := 1) (k + l)
  obtain ⟨hstages, htimes⟩ := hover.rounds (v := v) (List.replicate m none) (1 + k) l
  obtain ⟨hstages', htimes'⟩ := hover'.rounds (v := v) [none] (1 + l) k
  obtain ⟨st, st', hst, hst', htwin⟩ := hrounds.twin
  have hstage := htwin.stage
  have hevents := htwin.log.events
  rw [roundsActions_add, run_append, hp] at hst hevents
  rw [Nat.add_comm k l, roundsActions_add, run_append, hq] at hst' hevents
  rw [hstages] at hst
  rw [hstages'] at hst'
  rw [htimes, htimes'] at hevents
  obtain ⟨a, b, rfl, rfl, hresult⟩ := hstage.finished (hover st (List.mem_of_getElem? hst))
  exact ⟨a, b, hst, hst', hresult, hevents⟩

end Over

end Pool

end Oncall
