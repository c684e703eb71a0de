import Oncall.Proofs.Pool.Exclusion
import Mathlib.Logic.Relation

/-! Jobs that share a world. A workflow is safe if each of its calls keeps an invariant of the world
and is one of its own moves, although others may have moved the world before any of them. If the
bodies of all jobs are safe against the moves of the jobs with other keys, the invariant holds after
every action of every run: jobs with the same key do not come between the calls of one another. -/

namespace Oncall

open KeyedLocks (Use)
open Relation (ReflTransGen)

variable {C : Type} {R : C → Type} {σ α W : Type}

namespace Workflow

/-- Whatever others do before each call, every call keeps `I` and makes a move of `own`, and the end
satisfies `Q`. -/
def Safe (answer : (c : C) → W → R c × W) (I : W → Prop) (others own : W → W → Prop)
    (Q : α → W → Prop) : Workflow C R σ α → W → Prop
  | .done a, w => Q a w
  | .call _ c next, w => ∀ w', ReflTransGen others w w' → I w' →
      I (answer c w').2 ∧ own w' (answer c w').2 ∧
        (next (answer c w').1).Safe answer I others own Q (answer c w').2

variable {answer : (c : C) → W → R c × W} {I : W → Prop} {others own : W → W → Prop}
  {Q : α → W → Prop}

/-- A call that has not been made is safe after moves of others. -/
theorem Safe.of_others (seen : σ) {c : C} {next : R c → Workflow C R σ α} {w w' : W}
    (h : (call seen c next).Safe answer I others own Q w) (hw : ReflTransGen others w w') :
    (call seen c next).Safe answer I others own Q w' :=
  fun w'' hw' => h w'' (hw.trans hw')

theorem Safe.weaken {Q' : α → W → Prop} (hQ : ∀ a w, Q a w → Q' a w) {body : Workflow C R σ α}
    {w : W} (h : body.Safe answer I others own Q w) : body.Safe answer I others own Q' w := by
  induction body generalizing w with
  | done a => exact hQ a w h
  | call seen c next ih =>
    intro w' hw' hI
    obtain ⟨hI', hown, hnext⟩ := h w' hw' hI
    exact ⟨hI', hown, ih _ hnext⟩

/-- One safe workflow after another is safe. -/
theorem Safe.bind {β : Type} {Q' : β → W → Prop} {body : Workflow C R σ α}
    {f : α → Workflow C R σ β} {w : W} (h : body.Safe answer I others own Q w)
    (hf : ∀ a w, Q a w → (f a).Safe answer I others own Q' w) :
    (body.bind f).Safe answer I others own Q' w := by
  induction body generalizing w with
  | done a => exact hf a w h
  | call seen c next ih =>
    intro w' hw' hI
    obtain ⟨hI', hown, hnext⟩ := h w' hw' hI
    exact ⟨hI', hown, ih _ hnext⟩

/-- Without others, a workflow of own moves is safe if it runs to a good end. -/
theorem safe_of_run {body : Workflow C R σ α} {w : W} (hothers : ∀ w w', ¬ others w w')
    (hown : ∀ c w, own w (answer c w).2)
    (h : Q (body.run answer w).1 (body.run answer w).2) :
    body.Safe answer (fun _ => True) others own Q w := by
  induction body generalizing w with
  | done a => exact h
  | call seen c next ih =>
    intro w' hw' _
    have hsame : w' = w := by
      rcases hw'.cases_head with rfl | ⟨u, hu, -⟩
      · rfl
      · exact absurd hu (hothers w u)
    subst hsame
    exact ⟨trivial, hown c w', ih _ h⟩

/-- All calls that a workflow may make satisfy `P`. -/
def Only (P : C → Prop) : Workflow C R σ α → Prop
  | .done _ => True
  | .call _ c next => P c ∧ ∀ r, (next r).Only P

theorem only_of_forall {P : C → Prop} (h : ∀ c, P c) (body : Workflow C R σ α) : body.Only P := by
  induction body with
  | done a => trivial
  | call seen c next ih => exact ⟨h c, ih⟩

theorem Only.weaken {P Q : C → Prop} (hPQ : ∀ c, P c → Q c) {body : Workflow C R σ α}
    (h : body.Only P) : body.Only Q := by
  induction body with
  | done a => trivial
  | call seen c next ih => exact ⟨hPQ c h.1, fun r => ih r (h.2 r)⟩

theorem Only.bind {β : Type} {P : C → Prop} {body : Workflow C R σ α} {f : α → Workflow C R σ β}
    (h : body.Only P) (hf : ∀ a, (f a).Only P) : (body.bind f).Only P := by
  induction body with
  | done a => exact hf a
  | call seen c next ih => exact ⟨h.1, fun r => ih r (h.2 r)⟩

theorem Only.lift {D τ : Type} {S : D → Type} {P : D → Prop} {f : C → D}
    {back : (c : C) → S (f c) → R c} {see : σ → τ} {body : Workflow C R σ α}
    (h : body.Only fun c => P (f c)) : (body.lift f back see).Only P := by
  induction body with
  | done a => trivial
  | call seen c next ih => exact ⟨h.1, fun r => ih _ (h.2 _)⟩

/-- What every single call keeps, a workflow of such calls keeps among whatever others do. -/
theorem Only.safe {P : C → Prop} (hI : ∀ c w, P c → I w → I (answer c w).2)
    {body : Workflow C R σ α} (h : body.Only P) (w : W) :
    body.Safe answer I others (fun _ _ => True) (fun _ _ => True) w := by
  induction body generalizing w with
  | done a => trivial
  | call seen c next ih =>
    intro w' _ hw'
    exact ⟨hI c w' h.1 hw', trivial, ih _ (h.2 _) _⟩

/-- A safe workflow that runs alone moves the world by its own moves. -/
theorem Safe.run {body : Workflow C R σ α} {w : W} (h : body.Safe answer I others own Q w)
    (hI : I w) : I (body.run answer w).2 ∧ ReflTransGen own w (body.run answer w).2 ∧
      Q (body.run answer w).1 (body.run answer w).2 := by
  induction body generalizing w with
  | done a => exact ⟨hI, .refl, h⟩
  | call seen c next ih =>
    obtain ⟨hI', hown, hnext⟩ := h w .refl hI
    obtain ⟨hI'', hmoves, hQ⟩ := ih _ hnext hI'
    exact ⟨hI'', .head hown hmoves, hQ⟩

/-- The calls of a workflow that runs alone, each with the world that it is made in. -/
def calls (answer : (c : C) → W → R c × W) : Workflow C R σ α → W → List (C × W)
  | .done _, _ => []
  | .call _ c next, w => (c, w) :: (next (answer c w).1).calls answer (answer c w).2

/-- A safe workflow that runs alone makes each call after moves of its own. -/
theorem Safe.calls {body : Workflow C R σ α} {w : W} (h : body.Safe answer I others own Q w)
    (hI : I w) {x : C × W} (hx : x ∈ body.calls answer w) : I x.2 ∧ ReflTransGen own w x.2 := by
  induction body generalizing w with
  | done a => cases hx
  | call seen c next ih =>
    obtain ⟨hI', hown, hnext⟩ := h w .refl hI
    rcases List.mem_cons.1 hx with rfl | hx
    · exact ⟨hI, .refl⟩
    · obtain ⟨hx', hmoves⟩ := ih _ hnext hI' hx
      exact ⟨hx', .head hown hmoves⟩

theorem Only.calls {P : C → Prop} {body : Workflow C R σ α} (h : body.Only P) {w : W} {x : C × W}
    (hx : x ∈ body.calls answer w) : P x.1 := by
  induction body generalizing w with
  | done a => cases hx
  | call seen c next ih =>
    rcases List.mem_cons.1 hx with rfl | hx
    · exact h.1
    · exact ih _ (h.2 _) hx

/-- Worlds that answer the calls of a workflow alike, and stay related, run it alike. -/
theorem Only.run_related {W' : Type} {answer' : (c : C) → W' → R c × W'} {P : C → Prop}
    {S : W → W' → Prop}
    (hS : ∀ c w w', P c → S w w' →
      (answer c w).1 = (answer' c w').1 ∧ S (answer c w).2 (answer' c w').2)
    {body : Workflow C R σ α} (hbody : body.Only P) {w : W} {w' : W'} (h : S w w') :
    (body.run answer w).1 = (body.run answer' w').1 ∧
      S (body.run answer w).2 (body.run answer' w').2 := by
  induction body generalizing w w' with
  | done a => exact ⟨rfl, h⟩
  | call seen c next ih =>
    obtain ⟨hreply, hworld⟩ := hS c w w' hbody.1 h
    rw [run_call, run_call, hreply]
    exact ih _ (hbody.2 _) hworld

end Workflow

/-- Moves of the jobs with other keys. -/
def Others (own : String → W → W → Prop) (key : String) (w w' : W) : Prop :=
  ∃ other, other ≠ key ∧ own other w w'

section Guarded

variable (v : Service C R W) (I : W → Prop) (own : String → W → W → Prop) (Q : α → W → Prop)

/-- What is left of a job with this key is safe. -/
def Workflow.SafeFor (key : String) (body : Workflow C R σ α) (w : W) : Prop :=
  body.Safe v.answer I (Others own key) (own key) Q w

namespace Stage

/-- What is left of a job is safe: from here if it holds its lock, from anywhere if it does not. -/
def Safe (w : W) : Stage C R σ α → Prop
  | .fresh (.locked key _ body) | .queued key _ body => ∀ w, I w → body.SafeFor v I own Q key w
  | .calling key seen _ c next => (Workflow.call seen c next).SafeFor v I own Q key w
  | _ => True

variable {v I own Q} {w w' : W}

theorem Safe.of_others {st : Stage C R σ α} (h : st.Safe v I own Q w)
    (hw : ∀ key, st.use = .holding key → ReflTransGen (Others own key) w w') :
    st.Safe v I own Q w' := by
  cases st with
  | fresh job => cases job <;> exact h
  | queued key seen body => exact h
  | calling key seen left c next => exact Workflow.Safe.of_others seen h (hw key rfl)
  | finished a => trivial
  | dropped seen => trivial

private theorem safe_goOn (i : Nat) (key : String) {body : Workflow C R σ α} {s : Shared C W}
    (hI : I s.world) (hb : body.SafeFor v I own Q key s.world)
    (hw : ReflTransGen (own key) w s.world) :
    I (body.goOn v i key s).2.world ∧
      (body.goOn v i key s).1.Safe v I own Q (body.goOn v i key s).2.world ∧
      ReflTransGen (own key) w (body.goOn v i key s).2.world := by
  refine Workflow.goOn_keeps v i key
    (K := fun b s => I s.world ∧ b.SafeFor v I own Q key s.world ∧ ReflTransGen (own key) w s.world)
    (J := fun st s => I s.world ∧ st.Safe v I own Q s.world ∧ ReflTransGen (own key) w s.world)
    ?_ ?_ ?_ body s ⟨hI, hb, hw⟩
  · rintro a s ⟨hI, -, hw⟩
    exact ⟨hI, trivial, hw⟩
  · rintro seen c next left s - ⟨hI, hb, hw⟩
    exact ⟨hI, hb, hw⟩
  · rintro seen c next s - ⟨hI, hb, hw⟩
    obtain ⟨hI', hown, hnext⟩ := hb s.world .refl hI
    exact ⟨hI', hnext, hw.tail hown⟩

/-- A poll of a safe job makes moves of its key and leaves the job safe. -/
theorem safe_poll (i : Nat) {st : Stage C R σ α} {s : Shared C W} (hI : I s.world)
    (h : st.Safe v I own Q s.world) :
    I (st.poll v i s).2.world ∧ (st.poll v i s).1.Safe v I own Q (st.poll v i s).2.world ∧
      ((st.poll v i s).2.world = s.world ∨
        ∃ key, st.needs = some key ∧ ReflTransGen (own key) s.world (st.poll v i s).2.world) := by
  have hgo : ∀ (key : String) (body : Workflow C R σ α) (s' : Shared C W), st.needs = some key →
      I s'.world → body.SafeFor v I own Q key s'.world → ReflTransGen (own key) s.world s'.world →
      I (body.goOn v i key s').2.world ∧
        (body.goOn v i key s').1.Safe v I own Q (body.goOn v i key s').2.world ∧
        ((body.goOn v i key s').2.world = s.world ∨ ∃ k, st.needs = some k ∧
          ReflTransGen (own k) s.world (body.goOn v i key s').2.world) := by
    intro key body s' hk hI' hb hw
    obtain ⟨h1, h2, h3⟩ := safe_goOn i key hI' hb hw
    exact ⟨h1, h2, Or.inr ⟨key, hk, h3⟩⟩
  cases st with
  | fresh job =>
    cases job with
    | settled a => exact ⟨hI, trivial, Or.inl rfl⟩
    | locked key seen body =>
      simp only [poll]
      split
      · exact hgo key body _ rfl hI (h _ hI) .refl
      · exact ⟨hI, h, Or.inl rfl⟩
  | queued key seen body =>
    simp only [poll]
    split
    · exact hgo key body _ rfl hI (h _ hI) .refl
    · exact ⟨hI, h, Or.inl rfl⟩
  | calling key seen left c next =>
    simp only [poll]
    split
    · obtain ⟨hI', hown, hnext⟩ := h s.world .refl hI
      exact hgo key _ (s.act v i c).2 rfl hI' hnext (.single hown)
    · exact ⟨hI, h, Or.inl rfl⟩
  | finished a => exact ⟨hI, trivial, Or.inl rfl⟩
  | dropped seen => exact ⟨hI, trivial, Or.inl rfl⟩

theorem world_drop (st : Stage C R σ α) (i : Nat) (s : Shared C W) :
    (st.drop i s).2.world = s.world := by
  cases st with
  | fresh job => cases job <;> rfl
  | _ => rfl

theorem safe_drop (i : Nat) (st : Stage C R σ α) (s : Shared C W) :
    (st.drop i s).1.Safe v I own Q w := by
  cases st with
  | fresh job => cases job <;> trivial
  | _ => trivial

end Stage

namespace Pool

/-- The invariant holds, and what is left of every job is safe. -/
structure Guarded (p : Pool C R σ α W) : Prop where
  fits : p.Fits
  inv : I p.shared.world
  safe : ∀ (i : Nat) (st : Stage C R σ α), p.stages[i]? = some st → st.Safe v I own Q p.shared.world

variable {v I own Q}

/-- Moves of a job are moves of others for every other job that holds its lock. -/
theorem Guarded.others {p : Pool C R σ α W} (h : p.Guarded v I own Q) {i j : Nat} (hij : j ≠ i)
    {st : Stage C R σ α} (hst : p.stages[i]? = some st) {key : String}
    (hj : p.use j = .holding key) :
    ReflTransGen (Others own key) p.shared.world (st.poll v i p.shared).2.world := by
  by_cases hk : st.needs = some key
  · rw [(st.poll_of_held v (use_of_get hst) h.fits hij.symm hj hk).1]
  · rcases (Stage.safe_poll i h.inv (h.safe i st hst)).2.2 with he | ⟨other, ho, hm⟩
    · rw [he]
    · have hne : other ≠ key := by
        rintro rfl
        exact hk ho
      have hle : own other ≤ Others own key := fun w w' hw => ⟨other, hne, hw⟩
      exact ReflTransGen.mono hle _ _ hm

theorem Guarded.act {p : Pool C R σ α W} (h : p.Guarded v I own Q) (a : Action) :
    (p.act v a).Guarded v I own Q := by
  have hother : ∀ {i : Nat} {st' : Stage C R σ α} {s' : Shared C W}, st'.Safe v I own Q s'.world →
      (∀ j key, j ≠ i → p.use j = .holding key →
        ReflTransGen (Others own key) p.shared.world s'.world) →
      ∀ (j : Nat) (st : Stage C R σ α), (p.stages.set i st')[j]? = some st →
        st.Safe v I own Q s'.world := by
    intro i st' s' hst' hmoves j st hj
    rcases get_set_cases hj with ⟨rfl, rfl⟩ | ⟨hji, hj⟩
    · exact hst'
    · exact (h.safe j st hj).of_others fun key hkey =>
        hmoves j key hji ((use_of_get hj).trans hkey)
  cases a with
  | mark n => exact ⟨h.fits.act v (.mark n), h.inv, h.safe⟩
  | poll i =>
    refine ⟨h.fits.act v (.poll i), ?_, ?_⟩
    · refine onJob_keeps (I := fun q => I q.shared.world) (fun st hst => ?_) h.inv
      exact (Stage.safe_poll i h.inv (h.safe i st hst)).1
    · refine onJob_keeps (I := fun q => ∀ (j : Nat) (st : Stage C R σ α),
        q.stages[j]? = some st → st.Safe v I own Q q.shared.world) (fun st hst => ?_) h.safe
      exact hother (Stage.safe_poll i h.inv (h.safe i st hst)).2.1
        fun j key hj hkey => h.others hj hst hkey
  | drop i =>
    refine ⟨h.fits.act v (.drop i), ?_, ?_⟩
    · refine onJob_keeps (I := fun q => I q.shared.world) (fun st hst => ?_) h.inv
      rw [st.world_drop]
      exact h.inv
    · refine onJob_keeps (I := fun q => ∀ (j : Nat) (st : Stage C R σ α),
        q.stages[j]? = some st → st.Safe v I own Q q.shared.world) (fun st hst => ?_) h.safe
      refine hother (st.safe_drop i p.shared) fun j key _ _ => ?_
      rw [st.world_drop]

theorem Guarded.run {p : Pool C R σ α W} (h : p.Guarded v I own Q) (as : List Action) :
    (run v as p).Guarded v I own Q :=
  run_keeps v (fun _ a _ hq => hq.act a) h

theorem guarded_start {jobs : List (Job C R σ α)} {w : W} (hI : I w)
    (hjobs : ∀ key seen body, Job.locked key seen body ∈ jobs →
      ∀ w, I w → body.SafeFor v I own Q key w) :
    (start jobs w).Guarded v I own Q where
  fits := fits_start jobs w
  inv := hI
  safe i st hst := by
    simp only [start, List.getElem?_map, Option.map_eq_some_iff] at hst
    obtain ⟨job, hjob, rfl⟩ := hst
    cases job with
    | settled a => trivial
    | locked key seen body => exact hjobs key seen body (List.mem_of_getElem? hjob)

end Pool

end Guarded

end Oncall
