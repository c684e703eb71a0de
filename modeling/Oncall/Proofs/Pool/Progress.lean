import Oncall.Proofs.Pool.Exclusion
import Mathlib.Algebra.Order.BigOperators.Group.Finset

/-! The polling loop comes to an end. Every job has a bound on the polls that bring it forward: one
to ask for its lock, one to take it, and as many as its calls take. No action raises a bound, and in
every round some job is brought forward: one that is not waiting, or the head of a line. So after as
many rounds as the bounds add up to, all jobs are over. -/

namespace Oncall

open KeyedLocks (Use)

variable {C : Type} {R : C → Type} {σ α W : Type}

namespace Workflow

/-- The calls of a workflow take at most so many polls, whatever is replied. -/
def Within (v : Service C R W) : Workflow C R σ α → Nat → Prop
  | .done _, _ => True
  | .call _ c next, n => ∃ m, v.delay c + m ≤ n ∧ ∀ r, (next r).Within v m

theorem Within.mono {v : Service C R W} {body : Workflow C R σ α} {m n : Nat}
    (h : body.Within v m) (hmn : m ≤ n) : body.Within v n := by
  cases body with
  | done a => trivial
  | call seen c next =>
    obtain ⟨k, hk, hnext⟩ := h
    exact ⟨k, by omega, hnext⟩

end Workflow

namespace Stage

/-- At most so many polls bring the job forward. -/
def Within (v : Service C R W) : Stage C R σ α → Nat → Prop
  | .fresh (.settled _), n => 1 ≤ n
  | .fresh (.locked _ _ body), n => ∃ m, body.Within v m ∧ m + 2 ≤ n
  | .queued _ _ body, n => ∃ m, body.Within v m ∧ m + 1 ≤ n
  | .calling _ _ left _ next, n => ∃ m, (∀ r, (next r).Within v m) ∧ max left 1 + m ≤ n
  | .finished _, _ | .dropped _, _ => True

theorem Within.pos_or_isOver {v : Service C R W} {st : Stage C R σ α} {n : Nat}
    (h : st.Within v n) : 0 < n ∨ st.isOver = true := by
  cases st with
  | fresh job =>
    left
    cases job with
    | settled a => exact h
    | locked key seen body => obtain ⟨m, -, hm⟩ := h; omega
  | queued key seen body => left; obtain ⟨m, -, hm⟩ := h; omega
  | calling key seen left c next => left; obtain ⟨m, -, hm⟩ := h; omega
  | finished a => exact Or.inr rfl
  | dropped seen => exact Or.inr rfl

theorem within_of_isOver {st : Stage C R σ α} (h : st.isOver = true) (v : Service C R W) (n : Nat) :
    st.Within v n := by
  cases st with
  | finished a => trivial
  | dropped seen => trivial
  | _ => simp [isOver] at h

/-- The polls of a workflow that goes on are those of its calls. -/
theorem within_goOn {v : Service C R W} {n : Nat} {body : Workflow C R σ α} (h : body.Within v n)
    (i : Nat) (key : String) (s : Shared C W) : (body.goOn v i key s).1.Within v n := by
  refine Workflow.goOn_keeps v i key (K := fun b _ => b.Within v n)
    (J := fun st _ => st.Within v n) ?_ ?_ ?_ body s h
  · intro a s _
    trivial
  · rintro seen c next left s hd ⟨m, hm, hnext⟩
    rw [hd] at hm
    exact ⟨m, hnext, by omega⟩
  · rintro seen c next s _ ⟨m, hm, hnext⟩
    exact (hnext _).mono (by omega)

/-- The next poll brings the job forward. -/
def Ready (i : Nat) (s : Shared C W) (st : Stage C R σ α) : Prop :=
  match st with
  | .queued key _ _ => (s.locks.line key).head? = some i
  | st => st.isOver = false

theorem isOver_drop (st : Stage C R σ α) (i : Nat) (s : Shared C W) :
    (st.drop i s).1.isOver = true := by
  cases st with
  | fresh job => cases job <;> rfl
  | _ => rfl

theorem within_poll {v : Service C R W} {st : Stage C R σ α} {n : Nat} (h : st.Within v n) (i : Nat)
    (s : Shared C W) : (st.poll v i s).1.Within v n := by
  cases st with
  | fresh job =>
    cases job with
    | settled a => trivial
    | locked key seen body =>
      obtain ⟨m, hb, hm⟩ := h
      simp only [poll]
      split
      · exact within_goOn (hb.mono (by omega)) i key _
      · exact ⟨m, hb, by omega⟩
  | queued key seen body =>
    obtain ⟨m, hb, hm⟩ := h
    simp only [poll]
    split
    · exact within_goOn (hb.mono (by omega)) i key _
    · exact ⟨m, hb, by omega⟩
  | calling key seen left c next =>
    obtain ⟨m, hnext, hm⟩ := h
    simp only [poll]
    split
    · exact within_goOn ((hnext _).mono (by omega)) i key _
    · exact ⟨m, hnext, by omega⟩
  | finished a => trivial
  | dropped seen => trivial

/-- A job that is ready needs fewer polls after its poll. -/
theorem within_poll_of_ready {v : Service C R W} {st : Stage C R σ α} {n i : Nat} {s : Shared C W}
    {use : Nat → Use} (hf : s.locks.Fits use) (hi : use i = st.use) (hr : st.Ready i s)
    (h : st.Within v n) : ∃ m < n, (st.poll v i s).1.Within v m := by
  cases st with
  | fresh job =>
    cases job with
    | settled a => exact ⟨0, h, trivial⟩
    | locked key seen body =>
      obtain ⟨m, hb, hm⟩ := h
      refine ⟨m + 1, by omega, ?_⟩
      simp only [poll]
      split
      · exact within_goOn (hb.mono (by omega)) i key _
      · exact ⟨m, hb, by omega⟩
  | queued key seen body =>
    obtain ⟨m, hb, hm⟩ := h
    obtain ⟨rest, hl⟩ : ∃ rest, s.locks.line key = i :: rest := by
      cases hl : s.locks.line key with
      | nil => simp [Ready, hl] at hr
      | cons j rest =>
        simp only [Ready, hl, List.head?_cons, Option.some.injEq] at hr
        exact ⟨rest, by rw [hr]⟩
    have hh := hf.holds_poll_head hl hi
    refine ⟨m, by omega, ?_⟩
    simp only [poll]
    rw [if_pos hh]
    exact within_goOn hb i key _
  | calling key seen left c next =>
    obtain ⟨m, hnext, hm⟩ := h
    refine ⟨n - 1, by omega, ?_⟩
    simp only [poll]
    split
    · exact within_goOn ((hnext _).mono (by omega)) i key _
    · exact ⟨m, hnext, by omega⟩
  | finished a => simp [Ready, isOver] at hr
  | dropped seen => simp [Ready, isOver] at hr

/-! ### The head of a line stays the head while others act -/

variable {use : Nat → Use} {i j : Nat} {key : String}

/-- A release makes nobody else the first in a line. -/
theorem head_release {locks : KeyedLocks Nat} {k : String} (hh : locks.holds i k = true)
    (hij : i ≠ j) (h : (locks.line key).head? = some j) :
    ((locks.release k).line key).head? = some j := by
  rw [KeyedLocks.line_release hh]
  split
  next hk =>
    obtain ⟨rest, hr⟩ := KeyedLocks.line_of_holds hh
    rw [← hk, hr, List.head?_cons] at h
    exact absurd (Option.some.inj h) hij
  next => exact h

private theorem head_goOn (v : Service C R W) (hij : i ≠ j) (k : String)
    (body : Workflow C R σ α) (s : Shared C W) (hh : s.locks.holds i k = true)
    (h : (s.locks.line key).head? = some j) :
    ((body.goOn v i k s).2.locks.line key).head? = some j := by
  refine Workflow.goOn_keeps v i k
    (K := fun _ s => s.locks.holds i k = true ∧ (s.locks.line key).head? = some j)
    (J := fun _ s => (s.locks.line key).head? = some j) ?_ ?_ ?_ body s ⟨hh, h⟩
  · exact fun _ _ hs => head_release hs.1 hij hs.2
  · exact fun _ _ _ _ _ _ hs => hs.2
  · exact fun _ _ _ _ _ hs => hs

theorem head_poll (v : Service C R W) (st : Stage C R σ α) {s : Shared C W}
    (hf : s.locks.Fits use) (hi : use i = st.use) (hij : i ≠ j)
    (h : (s.locks.line key).head? = some j) :
    ((st.poll v i s).2.locks.line key).head? = some j := by
  cases st with
  | fresh job =>
    cases job with
    | settled a => exact h
    | locked k seen body =>
      have hl : ((s.locks.lock i k).line key).head? = some j := by
        rw [KeyedLocks.line_lock hf.sound]
        split
        next hk => rw [hk, List.head?_append, h]; rfl
        next => exact h
      simp only [poll]
      split
      next hh => exact head_goOn v hij k body _ hh hl
      next => exact hl
  | queued k seen body =>
    have hl : ((s.locks.poll i k).line key).head? = some j := by rwa [KeyedLocks.line_poll]
    simp only [poll]
    split
    next hh => exact head_goOn v hij k body _ hh hl
    next => exact hl
  | calling k seen left c next =>
    simp only [poll]
    split
    · exact head_goOn v hij k _ _ ((hf.holds_iff i k).2 hi) h
    · exact h
  | finished a => exact h
  | dropped seen => exact h

theorem head_drop (st : Stage C R σ α) {s : Shared C W} (hf : s.locks.Fits use)
    (hi : use i = st.use) (hij : i ≠ j) (h : (s.locks.line key).head? = some j) :
    ((st.drop i s).2.locks.line key).head? = some j := by
  cases st with
  | fresh job => cases job <;> exact h
  | queued k seen body =>
    have hni : ¬ s.locks.holds i k = true := by
      rw [hf.holds_iff, hi]
      exact nofun
    simp only [drop]
    rw [KeyedLocks.line_abandon (hf.nodup k) hni]
    split
    next hk =>
      rw [hk]
      cases hl : s.locks.line key with
      | nil => simp [hl] at h
      | cons a rest =>
        have ha : a = j := by simpa [hl] using h
        rw [List.filter_cons_of_pos (by simpa [ha] using Ne.symm hij), List.head?_cons, ha]
    next => exact h
  | calling k seen left c next =>
    have hh : s.locks.holds i k = true := (hf.holds_iff i k).2 hi
    exact head_release hh hij h
  | finished a => exact h
  | dropped seen => exact h

theorem Ready.of_head {st : Stage C R σ α} {s s' : Shared C W} (h : st.Ready j s)
    (hh : ∀ key, (s.locks.line key).head? = some j → (s'.locks.line key).head? = some j) :
    st.Ready j s' := by
  cases st with
  | queued key seen body => exact hh key h
  | _ => exact h

end Stage

namespace Pool

def Within (v : Service C R W) (b : Nat → Nat) (p : Pool C R σ α W) : Prop :=
  ∀ (i : Nat) (st : Stage C R σ α), p.stages[i]? = some st → st.Within v (b i)

def Ready (j : Nat) (p : Pool C R σ α W) : Prop :=
  ∃ st : Stage C R σ α, p.stages[j]? = some st ∧ st.Ready j p.shared

theorem Within.set {v : Service C R W} {b : Nat → Nat} {p : Pool C R σ α W} (h : p.Within v b)
    {i n : Nat} {st' : Stage C R σ α} (hst : st'.Within v n) (s' : Shared C W) :
    Within v (Function.update b i n) ⟨p.stages.set i st', s'⟩ := by
  intro j st hj
  rcases get_set_cases hj with ⟨rfl, rfl⟩ | ⟨hji, hj⟩
  · rw [Function.update_self]
    exact hst
  · rw [Function.update_of_ne hji]
    exact h j st hj

/-- No action raises a bound. -/
theorem Within.act {v : Service C R W} {b : Nat → Nat} {p : Pool C R σ α W} (h : p.Within v b)
    (a : Action) : (p.act v a).Within v b := by
  have hset : ∀ (i : Nat) (st' : Stage C R σ α) (s' : Shared C W), st'.Within v (b i) →
      Within v b ⟨p.stages.set i st', s'⟩ := by
    intro i st' s' hst
    have hs := h.set (i := i) hst s'
    rwa [Function.update_eq_self] at hs
  cases a with
  | mark n => exact h
  | poll i => exact onJob_keeps (fun st hst => hset i _ _ (Stage.within_poll (h i st hst) i _)) h
  | drop i =>
    exact onJob_keeps (fun st _ => hset i _ _
      (Stage.within_of_isOver (st.isOver_drop i p.shared) v (b i))) h

theorem Within.run {v : Service C R W} {b : Nat → Nat} {p : Pool C R σ α W} (h : p.Within v b)
    (as : List Action) : (run v as p).Within v b :=
  run_keeps v (fun _ a _ hq => hq.act a) h

/-- An action on another job leaves a job ready. -/
theorem Ready.act {v : Service C R W} {p : Pool C R σ α W} {j : Nat} (hf : p.Fits) (h : p.Ready j)
    {a : Action} (hp : a ≠ .poll j) (hd : a ≠ .drop j) : (p.act v a).Ready j := by
  obtain ⟨st, hst, hr⟩ := h
  cases a with
  | mark n => exact ⟨st, hst, hr.of_head fun _ hk => hk⟩
  | poll i =>
    have hij : i ≠ j := fun e => hp (by rw [e])
    refine onJob_keeps (I := Ready j) (fun st' hst' => ?_) ⟨st, hst, hr⟩
    refine ⟨st, by rw [List.getElem?_set_ne hij, hst], hr.of_head fun _ hk => ?_⟩
    exact st'.head_poll v hf (use_of_get hst') hij hk
  | drop i =>
    have hij : i ≠ j := fun e => hd (by rw [e])
    refine onJob_keeps (I := Ready j) (fun st' hst' => ?_) ⟨st, hst, hr⟩
    refine ⟨st, by rw [List.getElem?_set_ne hij, hst], hr.of_head fun _ hk => ?_⟩
    exact st'.head_drop hf (use_of_get hst') hij hk

theorem Ready.pos {v : Service C R W} {b : Nat → Nat} {p : Pool C R σ α W} {j : Nat}
    (hw : p.Within v b) (h : p.Ready j) : 0 < b j := by
  obtain ⟨st, hst, hr⟩ := h
  rcases (hw j st hst).pos_or_isOver with hb | ho
  · exact hb
  · cases st <;> simp_all [Stage.Ready, Stage.isOver]

/-- A job that is ready has a lower bound once it was polled. -/
theorem exists_within_of_ready {v : Service C R W} {b : Nat → Nat} {p : Pool C R σ α W} {j : Nat}
    (hf : p.Fits) (hw : p.Within v b) (hr : p.Ready j) {as : List Action}
    (hj : Action.poll j ∈ as) :
    ∃ m < b j, (run v as p).Within v (Function.update b j m) := by
  induction as generalizing p with
  | nil => cases hj
  | cons a as ih =>
    rw [run_cons]
    by_cases hp : a = .poll j
    · obtain ⟨st, hst, hready⟩ := hr
      obtain ⟨m, hm, hwm⟩ :=
        Stage.within_poll_of_ready hf (use_of_get hst) hready (hw j st hst)
      refine ⟨m, hm, Within.run ?_ as⟩
      rw [hp, Pool.act, onJob_of_get hst]
      exact hw.set hwm _
    · by_cases hd : a = .drop j
      · refine ⟨0, hr.pos hw, Within.run ?_ as⟩
        obtain ⟨st, hst, -⟩ := hr
        rw [hd, Pool.act, onJob_of_get hst]
        exact hw.set (Stage.within_of_isOver (st.isOver_drop j p.shared) v 0) _
      · exact ih (hf.act v a) (hw.act a) (hr.act hf hp hd)
          ((List.mem_cons.1 hj).resolve_left (Ne.symm hp))

/-- As long as a job is not over, some job is ready. -/
theorem exists_ready {p : Pool C R σ α W} (hf : p.Fits) (h : ¬ p.IsOver) : ∃ j, p.Ready j := by
  obtain ⟨st, hmem, hst⟩ : ∃ st ∈ p.stages, st.isOver = false := by
    simpa [IsOver] using h
  obtain ⟨i, hi⟩ := List.getElem?_of_mem hmem
  cases hu : st.use with
  | waiting key =>
    have hline : i ∈ p.shared.locks.line key := by
      rw [KeyedLocks.Fits.mem_line hf, use_of_get hi, hu, Use.key?_waiting]
    obtain ⟨j, rest, hl⟩ := List.exists_cons_of_ne_nil (List.ne_nil_of_mem hline)
    have hj : (p.use j).key? = some key := by
      rw [← KeyedLocks.Fits.mem_line hf, hl]
      exact List.mem_cons_self
    obtain ⟨st', hst', he⟩ := exists_get_of_use (i := j) (p := p) fun e => by rw [e] at hj; cases hj
    refine ⟨j, st', hst', ?_⟩
    rw [← he] at hj
    cases st' with
    | queued k seen body =>
      have hk : k = key := Option.some.inj hj
      rw [Stage.Ready, hk, hl, List.head?_cons]
    | calling k seen left c next => rfl
    | _ => cases hj
  | idle =>
    refine ⟨i, st, hi, ?_⟩
    cases st <;> first | exact hst | cases hu
  | holding key =>
    obtain ⟨seen, left, c, next, rfl⟩ := Stage.eq_calling_of_use hu
    exact ⟨i, _, hi, rfl⟩

theorem IsOver.poll {p : Pool C R σ α W} (h : p.IsOver) (v : Service C R W) (i : Nat) :
    p.act v (.poll i) = p :=
  onJob_keeps (I := fun q => q = p) (fun st hst => by
    have hover := h st (List.mem_of_getElem? hst)
    exact (onJob_of_get hst _).symm.trans (onJob_of_same hst (st.poll_of_isOver hover v i _))) rfl

theorem IsOver.drop {p : Pool C R σ α W} (h : p.IsOver) (v : Service C R W) (i : Nat) :
    p.act v (.drop i) = p :=
  onJob_keeps (I := fun q => q = p) (fun st hst => by
    have hover := h st (List.mem_of_getElem? hst)
    exact (onJob_of_get hst _).symm.trans (onJob_of_same hst (st.drop_of_isOver hover i _))) rfl

theorem IsOver.act {p : Pool C R σ α W} (h : p.IsOver) (v : Service C R W) (a : Action) :
    (p.act v a).IsOver := by
  cases a with
  | mark n => exact h
  | poll i => rwa [h.poll v i]
  | drop i => rwa [h.drop v i]

theorem IsOver.run {p : Pool C R σ α W} (h : p.IsOver) (v : Service C R W) (as : List Action) :
    (run v as p).IsOver :=
  run_keeps v (fun _ a _ hq => hq.act v a) h

/-- All jobs are over after as many rounds as their bounds add up to. -/
theorem isOver_of_rounds {v : Service C R W} (ds : List (Option Nat)) {b : Nat → Nat} {k n : Nat}
    {p : Pool C R σ α W} (hf : p.Fits) (hw : p.Within v b) (hlen : ds.length = p.stages.length)
    (hk : ∑ i ∈ Finset.range p.stages.length, b i ≤ k) :
    (run v (roundsActions ds n k) p).IsOver := by
  induction k generalizing b n p with
  | zero =>
    intro st hst
    obtain ⟨i, hi⟩ := List.getElem?_of_mem hst
    have hlt : i < p.stages.length := (List.getElem?_eq_some_iff.1 hi).1
    have hb : b i = 0 := by
      have hle := Finset.single_le_sum (f := b) (fun _ _ => Nat.zero_le _) (Finset.mem_range.2 hlt)
      omega
    have hz := hw i st hi
    rw [hb] at hz
    exact hz.pos_or_isOver.resolve_left (Nat.lt_irrefl 0)
  | succ k ih =>
    rw [roundsActions, run_append]
    by_cases ho : p.IsOver
    · exact (ho.run v _).run v _
    obtain ⟨j, hr⟩ := exists_ready hf ho
    obtain ⟨st, hst, -⟩ := id hr
    have hjlt : j < p.stages.length := (List.getElem?_eq_some_iff.1 hst).1
    have hmem : Action.poll j ∈ roundActions ds n :=
      List.mem_cons_of_mem _ (poll_mem_turnActions (Nat.zero_le j) (by omega))
    obtain ⟨m, hm, hwm⟩ := exists_within_of_ready hf hw hr hmem
    have hl : (run v (roundActions ds n) p).stages.length = p.stages.length := length_run v _ p
    refine ih (hf.run v _) hwm (by rw [hl, hlen]) ?_
    have hlt : ∑ i ∈ Finset.range p.stages.length, Function.update b j m i <
        ∑ i ∈ Finset.range p.stages.length, b i := by
      refine Finset.sum_lt_sum (fun i _ => ?_) ⟨j, Finset.mem_range.2 hjlt, ?_⟩
      · by_cases hij : i = j
        · subst hij; rw [Function.update_self]; omega
        · rw [Function.update_of_ne hij]
      · rwa [Function.update_self]
    rw [hl]
    omega

end Pool

end Oncall
