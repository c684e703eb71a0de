import Oncall.Proofs.KeyedLocks.Use
import Mathlib.Logic.Function.Basic

/-! Lock calls from their start to their end, on one lock map. A call that is started stands in no
line before its first poll; a poll that finds the lock free, or handed to the call, makes it a guard;
calls and guards may be dropped at any time. The log tells which call joined a line, got its lock, was
dropped while it waited, or gave its lock back. In every state of a session the locks fit the calls. -/

namespace Oncall.KeyedLocks

variable {ι : Type} [DecidableEq ι]

/-- How far a lock call has come. -/
inductive Call where
  | unknown
  | started (key : String)
  | waiting (key : String)
  | guard (key : String)
  | over
  deriving DecidableEq

def Call.use : Call → Use
  | .waiting key => .waiting key
  | .guard key => .holding key
  | _ => .idle

inductive Event (ι : Type) where
  | joined (i : ι) (key : String)
  | locked (i : ι) (key : String)
  | cancelled (i : ι) (key : String)
  | unlocked (i : ι) (key : String)
  deriving DecidableEq

def Event.key : Event ι → String
  | .joined _ key | .locked _ key | .cancelled _ key | .unlocked _ key => key

/-- What is done with a call. Each name is used for one call only. -/
inductive Move (ι : Type) where
  | start (i : ι) (key : String)
  | poll (i : ι)
  | drop (i : ι)

structure Session (ι : Type) where
  locks : KeyedLocks ι
  call : ι → Call
  log : List (Event ι)

namespace Session

def empty : Session ι := ⟨KeyedLocks.empty, fun _ => .unknown, []⟩

/-- A call changes without a word to the locks. -/
def become (s : Session ι) (i : ι) (c : Call) : Session ι :=
  { s with call := Function.update s.call i c }

/-- A call that has been polled for a key. -/
def polled (s : Session ι) (i : ι) (key : String) (l : KeyedLocks ι) (es : List (Event ι)) :
    Session ι :=
  if l.holds i key then ⟨l, Function.update s.call i (.guard key), s.log ++ es ++ [.locked i key]⟩
  else ⟨l, Function.update s.call i (.waiting key), s.log ++ es⟩

/-- A call or a guard for a key that is dropped. -/
def dropped (s : Session ι) (i : ι) (key : String) (e : Event ι) : Session ι :=
  ⟨s.locks.drop i key, Function.update s.call i .over, s.log ++ [e]⟩

/-- A move that does not suit the call changes nothing. -/
def step (s : Session ι) : Move ι → Session ι
  | .start i key =>
    match s.call i with
    | .unknown => s.become i (.started key)
    | _ => s
  | .poll i =>
    match s.call i with
    | .started key => s.polled i key (s.locks.lock i key) [.joined i key]
    | .waiting key => s.polled i key (s.locks.poll i key) []
    | _ => s
  | .drop i =>
    match s.call i with
    | .started _ => s.become i .over
    | .waiting key => s.dropped i key (.cancelled i key)
    | .guard key => s.dropped i key (.unlocked i key)
    | _ => s

def run (moves : List (Move ι)) : Session ι := moves.foldl step empty

theorem run_concat (moves : List (Move ι)) (m : Move ι) : run (moves ++ [m]) = (run moves).step m :=
  List.foldl_concat ..

/-- Everything that a move may do. -/
theorem step_cases (s : Session ι) (m : Move ι) :
    s.step m = s ∨
    (∃ i c, (s.call i).use = .idle ∧ s.call i ≠ .over ∧ c.use = .idle ∧ s.step m = s.become i c) ∨
    (∃ i key, s.call i = .started key ∧
      s.step m = s.polled i key (s.locks.lock i key) [.joined i key]) ∨
    (∃ i key, s.call i = .waiting key ∧ s.step m = s.polled i key (s.locks.poll i key) []) ∨
    (∃ i key, s.call i = .waiting key ∧ s.step m = s.dropped i key (.cancelled i key)) ∨
    (∃ i key, s.call i = .guard key ∧ s.step m = s.dropped i key (.unlocked i key)) := by
  cases m with
  | start i key =>
    cases hc : s.call i with
    | unknown =>
      exact .inr (.inl ⟨i, .started key, by rw [hc]; rfl, by simp [hc], rfl, by simp only [step, hc]⟩)
    | _ => exact .inl (by simp only [step, hc])
  | poll i =>
    cases hc : s.call i with
    | started key => exact .inr (.inr (.inl ⟨i, key, hc, by simp only [step, hc]⟩))
    | waiting key => exact .inr (.inr (.inr (.inl ⟨i, key, hc, by simp only [step, hc]⟩)))
    | _ => exact .inl (by simp only [step, hc])
  | drop i =>
    cases hc : s.call i with
    | started key =>
      exact .inr (.inl ⟨i, .over, by rw [hc]; rfl, by simp [hc], rfl, by simp only [step, hc]⟩)
    | waiting key => exact .inr (.inr (.inr (.inr (.inl ⟨i, key, hc, by simp only [step, hc]⟩))))
    | guard key => exact .inr (.inr (.inr (.inr (.inr ⟨i, key, hc, by simp only [step, hc]⟩))))
    | _ => exact .inl (by simp only [step, hc])

/-! ### What is noted -/

/-- A call that has been polled, if it has the lock then. -/
def won (l : KeyedLocks ι) (i : ι) (key : String) : List ι :=
  if (l.entry key).permit = .held i then [i] else []

/-- What a poll adds to the log, and where it leaves the call. -/
theorem polled_spec (s : Session ι) (i : ι) (key : String) (l : KeyedLocks ι)
    (es : List (Event ι)) :
    (s.polled i key l es).log = s.log ++ (es ++ (won l i key).map (.locked · key)) ∧
    ∃ c : Call, c.use.key? = some key ∧ (s.polled i key l es).call = Function.update s.call i c := by
  by_cases hp : (l.entry key).permit = .held i
  · rw [Session.polled, if_pos ((holds_entry l i key).2 hp), won, if_pos hp]
    exact ⟨List.append_assoc .., .guard key, rfl, rfl⟩
  · rw [Session.polled, if_neg fun hh => hp ((holds_entry l i key).1 hh), won, if_neg hp]
    exact ⟨by rw [List.map_nil, List.append_nil], .waiting key, rfl, rfl⟩

theorem log_dropped (s : Session ι) (i : ι) (key : String) (e : Event ι) :
    (s.dropped i key e).log = s.log ++ [e] := rfl

/-! ### The locks fit the calls -/

def Fits (s : Session ι) : Prop := s.locks.Fits fun i => (s.call i).use

theorem use_update (call : ι → Call) (i : ι) (c : Call) :
    (fun j => (Function.update call i c j).use) =
      Function.update (fun j => (call j).use) i c.use := by
  funext j
  by_cases h : j = i
  · subst h; simp
  · simp [h]

@[simp] theorem locks_polled (s : Session ι) (i : ι) (key : String) (l : KeyedLocks ι)
    (es : List (Event ι)) : (s.polled i key l es).locks = l := by
  unfold polled
  split <;> rfl

theorem use_polled (s : Session ι) (i : ι) (key : String) (l : KeyedLocks ι) (es : List (Event ι)) :
    (fun j => ((s.polled i key l es).call j).use) =
      Function.update (fun j => (s.call j).use) i (KeyedLocks.Fits.polled l i key) := by
  unfold polled KeyedLocks.Fits.polled
  split <;> exact use_update _ _ _

namespace Fits

variable {s : Session ι}

theorem become (h : s.Fits) {i : ι} {c : Call} (hi : (s.call i).use = .idle) (hc : c.use = .idle) :
    (s.become i c).Fits := by
  unfold Session.Fits Session.become
  rw [use_update, hc, ← hi, Function.update_eq_self]
  exact h

theorem joined (h : s.Fits) {i : ι} {key : String} (hi : s.call i = .started key)
    (es : List (Event ι)) : (s.polled i key (s.locks.lock i key) es).Fits := by
  unfold Session.Fits
  rw [locks_polled, use_polled]
  exact h.lock (by rw [hi]; rfl) key

theorem polled (h : s.Fits) {i : ι} {key : String} (hi : s.call i = .waiting key)
    (es : List (Event ι)) : (s.polled i key (s.locks.poll i key) es).Fits := by
  unfold Session.Fits
  rw [locks_polled, use_polled]
  exact h.poll (by rw [hi]; rfl)

theorem not_holds (h : s.Fits) {i : ι} {key : String} (hi : s.call i = .waiting key) :
    ¬ s.locks.holds i key = true := by
  rw [h.holds_iff, hi]
  exact nofun

theorem holds (h : s.Fits) {i : ι} {key : String} (hi : s.call i = .guard key) :
    s.locks.holds i key = true := by
  rw [h.holds_iff, hi]
  rfl

theorem drop_waiting (h : s.Fits) {i : ι} {key : String} (hi : s.call i = .waiting key) :
    s.locks.drop i key = s.locks.abandon i key := by
  rw [drop, if_neg (h.not_holds hi)]

theorem drop_guard (h : s.Fits) {i : ι} {key : String} (hi : s.call i = .guard key) :
    s.locks.drop i key = s.locks.release key := by
  rw [drop, if_pos (h.holds hi)]

theorem cancelled (h : s.Fits) {i : ι} {key : String} (hi : s.call i = .waiting key) (e : Event ι) :
    (s.dropped i key e).Fits := by
  unfold Session.Fits dropped
  rw [use_update, h.drop_waiting hi]
  exact h.abandon (by rw [hi]; rfl)

theorem unlocked (h : s.Fits) {i : ι} {key : String} (hi : s.call i = .guard key) (e : Event ι) :
    (s.dropped i key e).Fits := by
  unfold Session.Fits dropped
  rw [use_update, h.drop_guard hi]
  exact h.release (by rw [hi]; rfl)

end Fits

theorem key?_use_eq_some {c : Call} {key : String} :
    c.use.key? = some key ↔ c = .waiting key ∨ c = .guard key := by
  cases c <;> simp [Call.use]

theorem Fits.mem_line_iff {s : Session ι} (h : s.Fits) (i : ι) (key : String) :
    i ∈ s.locks.line key ↔ s.call i = .waiting key ∨ s.call i = .guard key :=
  (h.mem_line i key).trans key?_use_eq_some

end Session

end Oncall.KeyedLocks
