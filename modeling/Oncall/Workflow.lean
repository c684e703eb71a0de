/-!
Workflows as finite trees of calls. A workflow ends or makes a call and goes on with the reply, so
one definition runs against a script, an in-memory service or arbitrary replies, and can be cut off
at any call.
-/

namespace Oncall

/-- `C` are the calls, `R c` the replies to `c`, and `σ` is what is seen of the workflow while a
call is pending. -/
inductive Workflow (C : Type) (R : C → Type) (σ α : Type) where
  | done (a : α)
  | call (seen : σ) (c : C) (next : R c → Workflow C R σ α)

variable {C D : Type} {R : C → Type} {S : D → Type} {σ τ α β W : Type}

namespace Workflow

def bind : Workflow C R σ α → (α → Workflow C R σ β) → Workflow C R σ β
  | .done a, f => f a
  | .call seen c next, f => .call seen c fun r => (next r).bind f

instance : Monad (Workflow C R σ) where
  pure := .done
  bind := bind

/-- Makes one call and returns its reply. -/
def ask (seen : σ) (c : C) : Workflow C R σ (R c) := .call seen c .done

/-- Runs against a world that answers every call and may change with it. -/
def run (answer : (c : C) → W → R c × W) : Workflow C R σ α → W → α × W
  | .done a, w => (a, w)
  | .call _ c next, w => (next (answer c w).1).run answer (answer c w).2

/-- Runs with calls that have effects of their own. -/
def runIn {m : Type → Type} [Monad m] (answer : (c : C) → m (R c)) : Workflow C R σ α → m α
  | .done a => pure a
  | .call _ c next => do (next (← answer c)).runIn answer

/-- The same workflow with its calls made through other calls. -/
def lift (f : C → D) (back : (c : C) → S (f c) → R c) (see : σ → τ) :
    Workflow C R σ α → Workflow D S τ α
  | .done a => .done a
  | .call seen c next => .call (see seen) (f c) fun r => (next (back c r)).lift f back see

@[simp] theorem run_done (answer : (c : C) → W → R c × W) (a : α) (w : W) :
    (done a : Workflow C R σ α).run answer w = (a, w) := rfl

@[simp] theorem run_call (answer : (c : C) → W → R c × W) (seen : σ) (c : C)
    (next : R c → Workflow C R σ α) (w : W) :
    (call seen c next).run answer w = (next (answer c w).1).run answer (answer c w).2 := rfl

/-- Running one workflow after another is running them in turn. -/
theorem run_bind (answer : (c : C) → W → R c × W) (x : Workflow C R σ α)
    (f : α → Workflow C R σ β) (w : W) :
    (x.bind f).run answer w = (f (x.run answer w).1).run answer (x.run answer w).2 := by
  induction x generalizing w with
  | done a => rfl
  | call seen c next ih => exact ih (answer c w).1 (answer c w).2

end Workflow

/-- A piece of work that is settled at once, or that needs the lock of a key for its whole workflow.
-/
inductive Job (C : Type) (R : C → Type) (σ α : Type) where
  | settled (a : α)
  | locked (key : String) (seen : σ) (body : Workflow C R σ α)

/-- What a job does when nobody else wants its lock. -/
def Job.body : Job C R σ α → Workflow C R σ α
  | .settled a => .done a
  | .locked _ _ body => body

end Oncall
