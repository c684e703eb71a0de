import Oncall.Workflow

/-! What a workflow asks for. A transcript is the calls of a run in order, each with its reply; that
of one workflow after another is their transcripts in turn. -/

namespace Oncall

/-- A call with its reply. -/
structure Answered {C : Type} (R : C → Type) where
  call : C
  reply : R call

variable {C : Type} {R : C → Type} {σ α β W : Type}

namespace Workflow

/-- The calls of a run in order, each with its reply. -/
def transcript (answer : (c : C) → W → R c × W) : Workflow C R σ α → W → List (Answered R)
  | .done _, _ => []
  | .call _ c next, w =>
    ⟨c, (answer c w).1⟩ :: (next (answer c w).1).transcript answer (answer c w).2

variable (answer : (c : C) → W → R c × W)

@[simp] theorem transcript_done (a : α) (w : W) :
    (done a : Workflow C R σ α).transcript answer w = [] := rfl

@[simp] theorem transcript_call (seen : σ) (c : C) (next : R c → Workflow C R σ α) (w : W) :
    (call seen c next).transcript answer w =
      ⟨c, (answer c w).1⟩ :: (next (answer c w).1).transcript answer (answer c w).2 := rfl

/-- The transcript of one workflow after another. -/
theorem transcript_bind (x : Workflow C R σ α) (f : α → Workflow C R σ β) (w : W) :
    (x.bind f).transcript answer w =
      x.transcript answer w ++ (f (x.run answer w).1).transcript answer (x.run answer w).2 := by
  induction x generalizing w with
  | done a => rfl
  | call seen c next ih => exact congrArg (_ :: ·) (ih (answer c w).1 (answer c w).2)

end Workflow

end Oncall
