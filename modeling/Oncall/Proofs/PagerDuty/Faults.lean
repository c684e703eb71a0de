import Oncall.Proofs.PagerDuty.Provides

/-! Calls that are made to fail, before or after they took effect. Provisioning relies on nothing that
such failures break. -/

namespace Oncall.PagerDuty

variable {W : Type} {services : W → List Service} {I : W → Prop}
  {answer : (c : Call) → W → c.Reply × W}

/-- Whether a call is made to fail, and whether it took effect before it failed. -/
inductive Fault where
  | none
  | before (e : ApiError)
  | after (e : ApiError)

/-- What becomes of a call in a world, given what it would have done. -/
def Fault.apply {α : Type} (f : Fault) (r : Except ApiError α × W) (w : W) : Except ApiError α × W :=
  match f with
  | .none => r
  | .before e => (.error e, w)
  | .after e => (.error e, r.2)

/-- Answers calls as before, and makes them fail as told. -/
def withFaults (fault : Call → W → Fault) (answer : (c : Call) → W → c.Reply × W) (c : Call)
    (w : W) : c.Reply × W :=
  (fault c w).apply (answer c w) w

theorem Provides.withFaults (h : Provides services I answer) (fault : Call → W → Fault) :
    Provides services I (withFaults fault answer) where
  nodup hw := h.nodup hw
  policy id w hw := by
    unfold PagerDuty.withFaults Fault.apply
    split
    · exact h.policy id hw
    · exact ⟨hw, rfl⟩
    · exact h.policy id hw
  create s w hw hempty := by
    obtain ⟨hI, heff⟩ := h.create s hw hempty
    unfold PagerDuty.withFaults Fault.apply
    split
    next => exact ⟨hI, heff⟩
    next e _ => exact ⟨hw, Or.inl ⟨rfl, e, rfl⟩⟩
    next e _ =>
      refine ⟨hI, ?_⟩
      rcases heff with ⟨hsame, -⟩ | ⟨before, after, t, hb, ha, hfree, hname, hnew, hid, -⟩
      · exact Or.inl ⟨hsame, e, rfl⟩
      · exact Or.inr ⟨before, after, t, hb, ha, hfree, hname, hnew, hid, Or.inr ⟨e, rfl⟩⟩
  list query w hw := by
    obtain ⟨hI, hsame, hl⟩ := h.list query hw
    unfold PagerDuty.withFaults Fault.apply
    split
    next => exact ⟨hI, hsame, hl⟩
    next e _ => exact ⟨hw, rfl, Or.inl ⟨e, rfl⟩⟩
    next e _ => exact ⟨hI, hsame, Or.inl ⟨e, rfl⟩⟩
  integrate id i w hw hid := by
    obtain ⟨hI, heff⟩ := h.integrate id i hw hid
    unfold PagerDuty.withFaults Fault.apply
    split
    next => exact ⟨hI, heff⟩
    next e _ => exact ⟨hw, Or.inl ⟨rfl, e, rfl⟩⟩
    next e _ =>
      refine ⟨hI, ?_⟩
      rcases heff with ⟨hsame, -⟩ | ⟨before, after, s, j, is, hb, hs, hj, hn, hk, his, ha, -⟩
      · exact Or.inl ⟨hsame, e, rfl⟩
      · exact Or.inr ⟨before, after, s, j, is, hb, hs, hj, hn, hk, his, ha, Or.inr ⟨e, rfl⟩⟩

end Oncall.PagerDuty
