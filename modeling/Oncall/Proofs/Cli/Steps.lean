import Oncall.Outside
import Oncall.Proofs.PagerDuty.Requests
import Oncall.Proofs.Pool.Guarantee

/-! Errands step by step. A step is one thing that is asked of the world as it then is; the reply, the
requests that the peer receives meanwhile and what is shown follow from it. The requests of a run are
those of its steps in order, and all requests of a step have the method of what is asked. What a run
shows is what its steps show: the lines that are printed, among events that are let through. -/

namespace Oncall

open Http

/-! ### Requests -/

theorem Kubernetes.grows_answer (server : Option Url) (c : ObjectCall) (p : Peer) :
    p.Grows .get (Kubernetes.answer server c p).2 := by
  have hfetch : ∀ {α : Type} (read? : Json.Node → Option α),
      p.Grows .get (fetch server c read? p).2 := by
    intro α read?
    unfold fetch
    cases path? c with
    | none => exact .refl _ p
    | some path =>
      cases server with
      | none => exact .refl _ p
      | some u =>
        have hsend := Peer.grows_send p ⟨.get, "", [], [], ""⟩ (addressOf u path)
        dsimp only [Option.map_some]
        rcases hx : p.send ⟨.get, "", [], [], ""⟩ (addressOf u path) with ⟨_ | r, q⟩
        · rw [hx] at hsend
          exact hsend
        · rw [hx] at hsend
          dsimp only
          split
          · exact hsend
          · split
            · exact hsend
            · split <;> exact hsend
  cases c with
  | secret nspace name => exact hfetch secret?
  | configMap nspace name => exact hfetch configMap?

theorem Vault.grows_read (address token path : String) (p : Peer) :
    p.Grows .get (Vault.read address token path p).2 := by
  have hexchange := Peer.grows_exchange p (Vault.draft address token path)
  unfold Vault.read
  split
  next hx =>
    rw [hx] at hexchange
    exact hexchange
  next hx =>
    rw [hx] at hexchange
    exact hexchange

/-- The method of the requests that an ask leads to, if it leads to any. -/
def Ask.method : Ask → Method
  | .pagerDuty _ c => c.method
  | _ => .get

theorem Vault.CacheWorld.grows_answer (w : CacheWorld) (c : CacheCall) :
    w.peer.Grows .get (CacheWorld.answer c w).2.peer := by
  have hfiles : ∀ r, w.peer.Grows .get (w.changeFiles r).2.peer := fun r => by
    cases r <;> exact .refl _ w.peer
  cases c with
  | fetch url token path =>
    have hread := grows_read url token path w.peer
    simp only [CacheWorld.answer]
    generalize read url token path w.peer = x at hread ⊢
    exact hread
  | write path text => exact hfiles _
  | remove path => exact hfiles _
  | _ => exact .refl _ w.peer

namespace World

theorem grows_reply (w : World) (a : Ask) : w.peer.Grows a.method (w.reply a).2.peer := by
  obtain ⟨rest, source, enabled, aside, output⟩ := w
  cases a with
  | object purpose c =>
    cases source with
    | memory objects => exact .refl _ rest.peer
    | cluster server => exact Kubernetes.grows_answer server c rest.peer
  | pagerDuty client c => exact client.grows_answer c rest.peer
  | cache c => exact rest.grows_answer c
  | _ => exact .refl _ rest.peer

theorem grows_answer (w : World) (a : Ask) : w.peer.Grows a.method (w.answer a).2.peer :=
  w.grows_reply a

end World

/-! ### What is shown -/

/-- The line, if it is one that was printed. -/
def Shown.line? : Shown → Option String
  | .line text => some text
  | .event _ => none

namespace World

theorem enabled_answer (w : World) (a : Ask) : (w.answer a).2.enabled = w.enabled := by
  obtain ⟨rest, source, enabled, aside, output⟩ := w
  cases a with
  | object purpose c => cases source <;> rfl
  | _ => rfl

/-- The lines among what is shown are the one that is printed, if there is one. -/
theorem lines_shown (w : World) (a : Ask) (r : a.Reply) :
    (w.shown a r).filterMap Shown.line? = a.line?.toList := by
  have hevents : ∀ es : List LogEvent, es.filterMap (Shown.line? ∘ Shown.event) = [] :=
    fun es => List.filterMap_eq_nil_iff.2 fun _ _ => rfl
  have hlines : ∀ ls : List String, ls.filterMap (Shown.line? ∘ Shown.line) = ls :=
    fun _ => List.filterMap_some
  rw [shown, List.filterMap_append, List.filterMap_map, List.filterMap_map, hevents, hlines,
    List.nil_append]

end World

/-! ### Steps -/

/-- One thing that is asked of the world. -/
structure Step where
  world : World
  ask : Ask

namespace Step

def reply (s : Step) : s.ask.Reply := (s.world.answer s.ask).1

def after (s : Step) : World := (s.world.answer s.ask).2

/-- The requests that the peer receives. -/
def sent (s : Step) : List Request := s.after.peer.received.drop s.world.peer.received.length

def shown (s : Step) : List Shown := s.world.shown s.ask s.reply

variable {s : Step}

theorem received_after (s : Step) :
    s.after.peer.received = s.world.peer.received ++ s.sent := by
  obtain ⟨rs, hrs, -⟩ := s.world.grows_answer s.ask
  have hafter : s.after.peer.received = s.world.peer.received ++ rs := hrs
  rw [sent, hafter, List.drop_left]

theorem method_of_mem_sent {r : Request} (hr : r ∈ s.sent) : r.method = s.ask.method := by
  obtain ⟨rs, hrs, hall⟩ := s.world.grows_answer s.ask
  have hafter : s.after.peer.received = s.world.peer.received ++ rs := hrs
  rw [sent, hafter, List.drop_left] at hr
  exact hall r hr

theorem enabled_of_mem_shown {e : LogEvent} (he : .event e ∈ s.shown) :
    s.world.enabled e = true := by
  simp only [shown, World.shown, List.mem_append, List.mem_map, Shown.event.injEq,
    exists_eq_right, List.mem_filter, reduceCtorEq, and_false, exists_false, or_false] at he
  exact he.2

end Step

namespace Errand

variable {α β : Type}

/-- The steps of a run. -/
def steps (x : Errand α) (w : World) : List Step :=
  (x.calls World.answer w).map fun (a, w) => ⟨w, a⟩

@[simp] theorem steps_done (a : α) (w : World) : steps (.done a) w = [] := rfl

theorem steps_call (a : Ask) (next : a.Reply → Errand α) (w : World) :
    steps (.call () a next) w = ⟨w, a⟩ :: steps (next (w.answer a).1) (w.answer a).2 := rfl

theorem steps_bind (x : Errand α) (f : α → Errand β) (w : World) :
    steps (x.bind f) w =
      steps x w ++ steps (f (x.run World.answer w).1) (x.run World.answer w).2 := by
  induction x generalizing w with
  | done a => rfl
  | call seen a next ih => exact congrArg (_ :: ·) (ih (w.answer a).1 (w.answer a).2)

/-- What a workflow may ask is all that its steps ask. -/
theorem ask_of_mem_steps {P : Ask → Prop} {x : Errand α} (h : x.Only P) {w : World} {s : Step}
    (hs : s ∈ steps x w) : P s.ask := by
  obtain ⟨⟨a, w'⟩, hmem, rfl⟩ := List.mem_map.1 hs
  exact h.calls hmem

theorem call_of_mem_steps {σ : Type} {client : PagerDuty.Client} {P : PagerDuty.Call → Prop}
    {body : Workflow PagerDuty.Call PagerDuty.Call.Reply σ α} (h : body.Only P) {w : World}
    {s : Step} (hs : s ∈ steps (ofCalls client body) w) : ∃ c, s.ask = .pagerDuty client c ∧ P c :=
  ask_of_mem_steps (P := fun a => ∃ c, a = .pagerDuty client c ∧ P c)
    (.lift (h.weaken fun c hc => ⟨c, rfl, hc⟩)) hs

/-- What the peer receives in a run is what it receives in the steps. -/
theorem received_run (x : Errand α) (w : World) :
    (x.run World.answer w).2.peer.received = w.peer.received ++ (steps x w).flatMap Step.sent := by
  induction x generalizing w with
  | done a => simp
  | call seen a next ih =>
    rw [Workflow.run_call, ih, steps_call, List.flatMap_cons, ← List.append_assoc]
    exact congrArg (· ++ _) (Step.received_after ⟨w, a⟩)

/-- What a run shows is what its steps show. -/
theorem output_run (x : Errand α) (w : World) :
    (x.run World.answer w).2.output = w.output ++ (steps x w).flatMap Step.shown := by
  induction x generalizing w with
  | done a => simp
  | call seen a next ih =>
    rw [Workflow.run_call, ih, steps_call, List.flatMap_cons, ← List.append_assoc]
    rfl

/-- What is let through stays the same in a run. -/
theorem enabled_of_mem_steps {x : Errand α} {w : World} {s : Step} (hs : s ∈ steps x w) :
    s.world.enabled = w.enabled := by
  induction x generalizing w with
  | done a => cases hs
  | call seen a next ih =>
    rcases List.mem_cons.1 hs with rfl | hs
    · rfl
    · exact (ih _ hs).trans (w.enabled_answer a)

/-- The lines among what steps show are those that they print. -/
theorem lines_flatMap (ss : List Step) :
    (ss.flatMap Step.shown).filterMap Shown.line? = ss.filterMap fun s => s.ask.line? := by
  induction ss with
  | nil => rfl
  | cons s rest ih =>
    rw [List.flatMap_cons, List.filterMap_append, Step.shown, World.lines_shown, ih]
    cases h : s.ask.line? <;> simp [h]

end Errand
end Oncall
