import Oncall.Cli.Run
import Oncall.Proofs.Cli.Steps
import Oncall.Proofs.Source.FirstFault

/-! Filling a config before anything is asked of PagerDuty. A command asks for an object and fills a
config from it, slot after slot. At the first fault the run ends: its error is that of the source or
names the key at fault with its object, and nothing else was asked. Otherwise the run goes on with
the config that was filled. -/

namespace Oncall.Cli

open PagerDuty
open Errand (steps)

/-- What a run does in a world, told by its steps and its result. -/
abbrev Course := World → List Step → Except Error Unit → Prop

/-- An object that fills slots of a config. -/
structure Holder where
  call : ObjectCall
  object : String
  payload : call.Result → Payload
  slots : List (Slot TicketingConfig)

/-- The operator's Secret. -/
def secretHolder : Holder :=
  ⟨.secret operatorNamespace apiKeySecret, objectRef operatorNamespace apiKeySecret, id, secretSlots⟩

/-- The ConfigMap of a cluster. -/
def idsHolder (a : ClusterArgs) : Holder :=
  let name := clusterConfigMapName a.clusterName
  ⟨.configMap a.nspace name, objectRef a.nspace name, Payload.ofTexts, idSlots⟩

namespace Holder

variable (h : Holder) (c : TicketingConfig)

/-- Asking for the object. -/
def step (w : World) : Step := ⟨w, .object .ticketing h.call⟩

/-- What comes of filling a config from the reply. -/
def Fill (w : World) (x : TicketingConfig × Except ConfigError Unit) : Prop :=
  Slot.Filling h.slots h.object c (Except.map h.payload (h.step w).reply) x

def load : Reading (TicketingConfig × Except ConfigError Unit) :=
  .call () h.call fun r => .done (Slot.readFrom h.slots h.object c (r.map h.payload))

end Holder

/-- A run that fills a config from an object. It ends at the first fault, or goes on with the config
that was filled. -/
inductive Fills (h : Holder) (c : TicketingConfig) (next : TicketingConfig → Course) (w : World) :
    List Step → Except Error Unit → Prop
  | stops {c' : TicketingConfig} {e : ConfigError} (hfill : h.Fill c w (c', .error e)) :
      Fills h c next w [h.step w] (.error (.pagerDuty (.config e)))
  | goesOn {c' : TicketingConfig} {ss : List Step} {r : Except Error Unit}
      (hfill : h.Fill c w (c', .ok ())) (hnext : next c' (h.step w).after ss r) :
      Fills h c next w (h.step w :: ss) r

theorem loadSecret_eq (c : TicketingConfig) : c.loadSecret = secretHolder.load c :=
  congrArg (Workflow.call () _) <| funext fun r => by
    cases r with
    | error e => rfl
    | ok p => exact congrArg _ (readSecret_eq c p)

theorem loadIds_eq (c : TicketingConfig) (a : ClusterArgs) :
    c.loadIds a.nspace a.clusterName = (idsHolder a).load c :=
  congrArg (Workflow.call () _) <| funext fun r => by
    cases r with
    | error e => rfl
    | ok texts => exact congrArg _ (readIds_eq c _ _)

/-- Goes on with a config that could be filled. -/
def proceed (next : TicketingConfig → Printing) :
    TicketingConfig × Except ConfigError Unit → Printing
  | (_, .error e) => failing (.pagerDuty (.config e))
  | (c, .ok ()) => next c

/-- Reads one object and goes on. -/
def afterReading (x : Reading (TicketingConfig × Except ConfigError Unit))
    (next : TicketingConfig → Printing) : Printing :=
  (Errand.ofReading .ticketing x).bind (proceed next)

/-- A run that begins by reading an object fills a config from it. -/
theorem Holder.fills (h : Holder) (c : TicketingConfig) {next : TicketingConfig → Printing}
    {course : TicketingConfig → Course} (w : World)
    (hnext : ∀ p c' w', Slot.FillsAll p h.slots c c' →
      course c' w' (steps (next c') w') ((next c').run World.answer w').1) :
    Fills h c course w (steps (afterReading (h.load c) next) w)
      ((afterReading (h.load c) next).run World.answer w).1 := by
  let x := Slot.readFrom h.slots h.object c (Except.map h.payload (h.step w).reply)
  have hfill : h.Fill c w x := Slot.readFrom_eq_iff.1 rfl
  have hsteps : steps (afterReading (h.load c) next) w =
      h.step w :: steps (proceed next x) (h.step w).after := rfl
  have hrun : (afterReading (h.load c) next).run World.answer w =
      (proceed next x).run World.answer (h.step w).after := rfl
  rw [hsteps, hrun]
  generalize x = y at hfill ⊢
  rcases y with ⟨c', e | _⟩
  · exact .stops hfill
  · obtain ⟨p, -, hall⟩ := Slot.Filling.fillsAll hfill
    exact .goesOn hfill (hnext p c' _ hall)

/-- The credentials are read before the IDs of the cluster. -/
theorem withCluster_eq (a : ClusterArgs) (next : TicketingConfig → Client → Printing) :
    withCluster a next = afterReading (secretHolder.load .empty) fun c =>
      afterReading ((idsHolder a).load c) fun c => next c (clientOf c a.pagerDutyUrl) := by
  simp only [← loadSecret_eq, ← loadIds_eq]
  refine congrArg (Workflow.call () _) (funext fun r => ?_)
  cases r with
  | error e => rfl
  | ok payload =>
    simp only [Workflow.bind, Workflow.lift]
    rcases TicketingConfig.empty.readSecret payload with ⟨c, e | _⟩
    · rfl
    · refine congrArg (Workflow.call () _) (funext fun r => ?_)
      cases r with
      | error e => rfl
      | ok texts =>
        simp only [Workflow.bind, Workflow.lift]
        rcases c.readIds (objectRef a.nspace (clusterConfigMapName a.clusterName))
          (Payload.ofTexts texts) with ⟨c', e | _⟩ <;> rfl

/-- A command about a cluster fills a config from the Secret and then from the ConfigMap. -/
theorem withCluster_fills (a : ClusterArgs) {next : TicketingConfig → Client → Printing}
    {course : TicketingConfig → Course}
    (hnext : ∀ c w, course c w (steps (next c (clientOf c a.pagerDutyUrl)) w)
      ((next c (clientOf c a.pagerDutyUrl)).run World.answer w).1) (w : World) :
    Fills secretHolder .empty (fun c => Fills (idsHolder a) c course) w
      (steps (withCluster a next) w) ((withCluster a next).run World.answer w).1 := by
  rw [withCluster_eq]
  exact secretHolder.fills .empty w fun _ c w' _ => (idsHolder a).fills c w' fun _ c' w'' _ =>
    hnext c' w''

end Oncall.Cli
