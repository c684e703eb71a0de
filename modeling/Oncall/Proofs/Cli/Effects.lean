import Oncall.Proofs.Cli.Provisioning

/-! What commands do follows from what is configured. A config is filled before anything is asked of
PagerDuty. A command about a cluster then makes one call with the stored IDs, and provisioning makes
calls that delete nothing. Log lines go to the standard output at any time, but a result is printed
last: nothing can fail after it. -/

namespace Oncall.Cli

open Http PagerDuty
open Errand (steps)

/-! ### Commands about PagerDuty -/

/-- A call is one draft, and at most one request. -/
def SendsOnce (client : Client) (call : Call) (w : World) : Prop :=
  ∃ d, client.draft? call = some d ∧ (calling client call w).sent = (w.peer.carries d).toList

/-- A run that makes one call, and prints one line about what it returns. -/
inductive CallsOnce (client : Client) (call : Call) (line : call.Result → String) (w : World) :
    List Step → Except Error Unit → Prop
  | fails {e : ApiError} (hsent : SendsOnce client call w)
      (hreply : (calling client call w).reply = .error e) :
      CallsOnce client call line w [calling client call w] (.error (.pagerDuty (.api e)))
  | prints {x : call.Result} (hsent : SendsOnce client call w)
      (hreply : (calling client call w).reply = .ok x) :
      CallsOnce client call line w
        [calling client call w, ⟨(calling client call w).after, .print (line x)⟩] (.ok ())

/-- A run that fills a config from the Secret and from the ConfigMap of a cluster. -/
def WithIds (a : ClusterArgs) (course : TicketingConfig → Client → Course) : Course :=
  Fills secretHolder .empty fun c => Fills (idsHolder a) c fun c =>
    course c (clientOf c a.pagerDutyUrl)

/-- What a command does. -/
def Effects : Command → Course
  | .provision clusterId baseDomain url =>
    Fills secretHolder (.forCluster clusterId baseDomain) fun c _ =>
      Provisions clusterId baseDomain url c
  | .service a => WithIds a fun c client =>
    CallsOnce client (.getService c.serviceId) fun s => s.id ++ "\t" ++ s.name
  | .integrationKey a => WithIds a fun c client =>
    CallsOnce client (.getIntegration c.serviceId c.integrationId) fun i =>
      i.integrationKey.getD ""
  | .deprovision a => WithIds a fun c client =>
    CallsOnce client (.deleteService c.serviceId) fun _ => "deleted " ++ c.serviceId
  | .getSecret _ _ _ => fun _ ss _ => ∀ s ∈ ss, ∀ client call, s.ask ≠ .pagerDuty client call

/-- A command about a cluster that makes one call and prints one line. -/
theorem withCluster_effects (a : ClusterArgs) (call : TicketingConfig → Call)
    (line : (c : TicketingConfig) → (call c).Result → String)
    {next : TicketingConfig → Client → Printing}
    (hdraft : ∀ c (client : Client), (client.draft? (call c)).isSome)
    (hnext : ∀ c client, next c client = .call () (.pagerDuty client (call c)) fun r =>
      onSuccess (fun x => printing [line c x]) (r.mapError .api)) (w : World) :
    WithIds a (fun c client => CallsOnce client (call c) (line c)) w (steps (withCluster a next) w)
      ((withCluster a next).run World.answer w).1 := by
  refine withCluster_fills a (fun c w' => ?_) w
  obtain ⟨d, hd⟩ := Option.isSome_iff_exists.1 (hdraft c (clientOf c a.pagerDutyUrl))
  have hsent : SendsOnce (clientOf c a.pagerDutyUrl) (call c) w' :=
    ⟨d, hd, Client.sent_eq hd w'.peer⟩
  rw [hnext, Errand.steps_call, Workflow.run_call]
  cases hreply : (w'.answer (.pagerDuty (clientOf c a.pagerDutyUrl) (call c))).1 with
  | error e => exact .fails hsent hreply
  | ok x => exact .prints hsent hreply

/-- A secret is looked up without PagerDuty. -/
theorem getSecret_only (nspace secretName : String) (dir : Option String) :
    (Cli.getSecret nspace secretName dir).Only
      fun a => ∀ client call, a ≠ .pagerDuty client call := by
  have hprint : ∀ cache, (printSecret cache nspace secretName).Only
      fun a => ∀ client call, a ≠ .pagerDuty client call := fun cache => by
    have hresolve : (Vault.Access.resolve nspace secretName).Only
        fun c => ∀ client call, Ask.object .access c ≠ .pagerDuty client call :=
      Workflow.only_of_forall (fun _ => nofun) _
    refine .bind (.bind (.lift hresolve) fun r => ?_) fun r => ?_
    · cases r with
      | error e => trivial
      | ok access => exact .lift (Workflow.only_of_forall (fun _ => nofun) _)
    · cases r with
      | error e => trivial
      | ok secret => exact ⟨nofun, fun _ => trivial⟩
  cases dir with
  | none => exact hprint _
  | some dir =>
    refine ⟨nofun, fun r => ?_⟩
    cases r with
    | error e => trivial
    | ok u => exact hprint _

theorem command_effects (c : Command) (w : World) :
    Effects c w (steps c.run w) (c.run.run World.answer w).1 := by
  cases c with
  | provision clusterId baseDomain url => exact provision_effects clusterId baseDomain url w
  | service a =>
    exact withCluster_effects a (fun c => .getService c.serviceId)
      (fun _ s => s.id ++ "\t" ++ s.name) (fun _ _ => rfl) (fun _ _ => rfl) w
  | integrationKey a =>
    exact withCluster_effects a (fun c => .getIntegration c.serviceId c.integrationId)
      (fun _ i => i.integrationKey.getD "") (fun _ _ => rfl)
      (fun c client => congrArg (Workflow.call () _) (funext fun r => by cases r <;> rfl)) w
  | deprovision a =>
    exact withCluster_effects a (fun c => .deleteService c.serviceId)
      (fun c _ => "deleted " ++ c.serviceId) (fun _ _ => rfl) (fun _ _ => rfl) w
  | getSecret nspace secretName dir =>
    exact fun s hs => Errand.ask_of_mem_steps (getSecret_only nspace secretName dir) hs

/-! ### Deletions -/

theorem method_of_keeping {c : Call} (h : Keeping c) : c.method ≠ .delete := by
  cases c with
  | deleteService id => exact absurd rfl (h id)
  | _ => nofun

/-- Steps that lead to no deletions. -/
def NoDeletions (ss : List Step) : Prop := ∀ s ∈ ss, s.ask.method ≠ .delete

theorem Keeps.noDeletions {client : Client} {ss : List Step} (h : Keeps client ss) :
    NoDeletions ss := by
  intro s hs
  obtain ⟨c, hask, hkeeping⟩ := h s hs
  rw [hask]
  exact method_of_keeping hkeeping

theorem Fills.noDeletions {h : Holder} {c : TicketingConfig} {course : TicketingConfig → Course}
    {w : World} {ss : List Step} {r : Except Error Unit} (hfills : Fills h c course w ss r)
    (hcourse : ∀ {c w ss r}, course c w ss r → NoDeletions ss) : NoDeletions ss := by
  cases hfills with
  | stops hfill => exact List.forall_mem_singleton.2 nofun
  | goesOn hfill hnext => exact List.forall_mem_cons.2 ⟨nofun, hcourse hnext⟩

theorem Provisions.noDeletions {clusterId baseDomain url : String} {c : TicketingConfig}
    {ss : List Step} {r : Except Error Unit} (h : Provisions clusterId baseDomain url c ss r) :
    NoDeletions ss := by
  cases h with
  | noCluster | noDomain => exact fun s hs => absurd hs List.not_mem_nil
  | fails hcluster hdomain hcalls => exact hcalls.noDeletions
  | @succeeds calls ending c' id hcluster hdomain hcalls hids hending =>
    refine List.forall_mem_append.2 ⟨hcalls.noDeletions, fun s hs => ?_⟩
    have hask : s.ask ∈ announcement c' id := hending ▸ List.mem_map_of_mem hs
    simp only [announcement, List.mem_cons, List.not_mem_nil, or_false] at hask
    rcases hask with hask | hask | hask <;>
    · rw [hask]
      nofun

theorem CallsOnce.noDeletions {client : Client} {call : Call} {line : call.Result → String}
    {w : World} {ss : List Step} {r : Except Error Unit} (h : CallsOnce client call line w ss r)
    (hcall : call.method ≠ .delete) : NoDeletions ss := by
  cases h with
  | fails => exact List.forall_mem_singleton.2 hcall
  | prints => exact List.forall_mem_cons.2 ⟨hcall, List.forall_mem_singleton.2 nofun⟩

/-- Deletions are made by the command for them only. -/
theorem Effects.noDeletions {c : Command} {w : World} {ss : List Step} {r : Except Error Unit}
    (h : Effects c w ss r) (hc : ∀ a, c ≠ .deprovision a) : NoDeletions ss := by
  cases c with
  | provision clusterId baseDomain url => exact Fills.noDeletions h Provisions.noDeletions
  | service a | integrationKey a =>
    exact Fills.noDeletions h fun h => Fills.noDeletions h fun h => h.noDeletions nofun
  | deprovision a => exact absurd rfl (hc a)
  | getSecret nspace secretName dir =>
    intro s hs
    have hask := h s hs
    cases hs' : s.ask with
    | pagerDuty client call => exact absurd hs' (hask client call)
    | _ => nofun

/-! ### Lines -/

/-- A run that fails prints no line. -/
def Quiet (x : Printing) : Prop :=
  ∀ w e, (x.run World.answer w).1 = .error e → (steps x w).filterMap (fun s => s.ask.line?) = []

theorem Quiet.failing (e : Error) : Quiet (failing e) := fun _ _ _ => rfl

theorem Quiet.printing (lines : List String) : Quiet (printing lines) := by
  have hok : ∀ w, ((Cli.printing lines).run World.answer w).1 = .ok () := by
    induction lines with
    | nil => exact fun _ => rfl
    | cons line rest ih => exact fun w => ih _
  intro w e h
  rw [hok] at h
  cases h

/-- What is asked before may fail, if it prints nothing. -/
theorem Quiet.bind {α : Type} {x : Errand α} {f : α → Printing}
    (hx : x.Only fun a => a.line? = none) (hf : ∀ a, Quiet (f a)) : Quiet (x.bind f) := by
  intro w e h
  have hnone : (steps x w).filterMap (fun s => s.ask.line?) = [] :=
    List.filterMap_eq_nil_iff.2 fun s hs => Errand.ask_of_mem_steps hx hs
  rw [Workflow.run_bind] at h
  rw [Errand.steps_bind, List.filterMap_append, hnone, hf _ _ e h, List.nil_append]

theorem Quiet.call {a : Ask} {next : a.Reply → Printing} (ha : a.line? = none)
    (hnext : ∀ r, Quiet (next r)) : Quiet (.call () a next) :=
  .bind (x := .ask () a) ⟨ha, fun _ => trivial⟩ hnext

theorem Quiet.onSuccess {α : Type} {next : α → Printing} (h : ∀ a, Quiet (next a))
    (r : Except PagerDuty.Error α) : Quiet (Cli.onSuccess next r) := by
  cases r with
  | error e => exact .failing _
  | ok a => exact h a

theorem only_ofReading {α : Type} (purpose : Purpose) (x : Reading α) :
    (Errand.ofReading purpose x).Only fun a => a.line? = none :=
  .lift (Workflow.only_of_forall (fun _ => rfl) x)

theorem only_ofCalls {α σ : Type} (client : Client) (x : Workflow Call Call.Reply σ α) :
    (Errand.ofCalls client x).Only fun a => a.line? = none :=
  .lift (Workflow.only_of_forall (fun _ => rfl) x)

theorem Quiet.oneCall {α : Type} (client : Client) (x : OneCall α) (lines : α → List String) :
    Quiet ((Errand.ofCalls client x).bind (Cli.onSuccess fun a => Cli.printing (lines a))) :=
  .bind (only_ofCalls client x) (.onSuccess fun a => .printing (lines a))

theorem Quiet.withCluster (a : ClusterArgs) {next : TicketingConfig → Client → Printing}
    (h : ∀ c client, Quiet (next c client)) : Quiet (Cli.withCluster a next) := by
  refine .bind (only_ofReading _ _) fun r => ?_
  cases r with
  | error e => exact .failing _
  | ok c => exact h c _

theorem Quiet.printSecret (c : Vault.Cache) (nspace secretName : String) :
    Quiet (Cli.printSecret c nspace secretName) := by
  refine .bind (.bind (only_ofReading _ _) fun r => ?_) fun r => ?_
  · cases r with
    | error e => trivial
    | ok access => exact .lift (Workflow.only_of_forall (fun _ => rfl) _)
  · cases r with
    | error e => exact .failing _
    | ok secret => exact .printing _

theorem Command.quiet (c : Command) : Quiet c.run := by
  cases c with
  | provision clusterId baseDomain url =>
    refine .bind (only_ofReading _ _) fun (c, r) => ?_
    cases r with
    | error e => exact .failing _
    | ok u =>
      refine .bind (only_ofCalls _ _) fun (c, r) => .onSuccess (fun id => ?_) r
      exact .call rfl fun _ => .printing _
  | service a =>
    exact .withCluster a fun c client =>
      .oneCall client (PagerDuty.getService c.serviceId) fun s => [s.id ++ "\t" ++ s.name]
  | integrationKey a =>
    exact .withCluster a fun c client =>
      .oneCall client (PagerDuty.getIntegrationKey c.serviceId c.integrationId) fun key => [key]
  | deprovision a =>
    exact .withCluster a fun c client =>
      .oneCall client (PagerDuty.deprovision c.serviceId) fun () => ["deleted " ++ c.serviceId]
  | getSecret nspace secretName dir =>
    cases dir with
    | none => exact .printSecret _ _ _
    | some dir =>
      refine .call rfl fun r => ?_
      cases r with
      | error e => exact .failing _
      | ok u => exact .printSecret _ _ _

/-! ### Invocations -/

/-- What an invocation does follows from what is configured, whatever is answered. It fails without a
connection, having asked nothing; otherwise its command takes its course. Requests are those of the
steps, and only deprovisioning deletes. What the standard output gets is what the steps show. Next to
events that are let through, these are the lines that are printed: none if the run fails. -/
theorem effects_follow_config {α : Type} (i : Invocation) (connected : Except ConfigError α)
    (w : World) :
    let ss := steps (i.run connected) w
    let r := ((i.run connected).run World.answer w).1
    let after := ((i.run connected).run World.answer w).2
    (match connected with
      | .error e => ss = [] ∧ r = .error (.config e)
      | .ok _ => Effects i.command w ss r) ∧
    after.peer.received = w.peer.received ++ ss.flatMap Step.sent ∧
    (∀ s ∈ ss, ∀ q ∈ s.sent, q.method = .delete → ∃ a, i.command = .deprovision a) ∧
    after.output = w.output ++ ss.flatMap Step.shown ∧
    (∀ s ∈ ss, ∀ e, .event e ∈ s.shown → w.enabled e = true) ∧
    (ss.flatMap Step.shown).filterMap Shown.line? = ss.filterMap (fun s => s.ask.line?) ∧
    ∀ e, r = .error e → ss.filterMap (fun s => s.ask.line?) = [] := by
  intro ss r after
  refine ⟨?_, Errand.received_run _ w, fun s hs q hq hdelete => ?_, Errand.output_run _ w,
    fun s hs e he => ?_, Errand.lines_flatMap _, ?_⟩
  · cases connected with
    | error e => exact ⟨rfl, rfl⟩
    | ok u => exact command_effects i.command w
  · cases connected with
    | error e => exact absurd hs List.not_mem_nil
    | ok u =>
      by_contra hc
      have hnone := (command_effects i.command w).noDeletions fun a ha => hc ⟨a, ha⟩
      exact hnone s hs (Step.method_of_mem_sent hq ▸ hdelete)
  · rw [← Errand.enabled_of_mem_steps hs]
    exact Step.enabled_of_mem_shown he
  · cases connected with
    | error e => exact fun _ _ => rfl
    | ok u => exact i.command.quiet w

/-- The operator's Secret and the ConfigMap of one cluster. -/
def oneCluster : ObjectStore :=
  (ObjectStore.empty.putSecret operatorNamespace apiKeySecret
    (Payload.ofTexts [("ACKNOWLEDGE_TIMEOUT", "60"), ("ESCALATION_POLICY", "e"),
      ("PAGERDUTY_API_KEY", "k"), ("RESOLVE_TIMEOUT", "300")])).putConfigMap "n" "c-pd-config"
        [("INTEGRATION_ID", "I1"), ("SERVICE_ID", "P1")]

/-- A world with one cluster, and with the default filter. PagerDuty delivers so. -/
def worldOf (script : List Delivery) : World :=
  { files := .empty .epoch
    peer := ⟨[.plain "pd"], true, script, []⟩
    warnings := []
    source := .memory oneCluster }

/-- A successful response with an object in its envelope. -/
def deliveryOf (name : String) (v : Json.Value) : Delivery :=
  .response 201 (Utf8.encode (envelope name v).toString.toList)

/-- The service of a cluster: one request, and one line about its reply. -/
theorem effects_follow_config_service :
    let w := worldOf [deliveryOf "service"
      (Service.value ⟨"P1", "osd-c", "", ⟨"e", ""⟩, none, none, none, []⟩)]
    let i : Invocation := ⟨none, .plain, .service ⟨"n", "c", "http://pd"⟩⟩
    let x := i.run (.ok () : Except ConfigError Unit)
    let after := (x.run World.answer w).2
    (x.run World.answer w).1 = .ok () ∧
    after.peer.received.map (fun q => (q.method, q.target)) = [(.get, "/services/P1")] ∧
    after.output.filterMap Shown.line? = ["P1\tosd-c"] ∧
    Effects i.command w (steps x w) (x.run World.answer w).1 := by
  intro w i x after
  have hresult : (x.run World.answer w).1 = .ok () := by decide +kernel
  have hreceived : after.peer.received.map (fun q => (q.method, q.target)) =
      [(.get, "/services/P1")] := by decide +kernel
  have hlines : after.output.filterMap Shown.line? = ["P1\tosd-c"] := by decide +kernel
  exact ⟨hresult, hreceived, hlines, (effects_follow_config i (.ok ()) w).1⟩

/-- A failure may leave log lines on the standard output: here the service was created before its
integration was refused. -/
theorem failure_after_log_lines :
    let w := worldOf [
      deliveryOf "escalation_policy" (EscalationPolicy.value ⟨"e", ""⟩),
      deliveryOf "service" (Service.value ⟨"P1", "osd-c", "", ⟨"e", ""⟩, none, none, none, []⟩),
      .response 400 []]
    let x := Invocation.run ⟨none, .plain, .provision "c" "d.com" "http://pd"⟩
      (.ok () : Except ConfigError Unit)
    (∃ e, (x.run World.answer w).1 = .error (.pagerDuty (.api e))) ∧
      .event ⟨.info, provisionerTarget, "Created PagerDuty service", [("service_id", "P1")]⟩ ∈
        (x.run World.answer w).2.output := by
  intro w x
  exact ⟨⟨_, rfl⟩, by decide +kernel⟩

end Oncall.Cli
