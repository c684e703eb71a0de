import Oncall.Proofs.PagerDuty.Provides
import Oncall.Proofs.Transcript
import Oncall.PagerDuty.Memory

/-! What a provisioning asks of PagerDuty, whatever is replied. A provisioning takes one of a few
courses, and on all of them the next call follows from the replies so far, and what is written to the
config from the service that was obtained. -/

namespace Oncall

namespace PagerDuty

abbrev Entry := Answered Call.Reply

/-! ### Courses -/

/-- With its service known, a provisioning reuses the integration or asks for one. -/
inductive Finishes (c : TicketingConfig) (s : Service) : List Entry → Outcome → Prop
  | reuses {i : Integration} (h : s.reusable? = some i) :
      Finishes c s [] ({ c with serviceId := s.id, integrationId := i.id }, .ok i.id)
  | creates {i : Integration} (h : s.reusable? = none) :
      Finishes c s [⟨.createIntegration s.id integrationToCreate, .ok i⟩]
        ({ c with serviceId := s.id, integrationId := i.id }, .ok i.id)
  | fails {e : ApiError} (h : s.reusable? = none) :
      Finishes c s [⟨.createIntegration s.id integrationToCreate, .error e⟩]
        ({ c with serviceId := s.id }, .error (.api e))

/-- Once its name was rejected, a provisioning goes on with the service that is listed under it, or
returns the rejection. -/
inductive Adopts (c : TicketingConfig) (rejection : ApiError) : List Entry → Outcome → Prop
  | unlisted {e : ApiError} :
      Adopts c rejection [⟨.listServices c.serviceName, .error e⟩] (c, .error (.api rejection))
  | unmatched {services : List Service} (h : named c.serviceName services = none) :
      Adopts c rejection [⟨.listServices c.serviceName, .ok services⟩] (c, .error (.api rejection))
  | adopts {services : List Service} {s : Service} {xs : List Entry} {o : Outcome}
      (h : named c.serviceName services = some s) (hs : Finishes c s xs o) :
      Adopts c rejection (⟨.listServices c.serviceName, .ok services⟩ :: xs) o

/-- All courses of a provisioning: its calls with their replies, and the outcome. -/
inductive Course (c : TicketingConfig) : List Entry → Outcome → Prop
  | invalid {e : ConfigError} (h : c.validate = .error e) : Course c [] (c, .error (.config e))
  | unknown {e : ApiError} (h : c.validate = .ok ()) :
      Course c [⟨.getEscalationPolicy c.escalationPolicyId, .error e⟩]
        (c, .error (.policyNotFound c.escalationPolicyId e))
  | creates {policy : EscalationPolicy} {s : Service} {xs : List Entry} {o : Outcome}
      (h : c.validate = .ok ()) (hs : Finishes c s xs o) :
      Course c (⟨.getEscalationPolicy c.escalationPolicyId, .ok policy⟩ ::
        ⟨.createService (serviceToCreate c policy), .ok s⟩ :: xs) o
  | refused {policy : EscalationPolicy} {e : ApiError} (h : c.validate = .ok ())
      (he : e.isDuplicateName = false) :
      Course c [⟨.getEscalationPolicy c.escalationPolicyId, .ok policy⟩,
        ⟨.createService (serviceToCreate c policy), .error e⟩] (c, .error (.api e))
  | taken {policy : EscalationPolicy} {message : String} {xs : List Entry} {o : Outcome}
      (h : c.validate = .ok ()) (hs : Adopts c (.duplicateName message) xs o) :
      Course c (⟨.getEscalationPolicy c.escalationPolicyId, .ok policy⟩ ::
        ⟨.createService (serviceToCreate c policy), .error (.duplicateName message)⟩ :: xs) o

section Run

variable {W : Type} (answer : (c : Call) → W → c.Reply × W)

theorem finishes_run (c : TicketingConfig) (s : Service) (w : W) :
    Finishes c s ((c.withService s).transcript answer w) ((c.withService s).run answer w).1 := by
  unfold TicketingConfig.withService
  split
  next i hi => exact .reuses hi
  next hnone =>
    rw [Workflow.run_call, Workflow.transcript]
    generalize answer (.createIntegration s.id integrationToCreate) w = r
    obtain ⟨_ | i, w'⟩ := r
    · exact .fails hnone
    · exact .creates hnone

theorem adopts_run (c : TicketingConfig) (rejection : ApiError) (w : W) :
    Adopts c rejection ((c.adopt c.serviceName rejection).transcript answer w)
      ((c.adopt c.serviceName rejection).run answer w).1 := by
  unfold TicketingConfig.adopt
  rw [Workflow.run_call, Workflow.transcript]
  generalize answer (.listServices c.serviceName) w = r
  obtain ⟨_ | services, w'⟩ := r
  · exact .unlisted
  · dsimp only
    split
    next s hs => exact .adopts hs (finishes_run answer c s w')
    next hnone => exact .unmatched hnone

/-- Every run of a provisioning takes one of the courses. -/
theorem course_run (c : TicketingConfig) (w : W) :
    Course c (c.provision.body.transcript answer w) (c.provision.body.run answer w).1 := by
  cases hvalid : c.validate with
  | error e =>
    rw [TicketingConfig.provision, hvalid]
    exact .invalid hvalid
  | ok u =>
    rw [TicketingConfig.provision_of_valid hvalid]
    simp only [Job.body, TicketingConfig.provisionCalls, Workflow.run_call, Workflow.transcript]
    generalize answer (.getEscalationPolicy c.escalationPolicyId) w = r
    obtain ⟨_ | policy, w'⟩ := r
    · exact .unknown hvalid
    · simp only [TicketingConfig.withPolicy, Workflow.run_call, Workflow.transcript]
      generalize answer (.createService (serviceToCreate c policy)) w' = r
      obtain ⟨e | s, w''⟩ := r
      · dsimp only
        split
        next he =>
          cases e with
          | duplicateName message => exact .taken hvalid (adopts_run answer c _ w'')
          | _ => cases he
        next he => exact .refused hvalid (Bool.eq_false_iff.2 he)
      · exact .creates hvalid (finishes_run answer c s w'')

end Run

/-! ### Calls and replies -/

/-- An integration that alerts can be sent to. -/
def Integration.Serves (i : Integration) : Prop :=
  i.id ≠ "" ∧ i.name = integrationName ∧ i.kind = integrationKind

instance (i : Integration) : Decidable i.Serves := inferInstanceAs (Decidable (_ ∧ _))

theorem Integration.isReusable_iff (i : Integration) : i.isReusable = true ↔ i.Serves := by
  simp [isReusable, Serves, and_assoc]

theorem Service.reusable?_none_iff (s : Service) :
    s.reusable? = none ↔ ∀ i ∈ s.integrations, ¬ i.Serves := by
  simp only [reusable?_eq_none_iff, Integration.isReusable_iff]

/-- The first integration that serves is reused. -/
theorem Service.reusable?_some_iff (s : Service) (i : Integration) :
    s.reusable? = some i ↔ i.Serves ∧ ∃ before after, s.integrations = before ++ i :: after ∧
      ∀ j ∈ before, ¬ j.Serves := by
  simp only [reusable?, List.find?_eq_some_iff_append, ← Integration.isReusable_iff,
    Bool.not_eq_true', Bool.not_eq_true]

section Replies

variable (xs : List Entry)

def policyReply? : Option (Except ApiError EscalationPolicy) :=
  xs.findSome? fun
    | ⟨.getEscalationPolicy _, r⟩ => some r
    | _ => none

def creationReply? : Option (Except ApiError Service) :=
  xs.findSome? fun
    | ⟨.createService _, r⟩ => some r
    | _ => none

def listingReply? : Option (Except ApiError (List Service)) :=
  xs.findSome? fun
    | ⟨.listServices _, r⟩ => some r
    | _ => none

def integrationReply? : Option (Except ApiError Integration) :=
  xs.findSome? fun
    | ⟨.createIntegration _ _, r⟩ => some r
    | _ => none

/-- The service that was created or, if its name was rejected as taken, adopted: the first one listed
that has exactly this name. -/
def obtained? (name : String) : Option Service :=
  match creationReply? xs with
  | some (.ok s) => some s
  | some (.error (.duplicateName _)) =>
    match listingReply? xs with
    | some (.ok services) => named name services
    | _ => none
  | _ => none

/-- A service is to be created once the policy was found. -/
def dueCreation (c : TicketingConfig) : List Call :=
  match policyReply? xs with
  | some (.ok policy) => [.createService {
      id := ""
      name := c.serviceName
      description := c.serviceDescription
      escalationPolicy := ⟨policy.id, "escalation_policy_reference"⟩
      autoResolveTimeout := some c.autoResolveTimeout
      acknowledgementTimeout := some c.acknowledgeTimeout
      alertCreation := some alertCreation
      integrations := [] }]
  | _ => []

/-- Services are to be listed once the name was rejected as taken. -/
def dueListing (c : TicketingConfig) : List Call :=
  match creationReply? xs with
  | some (.error (.duplicateName _)) => [.listServices c.serviceName]
  | _ => []

/-- An integration is to be created for a service that was obtained and has none that serves. -/
def dueIntegration (c : TicketingConfig) : List Call :=
  match obtained? xs c.serviceName with
  | some s =>
    if ∃ i ∈ s.integrations, i.Serves then []
    else [.createIntegration s.id ⟨"", integrationName, integrationKind, none⟩]
  | none => []

end Replies

/-- The operations that provisioning may use, in the order in which it uses them. -/
def provisioningOperations : List String :=
  ["get_escalation_policy", "create_service", "list_services", "create_integration"]

section Courses

variable {c : TicketingConfig} {s : Service} {rejection : ApiError} {xs : List Entry} {o : Outcome}

/-- A service whose creation was rejected as a duplicate is looked for among those listed. -/
theorem obtained?_listed (id query message name : String) (policy : Except ApiError EscalationPolicy)
    (services : List Service) :
    obtained? (⟨.getEscalationPolicy id, policy⟩ ::
      ⟨.createService s, .error (.duplicateName message)⟩ ::
      ⟨.listServices query, .ok services⟩ :: xs) name = named name services :=
  rfl

theorem Finishes.calls (h : Finishes c s xs o) : xs.map Answered.call =
    if ∃ i ∈ s.integrations, i.Serves then [] else [.createIntegration s.id integrationToCreate] := by
  cases h with
  | reuses h =>
    obtain ⟨hi, before, after, hsplit, -⟩ := (s.reusable?_some_iff _).1 h
    rw [if_pos ⟨_, by simp [hsplit], hi⟩]
    rfl
  | creates h | fails h =>
    rw [Service.reusable?_none_iff] at h
    rw [if_neg (by simpa using h)]
    rfl

/-- The calls of a course are those that are due by its replies. -/
theorem Course.calls (h : Course c xs o) (hvalid : c.validate = .ok ()) :
    xs.map Answered.call = .getEscalationPolicy c.escalationPolicyId ::
      (dueCreation xs c ++ dueListing xs c ++ dueIntegration xs c) := by
  cases h with
  | invalid h => cases hvalid.symm.trans h
  | unknown => rfl
  | creates _ hs =>
    rw [List.map_cons, List.map_cons, hs.calls]
    rfl
  | @refused policy e _ he =>
    cases e with
    | duplicateName => cases he
    | _ => rfl
  | taken _ hs =>
    cases hs with
    | unlisted => rfl
    | unmatched h =>
      rw [dueIntegration, obtained?_listed, h]
      rfl
    | adopts h hs =>
      rw [List.map_cons, List.map_cons, List.map_cons, hs.calls, dueIntegration, obtained?_listed, h]
      rfl

theorem Course.eq_nil (h : Course c xs o) (hlacks : c.Incomplete) : xs = [] := by
  have hinvalid : c.validate ≠ .ok () := fun hvalid => c.validate_eq_ok_iff.1 hvalid hlacks
  cases h with
  | invalid => rfl
  | unknown h | creates h | refused h | taken h => exact absurd h hinvalid

theorem Course.policyNotFound (h : Course c xs o) {e : ApiError}
    (he : policyReply? xs = some (.error e)) :
    o.2 = .error (.policyNotFound c.escalationPolicyId e) := by
  cases h <;> cases he
  rfl

theorem Finishes.operations (h : Finishes c s xs o) :
    (xs.map fun x => x.call.name).Sublist ["create_integration"] := by
  cases h with
  | reuses => exact List.nil_sublist _
  | creates | fails => exact List.Sublist.refl _

/-- No operation is used twice. -/
theorem Course.operations (h : Course c xs o) :
    (xs.map fun x => x.call.name).Sublist provisioningOperations := by
  cases h with
  | invalid => exact List.nil_sublist _
  | unknown => exact (List.nil_sublist _).cons_cons _
  | refused => exact ((List.nil_sublist _).cons_cons _).cons_cons _
  | creates _ hs => exact ((hs.operations.cons _).cons_cons _).cons_cons _
  | taken _ hs =>
    cases hs with
    | unlisted | unmatched => exact (((List.nil_sublist _).cons_cons _).cons_cons _).cons_cons _
    | adopts _ hs => exact ((hs.operations.cons_cons _).cons_cons _).cons_cons _

/-- Once it obtained a service, a course only has to finish; without one, it fails and the config is
left as it is. -/
theorem Course.obtains (h : Course c xs o) :
    (obtained? xs c.serviceName = none ∧ integrationReply? xs = none ∧ o.1 = c ∧
      ∃ e, o.2 = .error e) ∨
    ∃ s ys, obtained? xs c.serviceName = some s ∧ integrationReply? xs = integrationReply? ys ∧
      Finishes c s ys o := by
  cases h with
  | invalid => exact .inl ⟨rfl, rfl, rfl, _, rfl⟩
  | unknown => exact .inl ⟨rfl, rfl, rfl, _, rfl⟩
  | @refused policy e _ he =>
    cases e with
    | duplicateName => cases he
    | _ => exact .inl ⟨rfl, rfl, rfl, _, rfl⟩
  | creates _ hs =>
    refine .inr ⟨_, _, rfl, ?_, hs⟩
    rfl
  | taken _ hs =>
    cases hs with
    | unlisted => exact .inl ⟨rfl, rfl, rfl, _, rfl⟩
    | unmatched h => exact .inl ⟨(obtained?_listed ..).trans h, rfl, rfl, _, rfl⟩
    | adopts h hs =>
      refine .inr ⟨_, _, (obtained?_listed ..).trans h, ?_, hs⟩
      rfl

theorem Finishes.frame (h : Finishes c s xs o) :
    o.1 = { c with serviceId := s.id, integrationId := o.1.integrationId } := by
  cases h <;> rfl

theorem Finishes.of_integrationReply {e : ApiError} (h : Finishes c s xs o)
    (he : integrationReply? xs = some (.error e)) :
    o = ({ c with serviceId := s.id }, .error (.api e)) := by
  cases h <;> cases he
  rfl

theorem Finishes.of_ok {id : String} (h : Finishes c s xs o) (hid : o.2 = .ok id) :
    ∃ i : Integration, i.id = id ∧ o.1 = { c with serviceId := s.id, integrationId := id } ∧
      ((i.Serves ∧ ∃ before after, s.integrations = before ++ i :: after ∧
          ∀ j ∈ before, ¬ j.Serves) ∨
        (∀ j ∈ s.integrations, ¬ j.Serves) ∧ integrationReply? xs = some (.ok i)) := by
  cases h with
  | @reuses i h =>
    cases hid
    exact ⟨i, rfl, rfl, .inl ((s.reusable?_some_iff i).1 h)⟩
  | @creates i h =>
    cases hid
    exact ⟨i, rfl, rfl, .inr ⟨s.reusable?_none_iff.1 h, rfl⟩⟩
  | fails => cases hid

end Courses

section

variable {W : Type} (answer : (c : Call) → W → c.Reply × W)

/-- Whatever is replied, an incomplete config makes no call, and any other looks up its policy and
then makes the calls that are due by the replies, each once and in this order. A policy that cannot
be looked up is what the provisioning fails with. -/
theorem provision_transcript (c : TicketingConfig) (w : W) :
    let xs := c.provision.body.transcript answer w
    (c.Incomplete → xs = []) ∧
    (¬ c.Incomplete → xs.map Answered.call = .getEscalationPolicy c.escalationPolicyId ::
      (dueCreation xs c ++ dueListing xs c ++ dueIntegration xs c)) ∧
    (∀ e, policyReply? xs = some (.error e) →
      (c.provision.body.run answer w).1.2 = .error (.policyNotFound c.escalationPolicyId e)) ∧
    (xs.map fun x => x.call.name).Sublist provisioningOperations := by
  have hcourse := course_run answer c w
  exact ⟨hcourse.eq_nil, fun hcomplete => hcourse.calls (c.validate_eq_ok_iff.2 hcomplete),
    fun e he => hcourse.policyNotFound he, hcourse.operations⟩

/-- A name that is taken by a service without integrations leads to four calls, a policy that is
missing to one, and an empty config to none. -/
theorem provision_transcript_adopted :
    let c := { TicketingConfig.forCluster "c1" "x.example.com" with
      apiKey := "k", escalationPolicyId := "e" }
    let service := serviceToCreate c ⟨"e", ""⟩
    let m : Memory := ⟨[{ service with id := "S9" }], 0, 0, [], 0, 0⟩
    let missing := { m with missingPolicies := ["e"] }
    (c.provision.body.transcript Memory.answer m).map Answered.call =
        [.getEscalationPolicy "e", .createService service, .listServices c.serviceName,
          .createIntegration "S9" integrationToCreate] ∧
      (c.provision.body.run Memory.answer missing).1.2 =
        .error (.policyNotFound "e" (.notFound "escalation policy" "e")) ∧
      TicketingConfig.empty.provision.body.transcript Memory.answer m = [] := by
  intro c service m missing
  have hcomplete : ¬ c.Incomplete := by simp [c, TicketingConfig.Incomplete, TicketingConfig.forCluster]
  have hcalls := (provision_transcript Memory.answer c m).2.1 hcomplete
  have hunknown := (provision_transcript Memory.answer c missing).2.2.1
  have hnone := (provision_transcript Memory.answer .empty m).1
  exact ⟨hcalls.trans (by decide), hunknown _ rfl, hnone (.inl rfl)⟩

/-- Whatever is replied, provisioning writes the two IDs and nothing else: none before it obtained a
service, then that of the service, and that of the first integration that serves, or of the one that
was created for want of such. -/
theorem provision_config (c : TicketingConfig) (w : W) :
    let xs := c.provision.body.transcript answer w
    let o := (c.provision.body.run answer w).1
    o.1 = { c with serviceId := o.1.serviceId, integrationId := o.1.integrationId } ∧
    (obtained? xs c.serviceName = none → o.1 = c ∧ ∃ e, o.2 = .error e) ∧
    (∀ e, integrationReply? xs = some (.error e) → ∃ s, obtained? xs c.serviceName = some s ∧
      o = ({ c with serviceId := s.id }, .error (.api e))) ∧
    ∀ id, o.2 = .ok id → ∃ s i, obtained? xs c.serviceName = some s ∧ i.id = id ∧
      o.1 = { c with serviceId := s.id, integrationId := id } ∧
      ((i.Serves ∧ ∃ before after, s.integrations = before ++ i :: after ∧
          ∀ j ∈ before, ¬ j.Serves) ∨
        (∀ j ∈ s.integrations, ¬ j.Serves) ∧ integrationReply? xs = some (.ok i)) := by
  intro xs o
  have hcourse : Course c xs o := course_run answer c w
  rcases hcourse.obtains with ⟨hnone, hreply, hc, e, he⟩ | ⟨s, ys, hs, hreply, hfinishes⟩
  · refine ⟨by rw [hc], fun _ => ⟨hc, e, he⟩, fun e' h => ?_, fun id hid => ?_⟩
    · cases hreply.symm.trans h
    · cases he.symm.trans hid
  · rw [hreply, hs]
    refine ⟨?_, nofun, fun e he => ⟨s, rfl, hfinishes.of_integrationReply he⟩, fun id hid => ?_⟩
    · rw [hfinishes.frame]
    · obtain ⟨i, hi⟩ := hfinishes.of_ok hid
      exact ⟨s, i, rfl, hi⟩

/-- With a service to adopt, both IDs are written, or only that of the service when its integration
fails, or none when the policy is missing. -/
theorem provision_config_adopted :
    let c := { TicketingConfig.forCluster "c1" "x.example.com" with
      apiKey := "k", escalationPolicyId := "e" }
    let service := { serviceToCreate c ⟨"e", ""⟩ with id := "S9" }
    let m : Memory := ⟨[service], 0, 0, [], 0, 0⟩
    let outcome (m : Memory) := (c.provision.body.run Memory.answer m).1
    (outcome { m with missingPolicies := ["e"] }).1 = c ∧
      outcome { m with failIntegrations := 1 } =
        ({ c with serviceId := "S9" }, .error (.api Memory.boom)) ∧
      (outcome m).1 = { c with serviceId := "S9", integrationId := "I1" } := by
  intro c service m outcome
  have hunknown := (provision_config Memory.answer c { m with missingPolicies := ["e"] }).2.1 rfl
  have hfails := (provision_config Memory.answer c { m with failIntegrations := 1 }).2.2.1
  obtain ⟨s, hs, hfailed⟩ := hfails Memory.boom (by decide)
  have hs' : s = service := Option.some.inj (hs.symm.trans (by decide))
  obtain ⟨t, i, ht, -, hok, -⟩ := (provision_config Memory.answer c m).2.2.2 "I1" (by decide)
  have ht' : t = service := Option.some.inj (ht.symm.trans (by decide))
  subst hs' ht'
  exact ⟨hunknown.1, hfailed, hok⟩

end

end PagerDuty
end Oncall
