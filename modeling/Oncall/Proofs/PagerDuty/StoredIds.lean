import Oncall.PagerDuty.Client
import Oncall.PagerDuty.Resolve
import Oncall.Proofs.Dictionary
import Oncall.Proofs.PagerDuty.Transcript
import Oncall.Proofs.Source.Agreement

/-! IDs that are stored to be loaded again. An ID is loaded unless it is empty. A provisioning that
succeeds writes the IDs that it was given, so it can be loaded again just where PagerDuty gave one
to the service and to the integration, if it created one; an integration that was there before has
one. -/

namespace Oncall.PagerDuty

/-! ### Loading -/

/-- The IDs of a config are in the ConfigMap that a source has for a cluster. -/
def Stores {V : Type} (read : (call : ObjectCall) → V → call.Reply × V) (v : V)
    (nspace cluster : String) (c : TicketingConfig) : Prop :=
  ∃ d : Dictionary String, (read (.configMap nspace (clusterConfigMapName cluster)) v).1 = .ok d ∧
    d.lookup serviceIdKey = some c.serviceId ∧ d.lookup integrationIdKey = some c.integrationId

theorem required_ofTexts {d : Dictionary String} {key text : String} (object : String)
    (h : d.lookup key = some text) : (Payload.ofTexts d).required key object =
      if text = "" then .error (.emptyValue key object) else .ok text := by
  have hraw : (Payload.ofTexts d).lookup key = some (Utf8.encode text.toList) := by
    rw [Payload.ofTexts, Dictionary.lookup_mapValues, h]
    rfl
  simp only [Payload.required, hraw, Utf8.decodeLossy_encode, String.ofList_toList,
    String.isEmpty_iff]

/-- What is stored is loaded, up to the first ID that is empty. -/
theorem loadIds_of_stores {V : Type} {read : (call : ObjectCall) → V → call.Reply × V} {v : V}
    {nspace cluster : String} {c : TicketingConfig} (h : Stores read v nspace cluster c)
    (d : TicketingConfig) :
    let object := objectRef nspace (clusterConfigMapName cluster)
    ((d.loadIds nspace cluster).run read v).1 =
      if c.serviceId = "" then (d, .error (.emptyValue serviceIdKey object))
      else if c.integrationId = "" then
        ({ d with serviceId := c.serviceId }, .error (.emptyValue integrationIdKey object))
      else ({ d with serviceId := c.serviceId, integrationId := c.integrationId }, .ok ()) := by
  obtain ⟨texts, hread, hservice, hintegration⟩ := h
  intro object
  have hloaded : ((d.loadIds nspace cluster).run read v).1 =
      d.readIds object (Payload.ofTexts texts) := by
    simp only [TicketingConfig.loadIds, Workflow.run_call, hread]
    rfl
  rw [hloaded, TicketingConfig.readIds, required_ofTexts object hservice,
    required_ofTexts object hintegration]
  by_cases hs : c.serviceId = ""
  · simp only [if_pos hs]
  · by_cases hi : c.integrationId = ""
    · simp only [if_neg hs, if_pos hi]
    · simp only [if_neg hs, if_neg hi]

theorem loadIds_eq_ok_iff {V : Type} {read : (call : ObjectCall) → V → call.Reply × V} {v : V}
    {nspace cluster : String} {c : TicketingConfig} (h : Stores read v nspace cluster c)
    (d : TicketingConfig) :
    ((d.loadIds nspace cluster).run read v).1.2 = .ok () ↔ c.serviceId ≠ "" ∧ c.integrationId ≠ "" := by
  rw [loadIds_of_stores h]
  by_cases hs : c.serviceId = ""
  · rw [if_pos hs]
    exact iff_of_false nofun fun h => h.1 hs
  · rw [if_neg hs]
    by_cases hi : c.integrationId = ""
    · rw [if_pos hi]
      exact iff_of_false nofun fun h => h.2 hi
    · rw [if_neg hi]
      exact iff_of_true rfl ⟨hs, hi⟩

/-! ### Provisioning -/

/-- The ID that a provisioning ends with can only be empty if it is that of an integration it
created. -/
theorem Finishes.id_ne_empty_iff {c : TicketingConfig} {s : Service} {xs : List Entry} {o : Outcome}
    {id : String} (h : Finishes c s xs o) (hid : o.2 = .ok id) :
    id ≠ "" ↔ ∀ i, integrationReply? xs = some (.ok i) → i.id ≠ "" := by
  cases h with
  | @reuses i h =>
    cases hid
    exact iff_of_true ((s.reusable?_some_iff i).1 h).1.1 nofun
  | @creates i h =>
    cases hid
    constructor
    · rintro hne j hj
      cases hj
      exact hne
    · exact fun hne => hne i rfl
  | fails => cases hid

section

variable {W : Type} (answer : (c : Call) → W → c.Reply × W)

/-- Whatever is replied, a provisioning that succeeds writes both IDs and returns that of the
integration. Once stored they are loaded again just where PagerDuty gave one to the service, and to
the integration if it had to be created. -/
theorem provisioned_ids_load_iff (c : TicketingConfig) (w : W) {id : String}
    (hid : (c.provision.body.run answer w).1.2 = .ok id) :
    let xs := c.provision.body.transcript answer w
    let o := (c.provision.body.run answer w).1
    ∃ s, obtained? xs c.serviceName = some s ∧
      o.1 = { c with serviceId := s.id, integrationId := id } ∧
      ∀ {V : Type} (read : (call : ObjectCall) → V → call.Reply × V) (v : V) (nspace cluster : String)
        (d : TicketingConfig), Stores read v nspace cluster o.1 →
        (((d.loadIds nspace cluster).run read v).1.2 = .ok () ↔
          s.id ≠ "" ∧ ∀ i, integrationReply? xs = some (.ok i) → i.id ≠ "") := by
  intro xs o
  have hcourse : Course c xs o := course_run answer c w
  rcases hcourse.obtains with ⟨-, -, -, e, he⟩ | ⟨s, ys, hs, hreply, hfinishes⟩
  · cases he.symm.trans hid
  · obtain ⟨i, -, hconfig, -⟩ := hfinishes.of_ok hid
    refine ⟨s, hs, hconfig, fun read v nspace cluster d hstores => ?_⟩
    rw [loadIds_eq_ok_iff hstores, hconfig, hreply]
    exact and_congr_right fun _ => hfinishes.id_ne_empty_iff hid

/-- A service that is adopted with an ID gets an integration with another, and both are loaded
again. -/
theorem provisioned_ids_load_iff_adopted :
    let c := { TicketingConfig.forCluster "c1" "x.example.com" with
      apiKey := "k", escalationPolicyId := "e" }
    let service := { serviceToCreate c ⟨"e", ""⟩ with id := "S9" }
    let m : Memory := ⟨[service], 0, 0, [], 0, 0⟩
    let o := (c.provision.body.run Memory.answer m).1
    let store := ObjectStore.empty.putConfigMap "n" (clusterConfigMapName "c1")
      [(integrationIdKey, o.1.integrationId), (serviceIdKey, o.1.serviceId)]
    o.2 = .ok "I1" ∧ Stores ObjectStore.serve store "n" "c1" o.1 ∧
      ((TicketingConfig.empty.loadIds "n" "c1").run ObjectStore.serve store).1.2 = .ok () := by
  intro c service m o store
  have hok : o.2 = .ok "I1" := by decide
  have hstores : Stores ObjectStore.serve store "n" "c1" o.1 := ⟨_, rfl, rfl, rfl⟩
  obtain ⟨s, hs, -, hload⟩ := provisioned_ids_load_iff Memory.answer c m hok
  obtain rfl : service = s := Option.some.inj ((by decide : _ = some service).symm.trans hs)
  refine ⟨hok, hstores, (hload ObjectStore.serve store "n" "c1" .empty hstores).2 ⟨by decide, ?_⟩⟩
  intro i hi
  have hcreated : integrationReply? (c.provision.body.transcript Memory.answer m) =
      some (.ok { integrationToCreate with id := "I1" }) := by decide
  cases hcreated.symm.trans hi
  decide

/-- A service and an integration that are created without IDs make a provisioning succeed with
neither, and so does a service that is adopted without one. -/
theorem provisioned_without_ids :
    let c := { TicketingConfig.forCluster "c1" "x.example.com" with
      apiKey := "k", escalationPolicyId := "e" }
    let texts := ["\x7b\"escalation_policy\":\x7b\"id\":\"e\"\x7d\x7d",
      "\x7b\"service\":\x7b\"name\":\"n\",\"escalation_policy\":\x7b\"id\":\"e\"\x7d\x7d\x7d",
      "\x7b\"integration\":\x7b\x7d\x7d"]
    let peer : Http.Peer := ⟨[.plain "pd"], true, texts.map fun t => .response 200 (Utf8.encode t.toList), []⟩
    let unnumbered := { serviceToCreate c ⟨"e", ""⟩ with id := "" }
    let m : Memory := ⟨[unnumbered], 0, 0, [], 0, 0⟩
    c.validate = .ok () ∧
      (c.provision.body.run (Client.connect "http://pd" "k").answer peer).1 =
        ({ c with serviceId := "", integrationId := "" }, .ok "") ∧
      (c.provision.body.run Memory.answer m).1 =
        ({ c with serviceId := "", integrationId := "I1" }, .ok "I1") := by
  decide +kernel

end

end Oncall.PagerDuty
